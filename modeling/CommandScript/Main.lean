import CommandScript.Program.Launch

/-!
# The executable

Hands the arguments and the surroundings of the process to the program and writes out how it ends.
-/

set_option autoImplicit false

namespace CommandScript.Main

open Program

partial def readAll (stream : IO.FS.Stream) (before : ByteArray) : IO ByteArray := do
  let chunk ← stream.read 65536
  if chunk.isEmpty then return before
  readAll stream (before ++ chunk)

def orElse {α : Type} (action : IO α) (substitute : α) : IO α :=
  try action catch _ => return substitute

def isDirectory (path : String) : IO Bool := do
  if path.isEmpty then return false
  let here ← IO.currentDir
  (here / path).isDir

def isFile (path : String) : IO Bool := do
  if path.isEmpty then return false
  let here ← IO.currentDir
  orElse (do return (← (here / path).metadata).type == .file) false

def entries (path : String) : IO (Except String (List String)) := do
  let here ← IO.currentDir
  try
    let found ← (here / path).readDir
    return .ok (found.toList.map fun entry => entry.fileName)
  catch error => return .error (toString error)

-- Whether a number of the system stands for a name that is too long. Some calls give it negated.
def isNameTooLong (code : UInt32) : Bool :=
  code == 36 || code == 0 - 36

def read (path : String) : IO (Except ReadError (List UInt8)) := do
  if path.isEmpty then return .error .missing
  try
    return .ok (← IO.FS.readBinFile path).toList
  catch
    | .noFileOrDirectory .. => return .error .missing
    | .inappropriateType .. => return .error .notDirectory
    | .invalidArgument name code details =>
      if isNameTooLong code then return .error .tooLong
      return .error (.other (toString (IO.Error.invalidArgument name code details)))
    | error => return .error (.other (toString error))

-- The bytes of the standard input; none if it is a terminal.
def input : IO (Option (List UInt8)) := do
  let stdin ← IO.getStdin
  if ← stdin.isTty then return none
  return some (← readAll stdin ByteArray.empty).toList

def userScriptDir : IO (Option String) := do
  let below (data : String) : String := data ++ "/sfscript/scripts"
  if let some data ← IO.getEnv "XDG_DATA_HOME" then
    if data.startsWith "/" then return some (below data)
  return (← IO.getEnv "HOME").map fun home => below (home ++ "/.local/share")

def environment : IO (Environment IO) := do
  let scriptDir ← IO.getEnv "SFSCRIPT_DIR"
  let userScriptDir ← userScriptDir
  return { isDirectory, isFile, entries, read, input, scriptDir, userScriptDir }

partial def await {α : Type} (task : Task α) (deadline : Nat) : IO (Option α) := do
  if ← IO.hasFinished task then return some task.get
  if deadline ≤ (← IO.monoMsNow) then return none
  IO.sleep 1
  await task deadline

-- How a plan ends. When its time is up, what was logged since the scripts were loaded is lost.
def finish (plan : Plan) (write : Log.Writer) (colored : Bool) : IO Ended := do
  match plan.options.timeout with
  | none => return plan.carryOut write colored
  | some limit =>
    let task := Task.spawn fun _ => plan.carryOut write colored
    match ← await task ((← IO.monoMsNow) + limit.toNat) with
    | some ended => return ended
    | none =>
      let message := "timed out after " ++ Number.integerText limit.toNat ++ "ms"
      let loading := plan.loading.filterMap (Log.Notice.written? plan.options.debug)
      return (failed message).after (write.text loading)

def conveyed (ended : Ended) : IO UInt32 := do
  let stdout ← IO.getStdout
  stdout.putStr ended.stdout
  stdout.flush
  IO.eprint ended.stderr
  return UInt32.ofNat ended.code

-- The runtime has read the arguments as text already.
def runProgram (arguments : List String) : IO UInt32 := do
  let colored ← (← IO.getStdout).isTty
  let milliseconds ← IO.monoMsNow
  let write := Log.Writer.standard fun _ => Number.integerText milliseconds ++ "ms"
  match ← prepare (← environment) arguments with
  | .error exit => conveyed (exit.after "")
  | .ok plan => conveyed (← finish plan write colored)

end CommandScript.Main

def main (arguments : List String) : IO UInt32 :=
  CommandScript.Main.runProgram arguments
