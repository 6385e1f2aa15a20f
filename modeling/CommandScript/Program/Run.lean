import CommandScript.Catalog.Standard
import CommandScript.Program.FileTree
import CommandScript.Program.Options
import CommandScript.Report
import CommandScript.Session.Basic
import CommandScript.Text.Utf8

/-!
# The command-line program

The program gathers scripts, from the inputs it was given, the script directory or the standard
input, runs them, and prints what the operations wrote followed by one line for each command. It
fails with a message and prints nothing else if the scripts cannot be gathered or loaded.

What the program sees of its surroundings is an `Environment`; a `Disk` gives one that holds
everything as data.
-/

set_option autoImplicit false

namespace CommandScript.Program

inductive ReadError where
  | missing
  | notDirectory
  | tooLong
  | other (text : String)
deriving DecidableEq, Repr

def ReadError.message : ReadError → String
  | .missing => "No such file or directory (os error 2)"
  | .notDirectory => "Not a directory (os error 20)"
  | .tooLong => "File name too long (os error 36)"
  | .other text => text

structure Environment (m : Type → Type) where
  isDirectory : String → m Bool
  isFile : String → m Bool
  entries : String → m (Except String (List String))
  read : String → m (Except ReadError (List UInt8))
  -- The bytes of the standard input; none if it is a terminal.
  input : m (Option (List UInt8))
  scriptDir : Option String
  userScriptDir : Option String

-- How a run ends: its exit code, what it prints, and the lines in which the program itself complains.
-- What is logged meanwhile is told by the `Plan` of the run.
structure Exit where
  code : Nat
  stdout : String
  complaints : List String
deriving DecidableEq, Repr

def usage : String :=
  "Usage: sfscript [-d] [-l] [-L<dir>] [-c<cmd>] [-s<script>] [-t<ms>] [<file|dir> ...]"

def complaint (message : String) : String :=
  "sfscript: " ++ message

def failed (message : String) : Exit :=
  ⟨1, "", [complaint message]⟩

def scriptExtension : String :=
  "sfs"

def defaultScriptDir : String :=
  "./scripts"

-- The session in which the program runs its scripts.
def sessionId : String :=
  "cli"

section Gathering

variable {m : Type → Type} [Monad m]

-- The script directory: as the command line says, as the user has set it, the user's own if there
-- is one, or else the default.
def findScriptDir (environment : Environment m) (options : Options) : m String := do
  if let some dir := options.scriptDir then return dir
  if let some dir := environment.scriptDir then return dir
  if let some dir := environment.userScriptDir then
    if ← environment.isDirectory dir then return dir
  return defaultScriptDir

-- The inputs of a run; without any, the script directory if it exists.
def findInputs (environment : Environment m) (options : Options) : m (List String) := do
  if !options.inputs.isEmpty then return options.inputs
  let dir ← findScriptDir environment options
  if ← environment.isDirectory dir then return [dir]
  return []

def isScriptFile (environment : Environment m) (path : String) : m Bool := do
  if Path.extension? path = some scriptExtension.toList then environment.isFile path
  else return false

def keepScripts (environment : Environment m) : List String → m (List String)
  | [] => return []
  | path :: rest => do
    let kept ← isScriptFile environment path
    let others ← keepScripts environment rest
    return if kept then path :: others else others

def scriptsIn (environment : Environment m) (directory : String) :
    m (Except String (List String)) := do
  match ← environment.entries directory with
  | .error text => return .error text
  | .ok names =>
    let ordered := names.mergeSort fun first second => decide (first ≤ second)
    return .ok (← keepScripts environment (ordered.map (Path.join directory)))

-- The script files that inputs stand for: a directory for the script files in it, and anything else
-- for itself.
def expandInputs (environment : Environment m) : List String → m (Except String (List String))
  | [] => return .ok []
  | input :: rest => do
    let first ←
      if ← environment.isDirectory input then scriptsIn environment input
      else pure (.ok [input])
    match first with
    | .error text => return .error text
    | .ok paths =>
      match ← expandInputs environment rest with
      | .error text => return .error text
      | .ok others => return .ok (paths ++ others)

def textOfFile (content : Except ReadError (List UInt8)) : Except String String :=
  match content with
  | .error error => .error error.message
  | .ok bytes =>
    match Text.Utf8.decode bytes with
    | .ok text => .ok (String.ofList text)
    | .error _ => .error "stream did not contain valid UTF-8"

def readScripts (environment : Environment m) : List String → m (Except String Bundle)
  | [] => return .ok []
  | path :: rest => do
    match textOfFile (← environment.read path) with
    | .error text => return .error (path ++ ": " ++ text)
    | .ok text =>
      match ← readScripts environment rest with
      | .error text => return .error text
      | .ok others => return .ok ((Path.scriptName path, text) :: others)

-- The text of the standard input. It is cut into lines before it is read as text, and every line of
-- the text ends with a line feed.
def textOfInput (bytes : List UInt8) : Except Text.Utf8.Fault String := do
  let lines ← (Text.byteLines bytes).mapM Text.Utf8.decode
  return String.ofList (lines.flatMap (· ++ ['\n']))

-- The scripts of a run. Without any, and without a command to run, the standard input is the
-- script.
def gather (environment : Environment m) (options : Options) : m (Except String Bundle) := do
  let inputs ← findInputs environment options
  match ← expandInputs environment inputs with
  | .error text => return .error ("reading scripts: " ++ text)
  | .ok paths =>
    match ← readScripts environment paths with
    | .error text => return .error text
    | .ok bundle =>
      if !bundle.isEmpty || options.command.isSome then return .ok bundle
      match ← environment.input with
      | none => return .error "no scripts found"
      | some bytes =>
        match textOfInput bytes with
        | .error fault => return .error ("stdin: " ++ fault.message)
        | .ok text => return .ok [("stdin", text)]

end Gathering

inductive Job where
  | command (text : String)
  | inSession (session : Session) (text : String)
  | script (session : Session) (name : String)
  | everything (session : Session)

-- What to execute: a command alone if there are no scripts; otherwise, in a session of the scripts,
-- the command, the one script that was asked for, or all scripts.
def Job.plan (options : Options) (bundle : Bundle) : Except SessionError Job :=
  if bundle.isEmpty then .ok (.command (options.command.getD ""))
  else do
    let session ← Session.load sessionId bundle
    match options.command, options.script with
    | some text, _ => return .inSession session text
    | none, some name => return .script session name
    | none, none => return .everything session

-- Works in a session of a program that has run nothing before.
def startWith (session : Session) (work : SessionWork (List Outcome)) :
    Except SessionError (List Outcome) × World :=
  let (result, left) := work.run ⟨session, World.initial⟩
  (result, left.world)

def Job.run (tree : Tree Operation) : Job → Except SessionError (List Outcome) × World
  | .command text =>
    let (outcome, final) := State.execute tree text State.initial
    (.ok [outcome], final.world)
  | .inSession session text => startWith session (List.singleton <$> Session.execute tree text)
  | .script session name => startWith session (Session.executeScript tree name)
  | .everything session => startWith session (Session.executeAll tree)

-- What was written before a job was refused stays written.
def conclude (colored : Bool) : Except SessionError (List Outcome) × World → Exit
  | (.error error, world) => ⟨1, world.output.contents, [complaint error.message]⟩
  | (.ok outcomes, world) =>
    { code := if Report.failures outcomes = 0 then 0 else 1
      stdout := world.output.contents ++ Report.text colored world.store outcomes
      complaints := [] }

-- The listing of a catalog: one path to a line.
def listing (tree : Tree Operation) : Exit :=
  ⟨0, String.join (tree.paths.map (· ++ "\n")), []⟩

-- What a command line asks for: its options, the scripts that were gathered, and the job.
structure Plan where
  options : Options
  bundle : Bundle
  job : Job

-- What a command line comes to before anything runs: an end, or a plan.
def prepare {m : Type → Type} [Monad m] (environment : Environment m) (arguments : List String) :
    m (Except Exit Plan) := do
  match Options.parse arguments with
  | .error error => return .error ⟨1, "", [complaint error.message, usage]⟩
  | .ok options =>
    if options.list then return .error (listing Catalog.tree)
    match ← gather environment options with
    | .error text => return .error (failed text)
    | .ok bundle =>
      match Job.plan options bundle with
      | .error error => return .error (failed error.message)
      | .ok job => return .ok { options, bundle, job }

def run {m : Type → Type} [Monad m] (environment : Environment m) (colored : Bool)
    (arguments : List String) : m Exit := do
  match ← prepare environment arguments with
  | .error exit => return exit
  | .ok plan => return conclude colored (plan.job.run Catalog.tree)

end CommandScript.Program

namespace CommandScript.Disk

open Program

def environment (disk : Disk) (input : Option (List UInt8)) (scriptDir userScriptDir : Option String) :
    Environment Id where
  isDirectory path :=
    match disk.find path with
    | .found (.directory _) => true
    | _ => false
  isFile path :=
    match disk.find path with
    | .found (.file _) => true
    | _ => false
  entries path :=
    match disk.find path with
    | .found (.directory entries) => .ok (Table.keys entries)
    | .found (.file _) => .error ReadError.notDirectory.message
    | .missing => .error ReadError.missing.message
    | .notDirectory => .error ReadError.notDirectory.message
    | .tooLong => .error ReadError.tooLong.message
  read path :=
    match disk.find path with
    | .found (.file bytes) => .ok bytes
    | .found (.directory _) => .error (.other "Is a directory (os error 21)")
    | .missing => .error .missing
    | .notDirectory => .error .notDirectory
    | .tooLong => .error .tooLong
  input := input
  scriptDir := scriptDir
  userScriptDir := userScriptDir

end CommandScript.Disk
