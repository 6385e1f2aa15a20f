import CommandScript.Operation.Call

/-!
# Operations that write text

`Console` writes the text of its first argument; `Debug` writes it as a line with a mark for
warnings and errors. A missing argument and `null` are written as nothing.
-/

set_option autoImplicit false

namespace CommandScript

inductive ConsoleOperation where
  | writeLine
  | write
deriving DecidableEq, Repr

inductive DebugOperation where
  | log
  | logWarning
  | logError
deriving DecidableEq, Repr

-- The text of the first argument; empty if it is missing or `null`.
def messageOf (world : World) : List Value → String
  | [] => ""
  | .null :: _ => ""
  | value :: _ => world.text value

namespace ConsoleOperation

def all : List ConsoleOperation :=
  [.writeLine, .write]

def key : ConsoleOperation → String
  | .writeLine => "WriteLine"
  | .write => "Write"

def run (operation : ConsoleOperation) (arguments : List Value) : Action Value := do
  let message := messageOf (← get) arguments
  match operation with
  | .writeLine => Action.print (message ++ "\n")
  | .write => Action.print message
  return .null

end ConsoleOperation

namespace DebugOperation

def all : List DebugOperation :=
  [.log, .logWarning, .logError]

def key : DebugOperation → String
  | .log => "Log"
  | .logWarning => "LogWarning"
  | .logError => "LogError"

def mark : DebugOperation → String
  | .log => ""
  | .logWarning => "[Warning] "
  | .logError => "[Error] "

def run (operation : DebugOperation) (arguments : List Value) : Action Value := do
  let message := messageOf (← get) arguments
  Action.print (operation.mark ++ message ++ "\n")
  return .null

end DebugOperation

end CommandScript
