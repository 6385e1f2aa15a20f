import CommandScript.Context
import CommandScript.Operation.Basic

/-!
# Running commands

A command is read, its variables are replaced by their values, its operation is found and does its
work, and then the variable that receives the value is set. Each stage starts in the state that the
one before it left, and no stage takes back what another changed. The commands after one that failed
run all the same.
-/

set_option autoImplicit false

namespace CommandScript

-- What a command sees and changes: the variables of its session and the shared state.
structure State where
  context : Context
  world : World
deriving Repr

def State.initial : State :=
  ⟨Context.empty, World.initial⟩

structure Outcome where
  command : String
  result : Except Fault Value

namespace Outcome

def succeeded (outcome : Outcome) : Bool :=
  match outcome.result with
  | .ok _ => true
  | .error _ => false

def faultKind? (outcome : Outcome) : Option FaultKind :=
  match outcome.result with
  | .ok _ => none
  | .error fault => some fault.kind

def line (store : Store) (outcome : Outcome) : String :=
  match outcome.result with
  | .ok value => "✓ " ++ outcome.command ++ " → " ++ store.text value
  | .error fault => "✗ " ++ outcome.command ++ " - " ++ fault.message

end Outcome

def Command.read (text : String) : Except Fault Command :=
  match Command.parse text with
  | .ok command => .ok command
  | .error error => .error (.malformed error)

namespace State

def onWorld {α : Type} (work : ExceptT Fault (StateM World) α) :
    ExceptT Fault (StateM State) α := fun state =>
  let (result, world) := work.run state.world
  (result, { state with world })

def bind (name : Option String) (value : Value) : ExceptT Fault (StateM State) Unit :=
  match name with
  | some name => modify fun state => { state with context := state.context.set name value }
  | none => return

-- Reads a command and does its work. A name given from outside takes the place of the binding in
-- the text.
def attempt (tree : Tree Operation) (name : Option String) (text : String) :
    ExceptT Fault (StateM State) Value := do
  let command ← Command.read text
  let arguments := (← get).context.resolveAll command.arguments
  let value ← onWorld (tree.dispatch command.path arguments)
  bind (name <|> command.binding) value
  return value

def executeWith (tree : Tree Operation) (name : Option String) (text : String) (state : State) :
    Outcome × State :=
  let command := Text.trimmed text
  let (result, after) := (attempt tree name command).run state
  (⟨command, result⟩, after)

-- The outcome of a command; a binding in the text receives the value.
def execute (tree : Tree Operation) (text : String) (state : State) : Outcome × State :=
  state.executeWith tree none text

def executeAndStore (tree : Tree Operation) (name text : String) (state : State) :
    Outcome × State :=
  state.executeWith tree (some name) text

def executeAll (tree : Tree Operation) : List String → State → List Outcome × State
  | [], state => ([], state)
  | line :: rest, state =>
    let (outcome, next) := state.execute tree line
    let (outcomes, final) := next.executeAll tree rest
    (outcome :: outcomes, final)

end State

end CommandScript
