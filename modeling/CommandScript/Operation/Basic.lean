import CommandScript.Tree
import CommandScript.World

/-!
# Operations

An operation works on the shared state with its arguments and ends with a value, or stops. It stops
with a fault that it names, or by crashing; a crash is reported as a fault too, so a command never
ends in any other way. Nothing takes back what an operation changed before it stopped.
-/

set_option autoImplicit false

namespace CommandScript

-- How an operation stops without a value: a fault that it names, or a crash with the report that it
-- leaves, if any.
inductive Stop where
  | fault (reason : Fault)
  | crash (report : Option String)
deriving DecidableEq, Repr

-- Work on the shared state: it ends with a value or stops, and keeps what it changed either way.
abbrev Action (α : Type) := ExceptT Stop (StateM World) α

structure Operation where
  run : List Value → Action Value

def Stop.toFault : Stop → Fault
  | .fault reason => reason
  | .crash report => .runtime (.crashed (report.getD "unknown panic"))

namespace Action

-- Work on the registry as work on the shared state; a refusal is a fault.
def register (work : Registration Unit) : Action Unit := fun world =>
  let (result, registry) := work.run world.registry
  (result.mapError fun error => .fault (.registration error), { world with registry })

def create (component : Component) : Action ComponentId := do
  let world ← get
  set { world with store := world.store.create component }
  return world.store.next

def assign (id : ComponentId) (field : String) (value : Value) : Action Unit := do
  let world ← get
  let component := world.store.get id
  if !component.accepts field then
    throw (.fault (.argument (.noField component.typeName field)))
  set { world with store := world.store.write id field value }

def print (text : String) : Action Unit :=
  modify fun world => { world with output := world.output.write text }

end Action

namespace Operation

def invoke (operation : Operation) (arguments : List Value) : ExceptT Fault (StateM World) Value :=
  ExceptT.adapt Stop.toFault (operation.run arguments)

end Operation

namespace Tree

def dispatchFrom (tree : Tree Operation) (path : List String) (followed : Nat)
    (arguments : List Value) : ExceptT Fault (StateM World) Value :=
  match tree.route (path.drop followed) with
  | .reached leaf => leaf.invoke arguments
  | .onNamespace => throw (.methodNotFound (Command.joinPath path))
  | .missing segment => throw (.namespaceNotFound segment (Command.joinPath path))

def dispatch (tree : Tree Operation) (path : List String) (arguments : List Value) :
    ExceptT Fault (StateM World) Value :=
  tree.dispatchFrom path 0 arguments

end Tree

end CommandScript
