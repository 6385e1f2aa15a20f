import CommandScript.Component.Store
import CommandScript.Registry

/-!
# What operations share

All sessions of one program share the type registry, the components and the output.
-/

set_option autoImplicit false

namespace CommandScript

-- Where operations write text: kept for later, or thrown away.
inductive Output where
  | kept (text : String)
  | discarded
deriving DecidableEq, Repr

namespace Output

def empty : Output :=
  .kept ""

def contents : Output → String
  | .kept text => text
  | .discarded => ""

def write (output : Output) (text : String) : Output :=
  match output with
  | .kept before => .kept (before ++ text)
  | .discarded => .discarded

def writeLine (output : Output) (text : String) : Output :=
  output.write (text ++ "\n")

def clear : Output → Output
  | .kept _ => .kept ""
  | .discarded => .discarded

end Output

structure World where
  registry : Registry
  store : Store
  output : Output
deriving Repr

namespace World

-- The state of a new program: the builtin types, no components, nothing written.
def initial : World where
  registry := Registry.initial
  store := Store.empty
  output := Output.empty

def text (world : World) (value : Value) : String :=
  world.store.text value

end World

end CommandScript
