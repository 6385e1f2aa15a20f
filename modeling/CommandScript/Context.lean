import CommandScript.Table
import CommandScript.Value.Basic

/-!
# Variables

The variables of a session, and the replacement of `$name` in the arguments of a command. A variable
that was never set reads as `null`.
-/

set_option autoImplicit false

namespace CommandScript

structure Context where
  bindings : Table Value
deriving Repr

namespace Context

def empty : Context :=
  ⟨[]⟩

def get? (context : Context) (name : String) : Option Value :=
  context.bindings.find? name

def set (context : Context) (name : String) (value : Value) : Context :=
  ⟨context.bindings.put name value⟩

def remove (context : Context) (name : String) : Context :=
  ⟨context.bindings.drop name⟩

def contains (context : Context) (name : String) : Bool :=
  context.bindings.has name

def size (context : Context) : Nat :=
  context.bindings.length

def isEmpty (context : Context) : Bool :=
  context.bindings.isEmpty

mutual

def resolve (context : Context) : Value → Value
  | .reference name => (context.get? name).getD .null
  | .composite kind fields => .composite kind (resolveAll context fields)
  | .null => .null
  | .bool b => .bool b
  | .int n => .int n
  | .float x => .float x
  | .text s => .text s
  | .component id => .component id

def resolveAll (context : Context) : List Value → List Value
  | [] => []
  | value :: rest => resolve context value :: resolveAll context rest

end

end Context

end CommandScript
