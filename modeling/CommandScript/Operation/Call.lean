import CommandScript.Operation.Basic
import CommandScript.Value.Numeric

/-!
# Reading the arguments of an operation

A call is the name under which an operation reports faults, together with the arguments. Reading an
argument gives what the operation asked for or the fault that says what was found instead.
-/

set_option autoImplicit false

namespace CommandScript

structure Call where
  operation : String
  arguments : List Value

namespace Call

def refuse {α : Type} (error : ArgumentError) : Except Stop α :=
  .error (.fault (.argument error))

-- Stops unless there are at least so many arguments.
def need (call : Call) (count : Nat) : Except Stop Unit :=
  if call.arguments.length < count then
    refuse (.tooFew call.operation count call.arguments.length)
  else .ok ()

def argument (call : Call) (position : Nat) : Except Stop Value :=
  match call.arguments[position]? with
  | some value => .ok value
  | none => refuse (.missing call.operation position)

def expect {α : Type} (call : Call) (position : Nat) (expected : Expected)
    (read : Value → Option α) : Except Stop α := do
  let value ← call.argument position
  match read value with
  | some result => .ok result
  | none => refuse (.mismatch call.operation position expected value.typeName)

def textOf? : Value → Option String
  | .text s => some s
  | _ => none

def text (call : Call) (position : Nat) : Except Stop String :=
  call.expect position .text textOf?

def value (call : Call) (position : Nat) : Value :=
  (call.arguments[position]?).getD .null

def textOrNull (call : Call) (position : Nat) : Except Stop (Option String) :=
  if (call.value position).isNull then .ok none else some <$> call.text position

def textsFrom (call : Call) (start : Nat) : Except Stop (List String) :=
  (List.range' start (call.arguments.length - start)).mapM call.text

-- A number; an argument that is missing or `null` counts as zero.
def number (call : Call) (position : Nat) : Except Stop Number.Double :=
  match call.arguments[position]? with
  | none => .ok 0.0
  | some .null => .ok 0.0
  | some value =>
    match value.number? with
    | some x => .ok x
    | none => refuse (.mismatch call.operation position .number value.typeName)

def float (call : Call) (position : Nat) : Except Stop Float := do
  return (← call.number position).toFloat

def vector (call : Call) (position : Nat) : Except Stop Value.Vector :=
  call.expect position .vector Value.vector?

def channels (call : Call) (position : Nat) : Except Stop Value.Channels :=
  call.expect position .color Value.channels?

def component (call : Call) (position : Nat) : Except Stop ComponentId :=
  call.expect position .component Value.componentId?

end Call

end CommandScript
