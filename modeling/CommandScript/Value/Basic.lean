import CommandScript.Number.Double

/-!
# Script values

The values that commands pass, operations return and variables hold. A component value is a handle:
two values with one handle share one component, and what the component holds is kept elsewhere.
-/

set_option autoImplicit false

namespace CommandScript

inductive CompositeKind where
  | vector3
  | color
  | bounds
deriving DecidableEq, Repr

namespace CompositeKind

def all : List CompositeKind :=
  [.vector3, .color, .bounds]

def name : CompositeKind → String
  | .vector3 => "Vector3"
  | .color => "Color"
  | .bounds => "Bounds"

def ofName? (text : String) : Option CompositeKind :=
  all.find? fun kind => kind.name == text

end CompositeKind

-- The handle of a component: its place in the order of creation.
abbrev ComponentId := Nat

inductive Value where
  | null
  | bool (value : Bool)
  | int (value : Int64)
  | float (value : Number.Double)
  | text (value : String)
  | composite (kind : CompositeKind) (fields : List Value)
  | reference (name : String)
  | component (id : ComponentId)
deriving Inhabited, Repr

namespace Value

def ofFloat (x : Float) : Value :=
  .float (.ofFloat x)

mutual

-- Equality of values: floats compare as numbers, components by their handles, and an integer never
-- equals a float.
def same : Value → Value → Bool
  | .null, .null => true
  | .bool a, .bool b => a == b
  | .int a, .int b => a == b
  | .float a, .float b => a.toFloat == b.toFloat
  | .text a, .text b => a == b
  | .composite kind fields, .composite kind' fields' => kind == kind' && sameAll fields fields'
  | .reference a, .reference b => a == b
  | .component a, .component b => a == b
  | _, _ => false

def sameAll : List Value → List Value → Bool
  | [], [] => true
  | a :: as, b :: bs => same a b && sameAll as bs
  | _, _ => false

end

instance : BEq Value := ⟨same⟩

def typeName : Value → String
  | .null => "null"
  | .bool _ => "bool"
  | .int _ => "int"
  | .float _ => "float"
  | .text _ => "string"
  | .composite kind _ => kind.name
  | .reference _ => "variable reference"
  | .component _ => "component"

def isNull : Value → Bool
  | .null => true
  | _ => false

def componentId? : Value → Option ComponentId
  | .component id => some id
  | _ => none

end Value

end CommandScript
