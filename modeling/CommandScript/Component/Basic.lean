import CommandScript.Fault
import CommandScript.Table
import CommandScript.Value.Numeric

/-!
# Components

A component is an object with named fields. The builtin kinds have fixed fields; a component of a
type that a script defined takes a field of any name.
-/

set_option autoImplicit false

namespace CommandScript

inductive Builtin where
  | component
  | text
  | image
  | spriteRenderer
deriving DecidableEq, Repr

namespace Builtin

def all : List Builtin :=
  [.component, .text, .image, .spriteRenderer]

def name : Builtin → String
  | .component => "Component"
  | .text => "Text"
  | .image => "Image"
  | .spriteRenderer => "SpriteRenderer"

def ofName? (text : String) : Option Builtin :=
  all.find? fun builtin => builtin.name == text

def white : Value :=
  Value.ofChannels ⟨1.0, 1.0, 1.0, 1.0⟩

def black : Value :=
  Value.ofChannels ⟨0.0, 0.0, 0.0, 1.0⟩

def fields : Builtin → Table Value
  | .component => []
  | .text => [("color", black), ("fontSize", .int 14), ("text", .text "")]
  | .image => [("color", white), ("fillAmount", .float 1.0), ("sprite", .null)]
  | .spriteRenderer =>
    [("color", white), ("flipX", .bool false), ("flipY", .bool false),
      ("sortingOrder", .int 0), ("sprite", .null)]

end Builtin

-- The type of a component: a builtin one, or one that a script defined.
inductive ComponentType where
  | builtin (kind : Builtin)
  | custom (name : String)
deriving DecidableEq, Repr

def ComponentType.name : ComponentType → String
  | .builtin kind => kind.name
  | .custom name => name

-- A component: its type and its fields.
structure Component where
  type : ComponentType
  fields : Table Value
deriving Repr

namespace Component

def ofBuiltin (kind : Builtin) : Component :=
  ⟨.builtin kind, kind.fields⟩

def typeName (c : Component) : String :=
  c.type.name

def get? (c : Component) (field : String) : Option Value :=
  c.fields.find? field

def put (c : Component) (field : String) (value : Value) : Component :=
  { c with fields := c.fields.put field value }

-- Whether a field of this name can be written: a builtin component has no others than it was made
-- with.
def accepts (c : Component) (field : String) : Bool :=
  match c.type with
  | .builtin _ => c.fields.has field
  | .custom _ => true

def set (c : Component) (field : String) (value : Value) : Except ArgumentError Component :=
  if c.accepts field then .ok (c.put field value) else .error (.noField c.typeName field)

end Component

end CommandScript
