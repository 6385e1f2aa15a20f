import CommandScript.Component.Basic
import CommandScript.Value.Text

/-!
# The components of a run

Components have identity: a value holds the handle of a component, and whoever holds the handle sees
what was last written. The store keeps every component that was created, in the order of creation;
the handle is the place in that order.

The text of a component lists its fields. A component that is met again while its own text is being
written is shown as a mark, so the text of a ring of components is finite.
-/

set_option autoImplicit false

namespace CommandScript

structure Store where
  components : List Component
deriving Repr

namespace Store

def empty : Store :=
  ⟨[]⟩

def size (store : Store) : Nat :=
  store.components.length

-- The component with a handle; a plain component if none was created under it.
def get (store : Store) (id : ComponentId) : Component :=
  (store.components[id]?).getD (Component.ofBuiltin .component)

def next (store : Store) : ComponentId :=
  store.size

def create (store : Store) (component : Component) : Store :=
  ⟨store.components ++ [component]⟩

def write (store : Store) (id : ComponentId) (field : String) (value : Value) : Store :=
  ⟨store.components.modify id fun component => component.put field value⟩

def cycleMark : String :=
  "<cycle>"

def componentText (inner : ComponentId → String) (component : Component) : String :=
  match component.fields with
  | [] => component.typeName
  | fields =>
    component.typeName ++ " \x7b" ++
      ",".intercalate (fields.map fun (name, value) => " " ++ name ++ ": " ++ value.textWith inner) ++
      " \x7d"

-- The text of a component inside the texts of others. Each level opens one more component, so no
-- text needs more levels than there are components, and one for the last.
def textWithin (store : Store) : (levels : Nat) → (opened : List ComponentId) → ComponentId → String
  | 0, _, _ => cycleMark
  | levels + 1, opened, id =>
    if id ∈ opened then cycleMark
    else componentText (store.textWithin levels (id :: opened)) (store.get id)

-- The text of a value: what it shows to a reader.
def text (store : Store) (value : Value) : String :=
  value.textWith (store.textWithin (store.size + 1) [])

end Store

end CommandScript
