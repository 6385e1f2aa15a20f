import CommandScript.Component.Store
import CommandScript.Proofs.Table

set_option autoImplicit false

namespace CommandScript

namespace Component

@[simp] theorem put_type (component : Component) (field : String) (value : Value) : (component.put field value).type = component.type := rfl

theorem get_put (component : Component) (field query : String) (value : Value) :
    (component.put field value).get? query = if query = field then some value else component.get? query :=
  Table.find_put component.fields field query value

end Component

namespace Store

@[simp] theorem size_write (store : Store) (id : ComponentId) (field : String) (value : Value) :
    (store.write id field value).size = store.size :=
  List.length_modify _ _ _

@[simp] theorem size_create (store : Store) (component : Component) : (store.create component).size = store.size + 1 :=
  List.length_append

-- A handle that was never given out reads as a component without fields.
theorem get_beyond (store : Store) (id : ComponentId) (beyond : store.size ≤ id) : store.get id = Component.ofBuiltin .component := by
  rw [get, List.getElem?_eq_none beyond, Option.getD_none]

theorem get_write_other (store : Store) (id other : ComponentId) (field : String) (value : Value) (different : other ≠ id) :
    (store.write id field value).get other = store.get other := by
  rw [get, write, List.getElem?_modify, get]
  simp [Ne.symm different]

theorem get_write_same (store : Store) (id : ComponentId) (field : String) (value : Value) (known : id < store.size) :
    (store.write id field value).get id = (store.get id).put field value := by
  have present : store.components[id]? = some store.components[id] := List.getElem?_eq_getElem known
  rw [get, write, List.getElem?_modify, get, present]
  simp

theorem get_create_known (store : Store) (component : Component) (id : ComponentId) (known : id < store.size) :
    (store.create component).get id = store.get id := by
  rw [get, create, List.getElem?_append_left known, get]

theorem get_create_next (store : Store) (component : Component) : (store.create component).get store.next = component := by
  rw [get, create, next, size, List.getElem?_concat_length, Option.getD_some]

end Store

end CommandScript
