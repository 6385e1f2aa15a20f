import CommandScript.Context
import CommandScript.Proofs.Command.NormalForm
import CommandScript.Proofs.Table
import CommandScript.Proofs.Work

set_option autoImplicit false

namespace CommandScript

namespace Value

-- A value that is no component; a composite may hold some.
def Plain (value : Value) : Prop :=
  value.componentId? = none

theorem component_not_plain (id : ComponentId) : ¬ Plain (.component id) :=
  nofun

end Value

namespace Context

theorem get_set (context : Context) (name query : String) (value : Value) :
    (context.set name value).get? query = if query = name then some value else context.get? query :=
  Table.find_put context.bindings name query value

-- No variable holds a component.
def Plain (context : Context) : Prop :=
  ∀ name value, context.get? name = some value → value.Plain

theorem empty_plain : Plain empty :=
  fun _ _ found => nomatch found

theorem set_plain (context : Context) (name : String) (value : Value) (plain : context.Plain) (fresh : value.Plain) :
    (context.set name value).Plain := by
  intro query found stored
  rw [get_set] at stored
  split at stored
  · exact Option.some.inj stored ▸ fresh
  · exact plain query found stored

theorem resolve_plain (context : Context) (value : Value) (plain : context.Plain) (own : value.Plain) :
    (context.resolve value).Plain := by
  cases value with
  | reference name =>
    rw [resolve]
    cases found : context.get? name with
    | none => rfl
    | some stored => exact plain name stored found
  | component id => exact absurd own (Value.component_not_plain id)
  | null | bool | int | float | text | composite =>
    rw [resolve]
    rfl

theorem resolve_all_plain (context : Context) (values : List Value) (plain : context.Plain)
    (own : ∀ value ∈ values, value.Plain) : ∀ value ∈ context.resolveAll values, value.Plain := by
  induction values with
  | nil => simp [resolveAll]
  | cons value rest ih =>
    obtain ⟨first, others⟩ := List.forall_mem_cons.mp own
    rw [resolveAll]
    exact List.forall_mem_cons.mpr ⟨resolve_plain context value plain first, ih others⟩

end Context

-- A value as written names no component: components come from variables only.
theorem NormalValue.plain (value : Value) (normal : NormalValue value) : value.Plain := by
  cases normal with
  | null | bool | int | text | color | bounds => rfl
  | number _ number => cases number <;> rfl
  | corner _ corner => cases corner <;> rfl

theorem Command.parse_plain (text : String) :
    Yields (parse text) fun command => ∀ value ∈ command.arguments, value.Plain := by
  intro command parsed value member
  have reads : Reads (parse text) Normal := parse_chars_reads text.toList
  rw [parsed] at reads
  exact NormalValue.plain value (reads.arguments value member)

end CommandScript
