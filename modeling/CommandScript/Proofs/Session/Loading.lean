import CommandScript.Proofs.Computed
import CommandScript.Proofs.Script.Lines
import CommandScript.Proofs.Session.Requests

set_option autoImplicit false

namespace CommandScript

theorem Field.convert_computed (type text : List Char) : (convert type text).Computed := by
  unfold convert
  split
  · exact .int _
  split
  · exact .float _
  split
  · exact .bool _
  split
  · exact .text _
  · exact .text _

theorem Script.fields_computed (name text : String) (field : FieldMarker) (declared : field ∈ (ofText name text).fields) :
    field.value.Computed := by
  obtain ⟨line, read⟩ := field_line name text field declared
  obtain ⟨_, d, _, _, converted⟩ := Line.field_declared line field.name field.value read
  rw [converted]
  exact Field.convert_computed d.type d.value

namespace Session

theorem seed_preserves (holds : Context → Prop)
    (step : ∀ context name value, holds context → value.Computed → holds (context.set name value))
    (context : Context) (script : Script) (start : holds context) (declared : ∀ field ∈ script.fields, field.value.Computed) :
    holds (seed context script) := by
  unfold seed
  generalize script.fields = fields at declared
  induction fields generalizing context with
  | nil => exact start
  | cons field rest ih =>
    obtain ⟨first, others⟩ := List.forall_mem_cons.mp declared
    exact ih (context.set field.name field.value) (step context field.name field.value start first) others

theorem seeds_preserve (holds : Context → Prop)
    (step : ∀ context name value, holds context → value.Computed → holds (context.set name value))
    (scripts : List Script) (context : Context) (start : holds context)
    (declared : ∀ script ∈ scripts, ∀ field ∈ script.fields, field.value.Computed) : holds (scripts.foldl seed context) := by
  induction scripts generalizing context with
  | nil => exact start
  | cons script rest ih =>
    obtain ⟨first, others⟩ := List.forall_mem_cons.mp declared
    exact ih (seed context script) (seed_preserves holds step context script start first) others

-- What the variables of a session can be right after loading: scripts declare numbers, truth values
-- and texts, and nothing else sets them.
theorem load_preserves (holds : Context → Prop)
    (step : ∀ context name value, holds context → value.Computed → holds (context.set name value))
    (start : holds Context.empty) (id : String) (bundle : Bundle) (session : Session) (loaded : load id bundle = .ok session) :
    holds session.context := by
  rw [load_made id bundle session loaded]
  apply seeds_preserve holds step _ _ start
  intro script listed
  obtain ⟨⟨name, text⟩, _, rfl⟩ := List.mem_map.mp listed
  exact Script.fields_computed name text

end Session

end CommandScript
