import CommandScript.Proofs.Registry.Facts

set_option autoImplicit false

namespace CommandScript.Registry

-- The default that a request gives to a property of a type.
def Request.defaultFor (type property : String) : Request → Option Value
  | .defineProperty owner name value => if owner = type ∧ name = property then some value else none
  | .defineInterface _ _ | .defineType _ _ _ | .addInterface _ _ => none

-- Of the defaults that requests give to a property of a type, the last.
def lastDefault (requests : List Request) (type property : String) : Option Value :=
  requests.reverse.findSome? (Request.defaultFor type property)

def default? (r : Registry) (type property : String) : Option Value :=
  (r.types.find? type).bind fun info => info.defaults.find? property

theorem last_default_cons (request : Request) (rest : List Request) (type property : String) :
    lastDefault (request :: rest) type property = (lastDefault rest type property).or (request.defaultFor type property) := by
  rw [lastDefault, List.reverse_cons, List.findSome?_append, List.findSome?_singleton, lastDefault]

theorem last_default_given (requests : List Request) (type property : String) :
    (lastDefault requests type property).isSome = true ↔ ∃ value, .defineProperty type property value ∈ requests := by
  have given (request : Request) (value : Value) :
      request.defaultFor type property = some value ↔ request = .defineProperty type property value := by
    cases request <;> simp [Request.defaultFor, and_assoc]
  rw [lastDefault, List.findSome?_isSome_iff]
  simp only [List.mem_reverse, Option.isSome_iff_exists, given]
  exact ⟨fun ⟨_, listed, value, same⟩ => ⟨value, same ▸ listed⟩, fun ⟨value, listed⟩ => ⟨_, listed, value, rfl⟩⟩

theorem default_with_type (r : Registry) (key type property : String) (info : TypeInfo) :
    (r.withType key info).default? type property =
      if type = key then info.defaults.find? property else r.default? type property := by
  rw [default?, withType, Table.find_put]
  by_cases same : type = key
  · rw [if_pos same, if_pos same, Option.bind_some]
  · rw [if_neg same, if_neg same, default?]

theorem default_found (r : Registry) (type property : String) (info : TypeInfo) (found : r.types.find? type = some info) :
    r.default? type property = info.defaults.find? property := by
  rw [default?, found, Option.bind_some]

theorem accepted_default (r : Registry) (request : Request) (next : Registry) (accepted : Accepted r request next)
    (type property : String) :
    next.default? type property = (request.defaultFor type property).or (r.default? type property) := by
  cases accepted with
  | interface | declaredBefore => exact Option.none_or.symm
  | type name parent interfaces fresh parentKnown known =>
    rw [default_with_type, Request.defaultFor, Option.none_or]
    split
    · rename_i new
      rw [new, default?, Table.find_none_of_not_has r.types name fresh.noType]
      rfl
    · rfl
  | property owner name value info named found custom =>
    rw [default_with_type, Request.defaultFor]
    by_cases here : type = owner
    · subst here
      rw [if_pos rfl, Table.find_put, default_found r type property info found]
      by_cases same : property = name
      · rw [if_pos same, if_pos ⟨rfl, same.symm⟩, Option.some_or]
      · rw [if_neg same, if_neg fun both => same both.2.symm, Option.none_or]
    · rw [if_neg here, if_neg fun both => here both.1.symm, Option.none_or]
  | declared owner interface info known found absent =>
    rw [default_with_type, Request.defaultFor, Option.none_or]
    split
    · rename_i same
      rw [same, default_found r owner property info found]
    · rfl

-- A later default takes the place of an earlier one, and nothing else touches it.
theorem after_all_default (requests : List Request) (r : Registry) (type property : String) :
    (r.afterAll requests).default? type property =
      (lastDefault (r.granted requests) type property).or (r.default? type property) := by
  induction requests generalizing r with
  | nil => exact Option.none_or.symm
  | cons request rest ih =>
    change ((r.after request).afterAll rest).default? type property = _
    rw [ih, granted]
    cases passed : r.grants request with
    | true =>
      rw [accepted_default r request _ (after_grants r request passed), if_pos rfl, last_default_cons, Option.or_assoc]
    | false => rw [after_refuses r request passed, if_neg Bool.false_ne_true]

theorem initial_default (type property : String) (custom : ∀ kind : Builtin, type ≠ kind.name) :
    initial.default? type property = none := by
  rw [default?, Option.bind_eq_none_iff]
  intro info found
  obtain ⟨kind, same, _⟩ := (initial_find type info).mp found
  exact absurd same (custom kind)

theorem of_name_name (kind : Builtin) : Builtin.ofName? kind.name = some kind := by
  cases kind <;> decide

-- The record of a builtin type says the same of its fields as the factory.
theorem builtin_defaults (r : Registry) (consistent : r.Consistent) (kind : Builtin) (info : TypeInfo)
    (found : r.types.find? kind.name = some info) : info.defaults = kind.fields := by
  obtain ⟨stored, storedFound, _, fields⟩ := consistent.builtins kind
  obtain rfl := Option.some.inj (storedFound.symm.trans found)
  exact fields

theorem new_component_found (r : Registry) (consistent : r.Consistent) (type : String) (info : TypeInfo)
    (found : r.types.find? type = some info) :
    ∃ component, r.newComponent type = .ok component ∧ component.typeName = type ∧ component.fields = info.defaults := by
  obtain ⟨rank, ranked⟩ := consistent.ranked
  cases builtin : info.builtin with
  | false => exact ⟨⟨.custom type, info.defaults⟩, by simp [newComponent, found, builtin], rfl, rfl⟩
  | true =>
    obtain ⟨kind, rfl⟩ := (ranked.1 type info found).builtin.mp builtin
    have made : r.newComponent kind.name = .ok (Component.ofBuiltin kind) := by
      simp [newComponent, found, builtin, of_name_name]
    exact ⟨Component.ofBuiltin kind, made, rfl, (builtin_defaults r consistent kind info found).symm⟩

theorem new_component_error_iff (r : Registry) (type : String) (error : ArgumentError) :
    r.newComponent type = .error error ↔ r.hasType type = false ∧ error = .unknownType type := by
  rw [newComponent, hasType, Table.has]
  cases found : r.types.find? type with
  | none => simp [eq_comm]
  | some info =>
    dsimp only
    split <;> simp

-- The defaults of a type that scripts defined come from the run alone, whatever types are above it.
theorem custom_default (requests : List Request) (type property : String) (info : TypeInfo)
    (found : (initial.afterAll requests).types.find? type = some info) (custom : info.builtin = false) :
    info.defaults.find? property = lastDefault (initial.granted requests) type property := by
  obtain ⟨rank, ranked⟩ := (reachable_consistent _ ⟨requests, rfl⟩).ranked
  have named : ∀ kind : Builtin, type ≠ kind.name := fun kind same => by
    simp [(ranked.1 type info found).builtin.mpr ⟨kind, same⟩] at custom
  rw [← default_found _ type property info found, after_all_default, initial_default type property named, Option.or_none]

theorem components_start_from_own_defaults (requests : List Request) (type : String) :
    (∀ error, (initial.afterAll requests).newComponent type = .error error ↔
      (initial.afterAll requests).hasType type = false ∧ error = .unknownType type) ∧
    ∀ info, (initial.afterAll requests).types.find? type = some info →
      ∃ component, (initial.afterAll requests).newComponent type = .ok component ∧ component.typeName = type ∧
        component.fields = info.defaults ∧
        (info.builtin = false → ∀ property,
          (component.fields.has property = true ↔ ∃ value, .defineProperty type property value ∈ initial.granted requests) ∧
          component.get? property = lastDefault (initial.granted requests) type property) := by
  refine ⟨new_component_error_iff _ type, fun info found => ?_⟩
  have consistent := reachable_consistent (initial.afterAll requests) ⟨requests, rfl⟩
  obtain ⟨component, made, name, fields⟩ := new_component_found _ consistent type info found
  refine ⟨component, made, name, fields, fun custom property => ?_⟩
  have stored := custom_default requests type property info found custom
  rw [Table.has, Component.get?, fields, stored]
  exact ⟨last_default_given _ type property, rfl⟩

-- The type above has a default that the one below does not take over, and three requests are refused.
def heirs : List Request :=
  [.defineProperty "Boss" "phase" (.int 0), .defineType "Enemy" (some "Component") [], .defineType "Boss" (some "Enemy") [],
    .defineProperty "Enemy" "health" (.int 100), .defineProperty "Boss" "phase" (.int 1), .defineProperty "Boss" "" .null,
    .defineProperty "Boss" "phase" (.int 2), .defineProperty "Text" "phase" (.int 3)]

theorem boss_starts_in_last_phase :
    ∃ component, (initial.afterAll heirs).newComponent "Boss" = .ok component ∧
      component.get? "phase" = some (.int 2) ∧ component.get? "health" = none := by
  obtain ⟨_, known⟩ := components_start_from_own_defaults heirs "Boss"
  obtain ⟨info, found, custom⟩ : ∃ info, (initial.afterAll heirs).types.find? "Boss" = some info ∧ info.builtin = false :=
    ⟨_, rfl, rfl⟩
  obtain ⟨component, made, _, _, own⟩ := known info found
  refine ⟨component, made, ?_, ?_⟩
  · rw [(own custom "phase").2]
    rfl
  · rw [(own custom "health").2]
    rfl

end CommandScript.Registry
