import CommandScript.Proofs.Registry.Facts
import CommandScript.Proofs.Session.Turns

set_option autoImplicit false

namespace CommandScript

theorem Builtin.fields_ascending (kind : Builtin) : kind.fields.Ascending := by
  rw [Table.ascending_iff_keys]
  cases kind <;> decide

namespace Registry

theorem Reachable.after {r : Registry} (reachable : r.Reachable) (request : Request) : (r.after request).Reachable := by
  obtain ⟨requests, rfl⟩ := reachable
  exact ⟨requests ++ [request], by rw [afterAll, afterAll, List.foldl_append, List.foldl_cons, List.foldl_nil]⟩

theorem after_grown (r : Registry) (request : Request) : Grown r (r.after request) :=
  after_all_grown r [request]

-- No interface has the name of a type, so a type is compared with itself as a type.
theorem assignable_to_itself (r : Registry) (consistent : r.Consistent) (name : String) (registered : r.hasType name = true) :
    r.isAssignableTo name name = true := by
  rw [isAssignableTo, consistent.apart name registered]
  simp [isSubclassOf]

end Registry

-- A component of a registered type; a builtin one has the fields of its kind.
structure Component.Sound (component : Component) (r : Registry) : Prop where
  registered : r.hasType component.typeName = true
  schema : ∀ kind, component.type = .builtin kind → component.fields.keys = kind.fields.keys

namespace Component

variable {component : Component} {r later : Registry}

theorem Sound.grow (sound : component.Sound r) (grown : Registry.Grown r later) : component.Sound later :=
  ⟨grown (.type component.typeName) sound.registered, sound.schema⟩

theorem Sound.put (sound : component.Sound r) (field : String) (value : Value) (accepted : component.accepts field = true) :
    (component.put field value).Sound r := by
  refine ⟨sound.registered, fun kind builtin => ?_⟩
  have own : component.type = .builtin kind := builtin
  have keys := sound.schema kind own
  have ascending : component.fields.Ascending := by
    rw [Table.ascending_iff_keys, keys, ← Table.ascending_iff_keys]
    exact kind.fields_ascending
  have present : component.fields.has field = true := by
    simpa only [accepts, own] using accepted
  exact (Table.keys_put_present component.fields field value ascending present).trans keys

end Component

theorem Registry.new_component_sound (r : Registry) (type : String) (component : Component)
    (made : r.newComponent type = .ok component) : component.Sound r := by
  unfold newComponent at made
  cases found : r.types.find? type with
  | none => simp [found] at made
  | some info =>
    have registered : r.hasType type = true := has_type_of_find r type info found
    simp only [found] at made
    split at made
    · rename_i kind chosen
      obtain rfl := Except.ok.inj made
      have named : kind.name = type := by
        split at chosen
        · simpa using List.find?_some chosen
        · cases chosen
      refine ⟨by rw [← named] at registered; exact registered, fun other same => ?_⟩
      rw [Component.ofBuiltin] at same
      obtain rfl := ComponentType.builtin.inj same
      rfl
    · obtain rfl := Except.ok.inj made
      exact ⟨registered, fun other never => by cases never⟩

-- What a world keeps of one that it came from: components with their types and their fields, and all
-- that was registered.
structure World.Extends (world later : World) : Prop where
  size : world.store.size ≤ later.store.size
  type : ∀ id, id < world.store.size → (later.store.get id).type = (world.store.get id).type
  fields : ∀ id field, id < world.store.size → (world.store.get id).fields.has field = true →
    (later.store.get id).fields.has field = true
  grown : Registry.Grown world.registry later.registry

namespace World

theorem extends_refl (world : World) : world.Extends world :=
  ⟨Nat.le_refl _, fun _ _ => rfl, fun _ _ _ present => present, fun _ known => known⟩

theorem Extends.trans {first second third : World} (lower : first.Extends second) (upper : second.Extends third) :
    first.Extends third where
  size := Nat.le_trans lower.size upper.size
  type id known := (upper.type id (Nat.lt_of_lt_of_le known lower.size)).trans (lower.type id known)
  fields id field known present := upper.fields id field (Nat.lt_of_lt_of_le known lower.size) (lower.fields id field known present)
  grown fact knows := upper.grown fact (lower.grown fact knows)

theorem apply_extends (world : World) (change : Change) : world.Extends (world.apply change) := by
  cases change with
  | nothing | print => exact ⟨Nat.le_refl _, fun _ _ => rfl, fun _ _ _ present => present, fun _ known => known⟩
  | register request => exact ⟨Nat.le_refl _, fun _ _ => rfl, fun _ _ _ present => present, world.registry.after_grown request⟩
  | create component =>
    refine ⟨by simp [apply], fun id known => ?_, fun id field known present => ?_, fun _ known => known⟩
    · rw [apply, Store.get_create_known world.store component id known]
    · rw [apply, Store.get_create_known world.store component id known]
      exact present
  | write target field value =>
    refine ⟨by simp [apply], fun id known => ?_, fun id query known present => ?_, fun _ known => known⟩
    · by_cases same : id = target
      · subst same
        rw [apply, Store.get_write_same world.store id field value known, Component.put_type]
      · rw [apply, Store.get_write_other world.store target id field value same]
    · by_cases same : id = target
      · subst same
        rw [apply, Store.get_write_same world.store id field value known, Component.put, Table.has_put, present, Bool.or_true]
      · rw [apply, Store.get_write_other world.store target id field value same]
        exact present

-- The components from a handle on are sound.
def SoundFrom (first : ComponentId) (world : World) : Prop :=
  ∀ id, first ≤ id → id < world.store.size → (world.store.get id).Sound world.registry

variable {world : World} {first : ComponentId}

theorem SoundFrom.create (sound : world.SoundFrom first) (component : Component) (own : component.Sound world.registry) :
    (world.apply (.create component)).SoundFrom first := by
  intro id new known
  rw [apply, Store.size_create] at known
  by_cases old : id < world.store.size
  · rw [apply, Store.get_create_known world.store component id old]
    exact sound id new old
  · obtain rfl : id = world.store.next := Nat.le_antisymm (Nat.le_of_lt_succ known) (Nat.le_of_not_lt old)
    rw [apply, Store.get_create_next]
    exact own

theorem SoundFrom.write (sound : world.SoundFrom first) (target : ComponentId) (field : String) (value : Value)
    (accepted : (world.store.get target).accepts field = true) : (world.apply (.write target field value)).SoundFrom first := by
  intro id new known
  rw [apply, Store.size_write] at known
  by_cases same : id = target
  · subst same
    rw [apply, Store.get_write_same world.store id field value known]
    exact (sound id new known).put field value accepted
  · rw [apply, Store.get_write_other world.store target id field value same]
    exact sound id new known

theorem SoundFrom.register (sound : world.SoundFrom first) (request : Registry.Request) :
    (world.apply (.register request)).SoundFrom first :=
  fun id new known => (sound id new known).grow (world.registry.after_grown request)

end World

theorem StandardOperation.makes_sound (operation : StandardOperation) (arguments : List Value) (world : World) (change : Change)
    (value : Value) (makes : Makes arguments world operation change value) (first : ComponentId) (sound : world.SoundFrom first) :
    (world.apply change).SoundFrom first := by
  cases makes with
  | definedType | definedProperty | declared | definedInterface => exact sound.register _
  | created type component made => exact sound.create component (world.registry.new_component_sound type component made)
  | assigned id property content target given accepted => exact sound.write id property content accepted
  | styled _ setter id field content target accepted => exact sound.write id field content accepted
  | printed | fetched | answered => exact sound

namespace World

theorem after_extends (world : World) (turn : Turn) : world.Extends (world.after turn) := by
  rcases after_cases world turn with same | ⟨operation, arguments, change, value, makes, made⟩
  · rw [same]
    exact world.extends_refl
  · rw [made]
    exact world.apply_extends change

theorem after_all_extends (world : World) (turns : List Turn) : world.Extends (world.afterAll turns) := by
  induction turns generalizing world with
  | nil => exact world.extends_refl
  | cons turn rest ih =>
    rw [after_all_cons]
    exact (world.after_extends turn).trans (ih (world.after turn))

-- What the components that were made in a run rely on.
structure Sound (first : ComponentId) (world : World) : Prop where
  registry : world.registry.Reachable
  components : world.SoundFrom first

theorem Sound.after {world : World} {first : ComponentId} (sound : world.Sound first) (turn : Turn) : (world.after turn).Sound first := by
  rcases after_cases world turn with same | ⟨operation, arguments, change, value, makes, made⟩
  · rw [same]
    exact sound
  · rw [made]
    refine ⟨?_, operation.makes_sound arguments world change value makes first sound.components⟩
    cases change with
    | register request => exact sound.registry.after request
    | nothing | create | write | print => exact sound.registry

theorem Sound.after_all {world : World} {first : ComponentId} (sound : world.Sound first) (turns : List Turn) :
    (world.afterAll turns).Sound first := by
  induction turns generalizing world with
  | nil => exact sound
  | cons turn rest ih =>
    rw [after_all_cons]
    exact ih (sound.after turn)

end World

namespace StandardOperation

-- The kind of component and the field that a getter reads.
def getter? : StandardOperation → Option (Builtin × String)
  | .text .getText => some (.text, "text")
  | .text .getFontSize => some (.text, "fontSize")
  | .text .getColor => some (.text, "color")
  | .image .getColor => some (.image, "color")
  | .image .getFillAmount => some (.image, "fillAmount")
  | _ => none

theorem getter_reads (operation : StandardOperation) (kind : Builtin) (field : String)
    (gets : operation.getter? = some (kind, field)) :
    field ∈ kind.fields.keys ∧ ∀ arguments, ∃ name, operation.run arguments = readField ⟨name, arguments⟩ kind field := by
  cases operation with
  | text operation =>
    cases operation with
    | getText | getFontSize | getColor =>
      obtain ⟨rfl, rfl⟩ := Prod.mk.inj (Option.some.inj gets)
      exact ⟨by decide, fun arguments => ⟨_, rfl⟩⟩
    | setText | setFontSize | setColor => cases gets
  | image operation =>
    cases operation with
    | getColor | getFillAmount =>
      obtain ⟨rfl, rfl⟩ := Prod.mk.inj (Option.some.inj gets)
      exact ⟨by decide, fun arguments => ⟨_, rfl⟩⟩
    | setColor | setFillAmount => cases gets
  | type | interface | console | debug | vector | math | color => cases gets

end StandardOperation

theorem read_field_run (operation : String) (id : ComponentId) (rest : List Value) (kind : Builtin) (field : String)
    (world : World) (fits : (world.store.get id).type = .builtin kind) :
    (readField ⟨operation, .component id :: rest⟩ kind field).run world =
      (.ok (((world.store.get id).get? field).getD .null), world) := by
  have enough : Call.need ⟨operation, .component id :: rest⟩ 1 = .ok () := by
    simp [Call.need]
  have checked : (builtinArgument ⟨operation, .component id :: rest⟩ kind).run world = (.ok id, world) := by
    change ((if (world.store.get id).type = .builtin kind then pure id else _ : Action ComponentId).run world) = _
    rw [if_pos fits]
    rfl
  unfold readField
  rw [enough]
  change ((builtinArgument ⟨operation, .component id :: rest⟩ kind >>= fun id => do
    return (((← get).store.get id).get? field).getD .null : Action Value).run world) = _
  rw [run_bind, checked]
  rfl

theorem get_type_name_run (operation : String) (id : ComponentId) (rest : List Value) (world : World) :
    (TypeOperation.runGetTypeName ⟨operation, .component id :: rest⟩).run world =
      (.ok (.text (world.store.get id).typeName), world) := rfl

theorem is_run (operation target : String) (id : ComponentId) (rest : List Value) (world : World) :
    (TypeOperation.runIs ⟨operation, .component id :: .text target :: rest⟩).run world =
      (.ok (.bool (world.registry.isAssignableTo (world.store.get id).typeName target)), world) := by
  have enough : Call.need ⟨operation, .component id :: .text target :: rest⟩ 2 = .ok () := by
    simp [Call.need]
  unfold TypeOperation.runIs
  rw [enough]
  rfl

-- What a component warrants from the time on at which it is met.
structure Lasting (world later : World) (id : ComponentId) : Prop where
  kept : (later.store.get id).type = (world.store.get id).type
  registered : later.registry.hasType (world.store.get id).typeName = true
  named : ∀ turn rest, turn.Asks (.type .getTypeName) (.component id :: rest) →
    later.answer turn = .ok (.text (world.store.get id).typeName)
  passes : ∀ turn rest, turn.Asks (.type .is) (.component id :: .text (world.store.get id).typeName :: rest) →
    later.answer turn = .ok (.bool true)
  schema : ∀ kind, (world.store.get id).type = .builtin kind → (later.store.get id).fields.keys = kind.fields.keys
  getters : ∀ turn rest operation kind field, operation.getter? = some (kind, field) → turn.Asks operation (.component id :: rest) →
    (later.store.get id).type = .builtin kind →
      ∃ value, (later.store.get id).get? field = some value ∧ later.answer turn = .ok value
  properties : ∀ field, (world.store.get id).fields.has field = true → (later.store.get id).fields.has field = true

theorem Component.Sound.finds {component : Component} {r : Registry} (sound : component.Sound r) (kind : Builtin) (field : String)
    (fits : component.type = .builtin kind) (listed : field ∈ kind.fields.keys) : ∃ value, component.get? field = some value := by
  rw [← sound.schema kind fits, Table.keys, List.mem_map] at listed
  obtain ⟨⟨_, value⟩, present, rfl⟩ := listed
  have ascending : component.fields.Ascending := by
    rw [Table.ascending_iff_keys, sound.schema kind fits, ← Table.ascending_iff_keys]
    exact kind.fields_ascending
  exact ⟨value, Table.find_of_mem component.fields _ value ascending present⟩

theorem made_lasting (start : World) (reachable : start.registry.Reachable) (turns later : List Turn) (id : ComponentId)
    (new : start.store.size ≤ id) (made : id < (start.afterAll turns).store.size) :
    Lasting (start.afterAll turns) ((start.afterAll turns).afterAll later) id := by
  have begins : start.Sound start.store.size :=
    ⟨reachable, fun id new known => absurd known (Nat.not_lt.mpr new)⟩
  have now := begins.after_all turns
  generalize start.afterAll turns = world at made now ⊢
  have ends := now.after_all later
  have grows := world.after_all_extends later
  generalize world.afterAll later = final at ends grows ⊢
  have kept := grows.type id made
  have sound := ends.components id new (Nat.lt_of_lt_of_le made grows.size)
  have name : (final.store.get id).typeName = (world.store.get id).typeName := congrArg ComponentType.name kept
  have registered := sound.registered
  rw [name] at registered
  refine ⟨kept, registered, fun turn rest asks => ?_, fun turn rest asks => ?_, fun kind builtin => ?_,
    fun turn rest operation kind field gets asks fits => ?_, fun field => grows.fields id field made⟩
  · rw [← name]
    exact final.answer_of_run final turn _ _ _ asks (get_type_name_run _ id rest final)
  · have own := final.registry.assignable_to_itself (Registry.reachable_consistent _ ends.registry) _ registered
    have run := is_run "Type.Is" (world.store.get id).typeName id rest final
    rw [name, own] at run
    exact final.answer_of_run final turn _ _ _ asks run
  · exact sound.schema kind (kept.trans builtin)
  · obtain ⟨listed, reads⟩ := operation.getter_reads kind field gets
    obtain ⟨value, present⟩ := sound.finds kind field fits listed
    obtain ⟨label, run⟩ := reads (.component id :: rest)
    have ended := read_field_run label id rest kind field final fits
    rw [present, Option.getD_some] at ended
    exact ⟨value, present, final.answer_of_run final turn operation _ value asks (run ▸ ended)⟩

-- A component stays what it was made as, whether commands are run one by one or by sessions: its type
-- is fixed and registered, a builtin one has the fields of its kind and no others, and no property is
-- ever lost.
theorem components_stay_what_they_are (start : World) (reachable : start.registry.Reachable) :
    (∀ (turns later : List Turn) (id : ComponentId), start.store.size ≤ id → id < (start.afterAll turns).store.size →
      Lasting (start.afterAll turns) ((start.afterAll turns).afterAll later) id) ∧
    ∀ (requests later : List Manager.Request) (id : ComponentId), start.store.size ≤ id →
      id < ((Manager.fresh start).afterAll requests).world.store.size →
      Lasting ((Manager.fresh start).afterAll requests).world (((Manager.fresh start).afterAll requests).afterAll later).world id := by
  refine ⟨made_lasting start reachable, fun requests later id new made => ?_⟩
  have orderly : ((Manager.fresh start).afterAll requests).Orderly := (Manager.fresh_orderly start).after_all Catalog.tree requests
  obtain ⟨turns, before⟩ : ∃ turns, ((Manager.fresh start).afterAll requests).world = start.afterAll turns :=
    (Manager.fresh_orderly start).after_all_takes_turns requests
  obtain ⟨more, after⟩ : ∃ more, (((Manager.fresh start).afterAll requests).afterAll later).world =
      ((Manager.fresh start).afterAll requests).world.afterAll more := orderly.after_all_takes_turns later
  rw [before] at made after
  rw [before, after]
  exact made_lasting start reachable turns more id new made

def tagging : List Turn :=
  [⟨Context.empty, none, "SFScript.Type.Define('Tag', null)"⟩, ⟨Context.empty, none, "SFScript.Type.DefineProperty('Tag', 'name', 'a')"⟩,
    ⟨Context.empty, none, "SFScript.Type.Create('Tag')"⟩, ⟨Context.empty, some "label", "SFScript.Type.Create('Text')"⟩]

def relabelling : List Turn :=
  [⟨⟨[("label", .component 1)]⟩, none, "Engine.UI.Text.SetText($label, 'b')"⟩,
    ⟨⟨[("tag", .component 0)]⟩, none, "SFScript.Type.SetProperty($tag, 'owner', 'c')"⟩]

theorem tag_and_label_stay :
    Lasting (World.initial.afterAll tagging) ((World.initial.afterAll tagging).afterAll relabelling) 0 ∧
      Lasting (World.initial.afterAll tagging) ((World.initial.afterAll tagging).afterAll relabelling) 1 := by
  have made : (World.initial.afterAll tagging).store.size = 2 := by decide +kernel
  have stays := (components_stay_what_they_are World.initial ⟨[], rfl⟩).1 tagging relabelling
  exact ⟨stays 0 (Nat.zero_le _) (by rw [made]; decide), stays 1 (Nat.zero_le _) (by rw [made]; decide)⟩

end CommandScript
