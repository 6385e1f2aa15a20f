import CommandScript.Proofs.Closed
import CommandScript.Proofs.Command.NormalForm
import CommandScript.Proofs.Component.Display
import CommandScript.Proofs.Component.History
import Mathlib.Data.List.Induction

set_option autoImplicit false

namespace CommandScript

namespace Value

-- A value that names no component but those that were made.
def Within (made : Nat) (value : Value) : Prop :=
  ∀ id, value.Names id → id < made

mutual

def mentions (id : ComponentId) : Value → Bool
  | .component other => other == id
  | .composite _ fields => mentionsAny id fields
  | .null | .bool _ | .int _ | .float _ | .text _ | .reference _ => false

def mentionsAny (id : ComponentId) : List Value → Bool
  | [] => false
  | value :: rest => mentions id value || mentionsAny id rest

end

mutual

theorem mentions_iff (id : ComponentId) (value : Value) : mentions id value = true ↔ value.Names id := by
  cases value with
  | component other =>
    rw [mentions, beq_iff_eq]
    constructor
    · rintro rfl
      exact .component other
    · rintro ⟨⟩
      rfl
  | composite kind fields =>
    rw [mentions, mentions_any_iff id fields]
    constructor
    · rintro ⟨field, listed, inner⟩
      exact .field kind fields field id listed inner
    · intro names
      cases names with
      | field _ _ field _ listed inner => exact ⟨field, listed, inner⟩
  | null | bool | int | float | text | reference => exact ⟨by simp [mentions], by rintro ⟨⟩⟩

theorem mentions_any_iff (id : ComponentId) (values : List Value) :
    mentionsAny id values = true ↔ ∃ value ∈ values, value.Names id := by
  cases values with
  | nil => simp [mentionsAny]
  | cons value rest => rw [mentionsAny, Bool.or_eq_true, mentions_iff id value, mentions_any_iff id rest, List.exists_mem_cons_iff]

end

instance (value : Value) (id : ComponentId) : Decidable (value.Names id) :=
  decidable_of_iff _ (mentions_iff id value)

theorem Within.mono {made more : Nat} {value : Value} (within : value.Within made) (grown : made ≤ more) : value.Within more :=
  fun id names => Nat.lt_of_lt_of_le (within id names) grown

theorem Computed.names_nothing {value : Value} (computed : value.Computed) (id : ComponentId) : ¬ value.Names id := by
  intro names
  cases computed with
  | null | bool | int | float | text => cases names
  | numbers kind numbers =>
    cases names with
    | field _ _ field _ listed inner =>
      obtain ⟨x, _, rfl⟩ := List.mem_map.mp listed
      cases inner

theorem Computed.within {value : Value} (computed : value.Computed) (made : Nat) : value.Within made :=
  fun id names => absurd names (computed.names_nothing id)

end Value

theorem NormalNumber.names_nothing {value : Value} (normal : NormalNumber value) (id : ComponentId) : ¬ value.Names id := by
  cases normal <;> rintro ⟨⟩

theorem fields_name_nothing (kind : CompositeKind) (fields : List Value) (id : ComponentId)
    (each : ∀ field ∈ fields, ¬ field.Names id) : ¬ (Value.composite kind fields).Names id := by
  intro names
  cases names with
  | field _ _ field _ listed inner => exact each field listed inner

theorem NormalCorner.names_nothing {value : Value} (normal : NormalCorner value) (id : ComponentId) : ¬ value.Names id := by
  cases normal with
  | vector fields _ numbers => exact fields_name_nothing _ fields id fun field listed => (numbers field listed).names_nothing id
  | reference => rintro ⟨⟩

-- A command as it is written names no component, at any depth of its arguments.
theorem NormalValue.names_nothing {value : Value} (normal : NormalValue value) (id : ComponentId) : ¬ value.Names id := by
  cases normal with
  | null | bool | int | text => rintro ⟨⟩
  | number _ number => exact number.names_nothing id
  | corner _ corner => exact corner.names_nothing id
  | color fields _ numbers => exact fields_name_nothing _ fields id fun field listed => (numbers field listed).names_nothing id
  | bounds fields _ corners => exact fields_name_nothing _ fields id fun field listed => (corners field listed).names_nothing id

-- What is named after the variables are replaced was named before, or by a variable.
theorem Context.resolved_names (context : Context) (made : Nat) (every : context.bindings.Every (Value.Within made)) (resolved : Value)
    (id : ComponentId) (names : resolved.Names id) (value : Value) (same : context.resolve value = resolved) :
    value.Names id ∨ id < made := by
  induction names generalizing value with
  | component id =>
    cases value with
    | reference name =>
      rw [resolve] at same
      have within := every.find (Value.Computed.null.within made) name
      exact .inr (within id (show ((context.get? name).getD .null).Names id from same ▸ .component id))
    | component other =>
      rw [resolve] at same
      exact .inl (same ▸ .component id)
    | null | bool | int | float | text | composite => simp [resolve] at same
  | field kind fields field id listed inner ih =>
    cases value with
    | reference name =>
      rw [resolve] at same
      have within := every.find (Value.Computed.null.within made) name
      exact .inr (within id (show ((context.get? name).getD .null).Names id from same ▸ .field kind fields field id listed inner))
    | composite own values =>
      rw [resolve, Value.composite.injEq] at same
      obtain ⟨rfl, rfl⟩ := same
      rw [resolve_all_map] at listed
      obtain ⟨written, member, rfl⟩ := List.mem_map.mp listed
      exact (ih written rfl).imp_left (.field own values written id member)
    | null | bool | int | float | text | component => simp [resolve] at same

namespace Component

theorem contents_put (component : Component) (field : String) (value content : Value)
    (listed : content ∈ (component.put field value).contents) : content = value ∨ content ∈ component.contents := by
  obtain ⟨entry, member, rfl⟩ := List.mem_map.mp listed
  rcases Table.mem_put component.fields field value entry member with rfl | before
  · exact .inl rfl
  · exact .inr (List.mem_map_of_mem before)

end Component

namespace Store

variable {store : Store} {ill : ComponentId → Value → Prop}

-- No component holds a value that is ill for it.
def Lacks (ill : ComponentId → Value → Prop) (store : Store) : Prop :=
  ∀ id, ∀ value ∈ (store.get id).contents, ¬ ill id value

-- No component holds itself, at any depth of its fields.
def Apart (store : Store) : Prop :=
  ∀ id, ¬ store.Holds id id

instance (store : Store) (outer inner : ComponentId) : Decidable (store.Holds outer inner) :=
  inferInstanceAs (Decidable (∃ value ∈ (store.get outer).contents, value.Names inner))

theorem apart_iff_lacks (store : Store) : store.Apart ↔ store.Lacks fun id value => value.Names id := by
  simp [Apart, Lacks, Holds]

theorem Lacks.create (lacks : store.Lacks ill) (component : Component) (own : ∀ value ∈ component.contents, ¬ ill store.next value) :
    (store.create component).Lacks ill := by
  intro id value listed
  by_cases old : id < store.size
  · rw [get_create_known store component id old] at listed
    exact lacks id value listed
  · by_cases new : id = store.next
    · rw [new, get_create_next] at listed
      exact new ▸ own value listed
    · have beyond : (store.create component).size ≤ id := by
        rw [size_create]
        exact Nat.lt_of_le_of_ne (Nat.le_of_not_lt old) (Ne.symm new)
      rw [get_beyond _ id beyond] at listed
      cases listed

theorem Lacks.write (lacks : store.Lacks ill) (id : ComponentId) (field : String) (value : Value) (own : ¬ ill id value)
    (known : id < store.size) : (store.write id field value).Lacks ill := by
  intro other content listed
  by_cases same : other = id
  · rw [same, get_write_same store id field value known] at listed
    rw [same]
    rcases Component.contents_put _ field value content listed with rfl | before
    · exact own
    · exact lacks id content before
  · rw [get_write_other store id other field value same] at listed
    exact lacks other content listed

theorem holds_written (store : Store) (id : ComponentId) (field : String) (value : Value) (inner : ComponentId)
    (known : id < store.size) (names : value.Names inner) : (store.write id field value).Holds id inner := by
  refine ⟨value, ?_, names⟩
  rw [get_write_same store id field value known]
  exact List.mem_map_of_mem (Table.find_mem _ field value (Table.find_put_same _ field value))

end Store

namespace TypeOperation

theorem set_property_run (operation : String) (id : ComponentId) (property : String) (value : Value) (rest : List Value) (world : World)
    (other : value.componentId? ≠ some id) (accepted : (world.store.get id).accepts property = true) :
    (runSetProperty ⟨operation, .component id :: .text property :: value :: rest⟩).run world =
      (.ok (.component id), world.apply (.write id property value)) := by
  have enough : Call.need ⟨operation, .component id :: .text property :: value :: rest⟩ 3 = .ok () := by
    simp [Call.need]
  have assigned : (Action.assign id property value).run world = (.ok (), world.apply (.write id property value)) := by
    change (if (!(world.store.get id).accepts property) = true then _ else _ : Action Unit).run world = _
    rw [accepted]
    rfl
  unfold runSetProperty
  rw [enough]
  change ((if value.componentId? = some id then _ else _ : Action Value).run world) = _
  rw [if_neg other]
  change ((Action.assign id property value >>= fun _ => pure (.component id) : Action Value).run world) = _
  rw [run_bind, assigned]
  rfl

end TypeOperation

theorem World.apply_size (world : World) (change : Change) : world.store.size ≤ (world.apply change).store.size := by
  cases change <;> simp [World.apply]

-- Apart from `SetProperty`, operations write only what they make themselves, and the fields of a new
-- component are older than the component.
theorem StandardOperation.makes_lacks (ill : ComponentId → Value → Prop) (named : ∀ id value, ill id value → value.Names id)
    (operation : StandardOperation) (arguments : List Value) (world : World) (change : Change) (value : Value)
    (makes : Makes arguments world operation change value) (other : operation ≠ .type .setProperty)
    (known : world.Every (Value.Within world.store.size)) (lacks : world.store.Lacks ill) : (world.apply change).store.Lacks ill := by
  cases makes with
  | definedType | definedProperty | declared | definedInterface | printed | fetched | answered => exact lacks
  | created type component made =>
    have older := known.defaults.new_component (fun _ computed => computed.within _) type component made
    refine lacks.create component fun content listed bad => ?_
    obtain ⟨entry, member, rfl⟩ := List.mem_map.mp listed
    exact Nat.lt_irrefl _ (older entry member _ (named _ _ bad))
  | assigned => exact absurd rfl other
  | styled _ setter id field content target accepted computed =>
    exact lacks.write id field content (fun bad => computed.names_nothing id (named id content bad)) (accepted_known _ id field accepted)

namespace State

-- Whatever variables, components and types hold names components that were made.
structure Known (state : State) : Prop where
  context : state.context.bindings.Every (Value.Within state.world.store.size)
  world : state.world.Every (Value.Within state.world.store.size)

-- A command that stores a composite in a component that the composite names.
def Entangles (state : State) (order : Order) : Prop :=
  ∃ id property kind fields rest,
    state.call? order.text = some (.type .setProperty, .component id :: .text property :: .composite kind fields :: rest) ∧
      (state.world.store.get id).accepts property = true ∧ (Value.composite kind fields).Names id

theorem call_known (state : State) (known : state.Known) (text : String) (operation : StandardOperation) (arguments : List Value)
    (called : state.call? text = some (operation, arguments)) : ∀ argument ∈ arguments, argument.Within state.world.store.size := by
  obtain ⟨command, parsed, _, rfl⟩ := call_comes_from state text operation arguments called
  have normal : Reads (Command.parse text) Command.Normal := Command.parse_chars_reads text.toList
  rw [parsed] at normal
  intro argument listed id names
  rw [Context.resolve_all_map] at listed
  obtain ⟨written, member, same⟩ := List.mem_map.mp listed
  rcases state.context.resolved_names _ known.context argument id names written same with before | made
  · exact absurd before ((normal.arguments written member).names_nothing id)
  · exact made

theorem after_cases (state : State) (order : Order) : state.after order = state ∨
    ∃ operation arguments value world target, state.call? order.text = some (operation, arguments) ∧
      (operation.run arguments).run state.world = (.ok value, world) ∧ state.after order = ⟨bound state.context target value, world⟩ := by
  rcases execute_with_cases order.name order.text state with
    ⟨fault, ended⟩ | ⟨command, operation, value, world, parsed, reached, run, ended⟩
  · rw [after, ended]
    exact .inl rfl
  · rw [after, ended]
    exact .inr ⟨operation, _, value, world, _, call_of_reached state order.text command operation parsed reached, run, rfl⟩

theorem Known.after {state : State} (known : state.Known) (order : Order) : (state.after order).Known := by
  rcases after_cases state order with same | ⟨operation, arguments, value, world, target, called, run, ended⟩
  · rw [same]
    exact known
  · obtain ⟨change, makes, rfl⟩ := (operation.run_ends arguments state.world).finished run
    have grown := state.world.apply_size change
    have more (value : Value) (within : value.Within state.world.store.size) := within.mono grown
    have given := call_known state known order.text operation arguments called
    obtain ⟨own, every⟩ := operation.makes_every arguments state.world change value makes (known.world.mono more)
      (fun argument listed => more argument (given argument listed)) (fun _ computed => computed.within _) (by
        rintro component rfl id ⟨⟩
        simp [World.apply, Store.next])
    rw [ended]
    exact ⟨bound_every state.context target value (known.context.mono more) own, every⟩

theorem after_lacks (ill : ComponentId → Value → Prop) (named : ∀ id value, ill id value → value.Names id) (state : State)
    (order : Order) (known : state.Known) (lacks : state.world.store.Lacks ill)
    (spared : ∀ id property value rest,
      state.call? order.text = some (.type .setProperty, .component id :: .text property :: value :: rest) →
        value.componentId? ≠ some id → (state.world.store.get id).accepts property = true → ¬ ill id value) :
    (state.after order).world.store.Lacks ill := by
  rcases after_cases state order with same | ⟨operation, arguments, value, world, target, called, run, ended⟩
  · rw [same]
    exact lacks
  · rw [ended]
    by_cases assigns : operation = .type .setProperty
    · subst assigns
      obtain ⟨id, property, content, rest, rfl, other, accepted, _, rfl⟩ :=
        (TypeOperation.set_property_settles ⟨"Type.SetProperty", arguments⟩).finished run
      exact lacks.write id property content (spared id property content rest called other accepted) (accepted_known _ id property accepted)
    · obtain ⟨change, makes, rfl⟩ := (operation.run_ends arguments state.world).finished run
      exact operation.makes_lacks ill named arguments state.world change value makes assigns known.world lacks

theorem after_apart (state : State) (order : Order) (known : state.Known) (apart : state.world.store.Apart)
    (harmless : ¬ state.Entangles order) : (state.after order).world.store.Apart := by
  rw [Store.apart_iff_lacks] at apart ⊢
  refine after_lacks _ (fun _ _ names => names) state order known apart fun id property value rest called other accepted names => ?_
  cases names with
  | component => exact other rfl
  | field kind fields field _ listed inner =>
    exact harmless ⟨id, property, kind, fields, rest, called, accepted, .field kind fields field id listed inner⟩

theorem after_entangled (state : State) (order : Order) (entangles : state.Entangles order) :
    ¬ (state.after order).world.store.Apart := by
  obtain ⟨id, property, kind, fields, rest, called, accepted, names⟩ := entangles
  obtain ⟨target, ended⟩ := execute_with_call order.name order.text state _ _ called
  have run : ((StandardOperation.type .setProperty).run (.component id :: .text property :: .composite kind fields :: rest)).run state.world =
      (.ok (.component id), state.world.apply (.write id property (.composite kind fields))) :=
    TypeOperation.set_property_run "Type.SetProperty" id property _ rest state.world (by simp [Value.componentId?]) accepted
  rw [after, ended, run]
  exact fun apart => apart id (Store.holds_written _ id property _ id (accepted_known _ id property accepted) names)

theorem after_all_concat (state : State) (orders : List Order) (last : Order) :
    state.afterAll (orders ++ [last]) = (state.afterAll orders).after last := by
  rw [afterAll, List.foldl_append, afterAll]
  rfl

theorem Known.after_all {state : State} (known : state.Known) (orders : List Order) : (state.afterAll orders).Known := by
  induction orders using List.reverseRecOn with
  | nil => exact known
  | append_singleton orders last ih =>
    rw [after_all_concat]
    exact ih.after last

theorem never_direct (start : State) (known : start.Known) (apart : start.world.store.Apart) (orders : List Order) :
    (start.afterAll orders).world.store.Lacks fun id value => value = .component id := by
  induction orders using List.reverseRecOn with
  | nil => exact fun id value listed same => apart id ⟨value, listed, same ▸ .component id⟩
  | append_singleton orders last ih =>
    rw [after_all_concat]
    refine after_lacks _ ?_ _ last (known.after_all orders) ih ?_
    · rintro id _ rfl
      exact .component id
    · rintro id property _ rest called other _ rfl
      exact other rfl

-- No component is ever directly a property of itself. It comes to hold itself inside a composite just
-- when a composite is written into it that names it.
theorem only_composites_entangle (start : State) (known : start.Known) (apart : start.world.store.Apart) :
    (∀ orders id property, ((start.afterAll orders).world.store.get id).get? property ≠ some (.component id)) ∧
    ∀ orders, (∀ before, before <+: orders → (start.afterAll before).world.store.Apart) ↔
      ∀ before order, before ++ [order] <+: orders → ¬ (start.afterAll before).Entangles order := by
  refine ⟨fun orders id property direct => ?_, fun orders => ⟨fun never before order early entangles => ?_, fun harmless before early => ?_⟩⟩
  · have stored := Table.find_mem _ property _ direct
    exact never_direct start known apart orders id _ (List.mem_map_of_mem stored) rfl
  · have ended := never (before ++ [order]) early
    rw [after_all_concat] at ended
    exact after_entangled _ order entangles ended
  · induction before using List.reverseRecOn with
    | nil => exact apart
    | append_singleton before last ih =>
      rw [after_all_concat]
      exact after_apart _ last (known.after_all before) (ih ((List.prefix_append before [last]).trans early)) (harmless before last early)

theorem initial_known : initial.Known :=
  ⟨Table.empty_every, ⟨by rintro _ ⟨⟩, Registry.initial_every fun _ computed => computed.within _⟩⟩

theorem initial_apart : initial.world.store.Apart := by
  rintro id ⟨value, listed, _⟩
  rw [Store.get_beyond initial.world.store id (Nat.zero_le id)] at listed
  cases listed

def looping : List Order :=
  [⟨none, "SFScript.Type.Define('Node', 'Component')"⟩, ⟨none, "$n = SFScript.Type.Create('Node')"⟩,
    ⟨none, "SFScript.Type.SetProperty($n, 'p', Vector3(1, $n, 2))"⟩]

theorem loop_holds_itself : ∃ orders, (initial.afterAll orders).world.store.Holds 0 0 :=
  ⟨looping, by decide +kernel⟩

theorem loop_was_entangled :
    (∀ id property, ((initial.afterAll looping).world.store.get id).get? property ≠ some (.component id)) ∧
      ∃ before order, before ++ [order] <+: looping ∧ (initial.afterAll before).Entangles order := by
  obtain ⟨direct, runs⟩ := only_composites_entangle initial initial_known initial_apart
  refine ⟨direct looping, ?_⟩
  by_contra harmless
  have apart := (runs looping).mpr fun before order early entangles => harmless ⟨before, order, early, entangles⟩
  exact apart looping (List.prefix_refl _) 0 (by decide +kernel)

end State

end CommandScript
