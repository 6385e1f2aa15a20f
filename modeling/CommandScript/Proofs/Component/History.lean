import CommandScript.Proofs.Catalog
import CommandScript.Proofs.Component.Store
import CommandScript.Proofs.Execution

set_option autoImplicit false

namespace CommandScript

-- What happens to the components of a run: one is made with the fields of its type, or one of its
-- fields is set.
inductive Event where
  | created (id : ComponentId) (defaults : Table Value)
  | wrote (id : ComponentId) (field : String) (value : Value)

namespace Event

def writeTo (id : ComponentId) (field : String) : Event → Option Value
  | .wrote target key value => if target = id ∧ key = field then some value else none
  | .created _ _ => none

def defaultOf (id : ComponentId) (field : String) : Event → Option Value
  | .created target defaults => if target = id then defaults.find? field else none
  | .wrote _ _ _ => none

def latestWrite (history : List Event) (id : ComponentId) (field : String) : Option Value :=
  history.reverse.findSome? (writeTo id field)

def initialValue (history : List Event) (id : ComponentId) (field : String) : Option Value :=
  history.findSome? (defaultOf id field)

theorem latest_write_after (event : Option Event) (history : List Event) (id : ComponentId) (field : String) :
    latestWrite (event.toList ++ history) id field = (latestWrite history id field).or (event.bind (writeTo id field)) := by
  rw [latestWrite, List.reverse_append, List.findSome?_append, ← latestWrite]
  cases event <;> simp

theorem initial_value_after (event : Option Event) (history : List Event) (id : ComponentId) (field : String) :
    initialValue (event.toList ++ history) id field = (event.bind (defaultOf id field)).or (initialValue history id field) := by
  simp only [initialValue, List.findSome?_append]
  cases event <;> simp

end Event

namespace StandardOperation

-- A setter writes what it makes of its arguments into the component that comes first.
def setting (arguments : List Value) (field : String) (value : Except Stop Value) : Option Event :=
  match arguments.head?, value with
  | some (.component id), .ok value => some (.wrote id field value)
  | _, _ => none

-- The event that a call stands for if it succeeds.
def event (operation : StandardOperation) (arguments : List Value) (world : World) : Option Event :=
  match operation, arguments with
  | .type .create, .text name :: _ =>
    match world.registry.newComponent name with
    | .ok component => some (.created world.store.next component.fields)
    | .error _ => none
  | .type .setProperty, .component id :: .text property :: value :: _ => some (.wrote id property value)
  | .text .setText, _ => setting arguments "text" ((textValue ⟨"Text.SetText", arguments⟩).run world).1
  | .text .setFontSize, _ => setting arguments "fontSize" (fontSizeValue ⟨"Text.SetFontSize", arguments⟩)
  | .text .setColor, _ => setting arguments "color" (colorValue ⟨"Text.SetColor", arguments⟩)
  | .image .setColor, _ => setting arguments "color" (colorValue ⟨"Image.SetColor", arguments⟩)
  | .image .setFillAmount, _ => setting arguments "fillAmount" (fillValue ⟨"Image.SetFillAmount", arguments⟩)
  | _, _ => none

end StandardOperation

-- The store before and after an event, if there was one.
inductive Recorded (before : Store) : Option Event → Store → Prop where
  | nothing : Recorded before none before
  | created (component : Component) : Recorded before (some (.created before.next component.fields)) (before.create component)
  | wrote (id : ComponentId) (field : String) (value : Value) (known : id < before.size) :
      Recorded before (some (.wrote id field value)) (before.write id field value)

-- No field is accepted under a handle that was never given out.
theorem accepted_known (store : Store) (id : ComponentId) (field : String) (accepted : (store.get id).accepts field = true) :
    id < store.size := by
  by_contra beyond
  rw [Store.get_beyond store id (Nat.le_of_not_lt beyond)] at accepted
  simp [Component.accepts, Component.ofBuiltin, Builtin.fields, Table.has, Table.find?] at accepted

theorem recorded_size {before after : Store} {event : Option Event} (recorded : Recorded before event after) :
    before.size ≤ after.size := by
  cases recorded with
  | nothing => exact Nat.le_refl _
  | created component => simp
  | wrote id field value known => simp

theorem recorded_next {before after : Store} {id : ComponentId} {defaults : Table Value}
    (recorded : Recorded before (some (.created id defaults)) after) : id = before.next := by
  cases recorded
  rfl

theorem read_created (store : Store) (component : Component) (id : ComponentId) (field : String) :
    ((store.create component).get id).get? field =
      if store.next = id then component.fields.find? field else (store.get id).get? field := by
  by_cases new : store.next = id
  · rw [if_pos new, ← new, Store.get_create_next]
    rfl
  · rw [if_neg new]
    by_cases known : id < store.size
    · rw [Store.get_create_known store component id known]
    · have beyond : store.size < id := Nat.lt_of_le_of_ne (Nat.le_of_not_lt known) new
      rw [Store.get_beyond _ id (by rw [Store.size_create]; exact beyond), Store.get_beyond store id (Nat.le_of_lt beyond)]

theorem read_written (store : Store) (target id : ComponentId) (key field : String) (value : Value) (known : target < store.size) :
    ((store.write target key value).get id).get? field =
      if target = id ∧ key = field then some value else (store.get id).get? field := by
  by_cases same : target = id
  · subst same
    rw [Store.get_write_same store target key value known, Component.get_put]
    simp [eq_comm]
  · rw [if_neg fun both => same both.1, Store.get_write_other store target id key value (Ne.symm same)]

variable {world : World}

theorem create_recorded (call : Call) :
    Settles (TypeOperation.runCreate call) world fun _ after =>
      Recorded world.store (StandardOperation.event (.type .create) call.arguments world) after.store := by
  apply (TypeOperation.create_settles call).weaken
  rintro _ _ ⟨type, component, rest, given, made, _, rfl⟩
  simp only [given, StandardOperation.event, made]
  exact .created component

theorem set_property_recorded (call : Call) :
    Settles (TypeOperation.runSetProperty call) world fun _ after =>
      Recorded world.store (StandardOperation.event (.type .setProperty) call.arguments world) after.store := by
  apply (TypeOperation.set_property_settles call).weaken
  rintro _ _ ⟨id, property, content, rest, given, _, accepted, _, rfl⟩
  simp only [given, StandardOperation.event]
  exact .wrote id property content (accepted_known world.store id property accepted)

theorem write_field_recorded (call : Call) (kind : Builtin) (field : String) (value : Action Value)
    (reads : Settles value world fun _ after => after = world) :
    Settles (writeField call kind field value) world fun _ after =>
      Recorded world.store (StandardOperation.setting call.arguments field (value.run world).1) after.store := by
  apply (write_field_settles call kind field value reads).weaken
  rintro _ _ ⟨id, content, target, _, run, accepted, _, rfl⟩
  rw [← List.head?_eq_getElem?] at target
  simp only [StandardOperation.setting, target, run]
  exact .wrote id field content (accepted_known world.store id field accepted)

theorem checked_run {α : Type} (check : Except Stop α) (world : World) : ((liftM check : Action α).run world).1 = check := by
  cases check <;> rfl

-- Operations that neither make a component nor set a field leave the store alone.
theorem unrecorded (operation : StandardOperation) (arguments : List Value) (setter : operation ∉ StandardOperation.setters)
    (creator : operation ≠ .type .create) (event : operation.event arguments world = none) :
    Settles (operation.run arguments) world fun _ after =>
      Recorded world.store (operation.event arguments world) after.store := by
  apply (operation.run_settles arguments world).weaken
  rintro value after ⟨change, allowed, rfl⟩
  rw [event]
  cases change with
  | nothing | register | print => exact .nothing
  | create component => exact absurd allowed creator
  | write id field content => exact absurd allowed.1 setter

theorem type_recorded (operation : TypeOperation) (arguments : List Value) :
    Settles ((StandardOperation.type operation).run arguments) world fun _ after =>
      Recorded world.store (StandardOperation.event (.type operation) arguments world) after.store := by
  cases operation with
  | create => exact create_recorded _
  | setProperty => exact set_property_recorded _
  | define | defineProperty | implement | is | isSubclassOf | implementsInterface | getTypeName | getProperty =>
    exact unrecorded _ arguments (by decide) (by decide) rfl

theorem checked_field_recorded (call : Call) (kind : Builtin) (field : String) (value : Except Stop Value) :
    Settles (writeField call kind field value) world fun _ after =>
      Recorded world.store (StandardOperation.setting call.arguments field value) after.store := by
  rw [← checked_run value world]
  exact write_field_recorded call kind field (liftM value) (Settles.of_check fun _ _ => rfl)

theorem run_recorded (operation : StandardOperation) (arguments : List Value) (world : World) :
    Settles (operation.run arguments) world fun _ after =>
      Recorded world.store (operation.event arguments world) after.store := by
  cases operation with
  | type operation => exact type_recorded operation arguments
  | interface operation => exact unrecorded (.interface operation) arguments (by cases operation <;> decide) (by simp) rfl
  | console operation => exact unrecorded (.console operation) arguments (by cases operation <;> decide) (by simp) rfl
  | debug operation => exact unrecorded (.debug operation) arguments (by cases operation <;> decide) (by simp) rfl
  | vector operation => exact unrecorded (.vector operation) arguments (by simp [StandardOperation.setters]) (by simp) rfl
  | math operation => exact unrecorded (.math operation) arguments (by simp [StandardOperation.setters]) (by simp) rfl
  | color operation => exact unrecorded (.color operation) arguments (by simp [StandardOperation.setters]) (by simp) rfl
  | text operation =>
    cases operation with
    | setText => exact write_field_recorded _ _ _ _ ((text_value_reads _).weaken fun _ _ reads => reads.1)
    | setFontSize | setColor => exact checked_field_recorded _ _ _ _
    | getText | getFontSize | getColor => exact unrecorded _ arguments (by decide) (by simp) rfl
  | image operation =>
    cases operation with
    | setColor | setFillAmount => exact checked_field_recorded _ _ _ _
    | getColor | getFillAmount => exact unrecorded _ arguments (by decide) (by simp) rfl

theorem get_property_run (operation property : String) (id : ComponentId) (rest : List Value) (world : World) :
    (TypeOperation.runGetProperty ⟨operation, .component id :: .text property :: rest⟩).run world =
      (.ok (((world.store.get id).get? property).getD .null), world) := by
  have enough : Call.need ⟨operation, .component id :: .text property :: rest⟩ 2 = .ok () := by
    simp [Call.need]
  unfold TypeOperation.runGetProperty
  rw [enough]
  rfl

theorem Value.same_text (value : Value) (s : String) (same : value.same (.text s) = true) : value = .text s := by
  cases value <;> simp_all [Value.same]

theorem Value.same_component_text (values : List Value) (id : ComponentId) (s : String)
    (same : sameAll values [.component id, .text s] = true) : values = [.component id, .text s] := by
  match values with
  | [] => simp [sameAll] at same
  | [_] => simp [sameAll] at same
  | first :: second :: rest =>
    simp only [sameAll, Bool.and_eq_true] at same
    have one : first = .component id := by cases first <;> simp_all [Value.same]
    have none : rest = [] := by cases rest <;> simp_all [sameAll]
    rw [one, same_text second s same.2.1, none]

-- A command as it is given: its text, and the name for its value if one is given from outside.
structure Order where
  name : Option String
  text : String

namespace State

def after (state : State) (order : Order) : State :=
  (state.executeWith Catalog.tree order.name order.text).2

def afterAll (state : State) (orders : List Order) : State :=
  orders.foldl after state

def eventOf (state : State) (order : Order) : Option Event :=
  match (state.executeWith Catalog.tree order.name order.text).1.result, Command.parse order.text with
  | .ok _, .ok command =>
    match Catalog.standard.route command.path with
    | .reached operation => operation.event (state.context.resolveAll command.arguments) state.world
    | _ => none
  | _, _ => none

def history (state : State) : List Order → List Event
  | [] => []
  | order :: rest => (state.eventOf order).toList ++ (state.after order).history rest

theorem after_recorded (state : State) (order : Order) :
    Recorded state.world.store (state.eventOf order) (state.after order).world.store := by
  rcases execute_with_cases order.name order.text state with
    ⟨fault, ended⟩ | ⟨command, operation, value, world, parsed, reached, run, ended⟩
  · rw [after, eventOf, ended]
    exact .nothing
  · have recorded := (run_recorded operation (state.context.resolveAll command.arguments) state.world).finished run
    rw [after, eventOf, ended, parsed]
    simpa only [reached] using recorded

theorem after_all_cons (state : State) (order : Order) (rest : List Order) :
    state.afterAll (order :: rest) = (state.after order).afterAll rest := by
  rw [afterAll, List.foldl_cons, afterAll]

theorem history_creates_fresh (state : State) (orders : List Order) (id : ComponentId) (defaults : Table Value)
    (happened : .created id defaults ∈ state.history orders) : state.world.store.size ≤ id := by
  induction orders generalizing state with
  | nil => simp [history] at happened
  | cons order rest ih =>
    have recorded := after_recorded state order
    rw [history, List.mem_append] at happened
    rcases happened with now | later
    · rw [Option.mem_toList.mp now] at recorded
      exact Nat.le_of_eq (recorded_next recorded).symm
    · exact Nat.le_trans (recorded_size recorded) (ih (state.after order) later)

-- A component is made once, so no later event gives one that exists its fields.
theorem initial_value_known (state : State) (orders : List Order) (id : ComponentId) (field : String)
    (known : id < state.world.store.size) : Event.initialValue (state.history orders) id field = none := by
  rw [Event.initialValue, List.findSome?_eq_none_iff]
  intro event happened
  cases event with
  | wrote target key value => rfl
  | created target defaults =>
    have fresh := history_creates_fresh state orders target defaults happened
    have different : target ≠ id := Nat.ne_of_gt (Nat.lt_of_lt_of_le known fresh)
    rw [Event.defaultOf, if_neg different]

theorem history_reads (state : State) (orders : List Order) (id : ComponentId) (field : String) :
    ((state.afterAll orders).world.store.get id).get? field =
      ((Event.latestWrite (state.history orders) id field).or (Event.initialValue (state.history orders) id field)).or
        ((state.world.store.get id).get? field) := by
  induction orders generalizing state with
  | nil => simp [afterAll, history, Event.latestWrite, Event.initialValue]
  | cons order rest ih =>
    have recorded := after_recorded state order
    have later := initial_value_known (state.after order) rest id field
    rw [after_all_cons, ih (state.after order), history, Event.latest_write_after, Event.initial_value_after]
    generalize state.eventOf order = event at recorded ⊢
    generalize (state.after order).world.store = next at recorded later ⊢
    cases recorded with
    | nothing => simp
    | created component =>
      rw [read_created]
      by_cases new : state.world.store.next = id
      · have beyond := Store.get_beyond state.world.store id (Nat.le_of_eq new)
        rw [later (by rw [Store.size_create, ← new]; exact Nat.lt_succ_self _), beyond]
        simp [new, Event.writeTo, Event.defaultOf, Component.get?, Component.ofBuiltin, Builtin.fields, Table.find?]
      · simp [new, Event.writeTo, Event.defaultOf]
    | wrote target key value known =>
      rw [read_written _ _ _ _ _ _ known]
      by_cases here : target = id ∧ key = field
      · rw [later (by rw [Store.size_write]; exact here.1 ▸ known)]
        simp [here, Event.writeTo, Event.defaultOf]
      · simp [here, Event.writeTo, Event.defaultOf]

theorem get_property_answers (state : State) (order : Order) (command : Command) (value : Value)
    (parsed : Command.parse order.text = .ok command) (asks : ["SFScript", "Type", "GetProperty"] <+: command.path) :
    (state.executeWith Catalog.tree order.name order.text).1.result = .ok value ↔
      ∃ id property rest, state.context.resolveAll command.arguments = .component id :: .text property :: rest ∧
        value = ((state.world.store.get id).get? property).getD .null := by
  have reached := Catalog.reached_beyond (.type .getProperty) command.path asks
  rw [execute_with_reached order.name order.text state command _ parsed reached]
  generalize state.context.resolveAll command.arguments = arguments
  constructor
  · intro ended
    match run : ((StandardOperation.type .getProperty).run arguments).run state.world with
    | (.ok own, world) =>
      obtain ⟨_, id, property, rest, given, rfl⟩ := (TypeOperation.get_property_settles ⟨"Type.GetProperty", arguments⟩).finished run
      rw [run] at ended
      exact ⟨id, property, rest, given, (Except.ok.inj ended).symm⟩
    | (.error stop, world) => simp [run] at ended
  · rintro ⟨id, property, rest, rfl, rfl⟩
    have run : ((StandardOperation.type .getProperty).run (.component id :: .text property :: rest)).run state.world = _ :=
      get_property_run "Type.GetProperty" property id rest state.world
    rw [run]

theorem other_events_keep (state : State) (order : Order) (id : ComponentId) (property : String)
    (known : id < state.world.store.size) (silent : ∀ value, state.eventOf order ≠ some (.wrote id property value)) :
    ((state.after order).world.store.get id).get? property = (state.world.store.get id).get? property := by
  have recorded := after_recorded state order
  generalize state.eventOf order = event at recorded silent
  generalize (state.after order).world.store = next at recorded ⊢
  cases recorded with
  | nothing => rfl
  | created component =>
    have different : state.world.store.next ≠ id := Nat.ne_of_gt known
    rw [read_created, if_neg different]
  | wrote target key value targetKnown =>
    rw [read_written _ _ _ _ _ _ targetKnown, if_neg]
    rintro ⟨rfl, rfl⟩
    exact silent value rfl

-- A property reads as it was last written, by whatever command and through whatever variable; as it
-- was made, if it was never written; and as `null` otherwise. Nothing else touches it.
theorem property_reads_latest_write (start : State) (orders : List Order) :
    (∀ (order : Order) (command : Command) (value : Value), Command.parse order.text = .ok command →
      ["SFScript", "Type", "GetProperty"] <+: command.path →
      (((start.afterAll orders).executeWith Catalog.tree order.name order.text).1.result = .ok value ↔
        ∃ id property rest,
          (start.afterAll orders).context.resolveAll command.arguments = .component id :: .text property :: rest ∧
          value = (((Event.latestWrite (start.history orders) id property).or
            (Event.initialValue (start.history orders) id property)).or
              ((start.world.store.get id).get? property)).getD .null)) ∧
    ∀ (order : Order) (id : ComponentId) (property : String), id < (start.afterAll orders).world.store.size →
      (∀ value, (start.afterAll orders).eventOf order ≠ some (.wrote id property value)) →
      (((start.afterAll orders).after order).world.store.get id).get? property =
        ((start.afterAll orders).world.store.get id).get? property := by
  refine ⟨fun order command value parsed asks => ?_, fun order id property known silent => ?_⟩
  · rw [get_property_answers (start.afterAll orders) order command value parsed asks]
    simp only [history_reads]
  · exact other_events_keep (start.afterAll orders) order id property known silent

def aliasing : List Order :=
  [⟨none, "$a = SFScript.Type.Create('Text')"⟩, ⟨some "b", "SFScript.Type.SetProperty($a, 'text', 'one')"⟩,
    ⟨none, "Engine.UI.Text.SetText($b, 'two')"⟩]

theorem aliases_read_latest_write :
    ((initial.afterAll aliasing).executeWith Catalog.tree none "SFScript.Type.GetProperty($a, 'text')").1.result =
      .ok (.text "two") := by
  have facts : ((Command.parse "SFScript.Type.GetProperty($a, 'text')").toOption.any (fun command =>
      decide (["SFScript", "Type", "GetProperty"] <+: command.path) &&
        Value.sameAll ((initial.afterAll aliasing).context.resolveAll command.arguments) [.component 0, .text "text"]) &&
      (Event.latestWrite (initial.history aliasing) 0 "text").any fun value => value.same (.text "two")) = true := by
    decide +kernel
  cases parsed : Command.parse "SFScript.Type.GetProperty($a, 'text')" with
  | error error => simp [parsed, Except.toOption] at facts
  | ok command =>
    cases latest : Event.latestWrite (initial.history aliasing) 0 "text" with
    | none => simp [latest] at facts
    | some value =>
      simp only [parsed, latest, Except.toOption, Option.any_some, Bool.and_eq_true, decide_eq_true_eq] at facts
      obtain ⟨⟨asks, given⟩, wrote⟩ := facts
      have reads := (property_reads_latest_write initial aliasing).1
        ⟨none, "SFScript.Type.GetProperty($a, 'text')"⟩ command (.text "two") parsed asks
      dsimp only at reads
      rw [reads]
      refine ⟨0, "text", [], Value.same_component_text _ 0 "text" given, ?_⟩
      rw [latest, Value.same_text value "two" wrote, Option.some_or, Option.some_or, Option.getD_some]

end State

end CommandScript
