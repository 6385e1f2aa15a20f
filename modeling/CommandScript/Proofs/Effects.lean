import CommandScript.Catalog.Standard
import CommandScript.Proofs.Change
import CommandScript.Proofs.Computed

set_option autoImplicit false

namespace CommandScript

namespace StandardOperation

def definitions : List StandardOperation :=
  [.type .define, .type .defineProperty, .type .implement, .interface .define]

def setters : List StandardOperation :=
  [.type .setProperty, .text .setText, .text .setFontSize, .text .setColor, .image .setColor, .image .setFillAmount]

def printers : List StandardOperation :=
  ConsoleOperation.all.map .console ++ DebugOperation.all.map .debug

-- The changes that an operation of the catalog may make.
def Allows (operation : StandardOperation) (arguments : List Value) : Change → Prop
  | .nothing => True
  | .register _ => operation ∈ definitions
  | .create _ => operation = .type .create
  | .write id _ _ => operation ∈ setters ∧ arguments[0]? = some (.component id)
  | .print _ => operation ∈ printers

-- All that an operation may do if it ends with a value: the change that it makes and the value, with
-- what was checked on the way.
inductive Makes (arguments : List Value) (world : World) : StandardOperation → Change → Value → Prop where
  | definedType (name : String) (parent : Option String) (interfaces : List String) :
      Makes arguments world (.type .define) (.register (.defineType name parent interfaces)) (.bool true)
  | definedProperty (type property : String) (value : Value) (given : arguments[2]? = some value) :
      Makes arguments world (.type .defineProperty) (.register (.defineProperty type property value)) (.bool true)
  | declared (type interface : String) :
      Makes arguments world (.type .implement) (.register (.addInterface type interface)) (.bool true)
  | definedInterface (name : String) (parents : List String) :
      Makes arguments world (.interface .define) (.register (.defineInterface name parents)) (.bool true)
  | created (type : String) (component : Component) (made : world.registry.newComponent type = .ok component) :
      Makes arguments world (.type .create) (.create component) (.component world.store.next)
  | assigned (id : ComponentId) (property : String) (value : Value) (target : arguments[0]? = some (.component id))
      (given : arguments[2]? = some value) (accepted : (world.store.get id).accepts property = true) :
      Makes arguments world (.type .setProperty) (.write id property value) (.component id)
  | styled (operation : StandardOperation) (setter : operation ∈ setters) (id : ComponentId) (field : String) (value : Value)
      (target : arguments[0]? = some (.component id)) (accepted : (world.store.get id).accepts field = true)
      (computed : value.Computed) : Makes arguments world operation (.write id field value) (.component id)
  | printed (operation : StandardOperation) (printer : operation ∈ printers) (text : String) :
      Makes arguments world operation (.print text) .null
  | fetched (operation : StandardOperation) (id : ComponentId) (field : String) (target : arguments[0]? = some (.component id)) :
      Makes arguments world operation .nothing (((world.store.get id).get? field).getD .null)
  | answered (operation : StandardOperation) (value : Value) (computed : value.Computed) :
      Makes arguments world operation .nothing value

-- An operation that ends with a value has made one change.
def Ends (operation : StandardOperation) (arguments : List Value) (world : World) (value : Value) (after : World) : Prop :=
  ∃ change, Makes arguments world operation change value ∧ after = world.apply change

end StandardOperation

open StandardOperation (Makes Ends)

theorem expected_argument {α : Type} (call : Call) (position : Nat) (expected : Expected) (convert : Value → Option α) (result : α)
    (read : call.expect position expected convert = .ok result) :
    ∃ value, call.arguments[position]? = some value ∧ convert value = some result := by
  unfold Call.expect Call.argument at read
  cases present : call.arguments[position]? with
  | none => simp [present, Call.refuse, bind, Except.bind] at read
  | some value =>
    cases converted : convert value with
    | none => simp [present, converted, Call.refuse, bind, Except.bind] at read
    | some own =>
      obtain rfl : own = result := by simpa [present, converted, bind, Except.bind] using read
      exact ⟨value, rfl, converted⟩

theorem component_argument (call : Call) (position : Nat) (id : ComponentId) (read : call.component position = .ok id) :
    call.arguments[position]? = some (.component id) := by
  obtain ⟨value, present, converted⟩ := expected_argument call position .component Value.componentId? id read
  cases value <;> simp [Value.componentId?] at converted
  rw [present, converted]

theorem text_argument (call : Call) (position : Nat) (text : String) (read : call.text position = .ok text) :
    call.arguments[position]? = some (.text text) := by
  obtain ⟨value, present, converted⟩ := expected_argument call position .text Call.textOf? text read
  cases value <;> simp [Call.textOf?] at converted
  rw [present, converted]

theorem needed_argument (call : Call) (count position : Nat) (enough : call.need count = .ok ()) (early : position < count) :
    call.arguments[position]? = some (call.value position) := by
  unfold Call.need at enough
  by_cases few : call.arguments.length < count
  · simp [few, Call.refuse] at enough
  · have present : position < call.arguments.length := by omega
    rw [Call.value, List.getElem?_eq_getElem present, Option.getD_some]

theorem text_first (call : Call) (text : String) (read : call.text 0 = .ok text) : ∃ rest, call.arguments = .text text :: rest := by
  have first := text_argument call 0 text read
  rwa [← List.head?_eq_getElem?, List.head?_eq_some_iff] at first

theorem property_named (call : Call) (id : ComponentId) (property : String) (readId : call.component 0 = .ok id)
    (readProperty : call.text 1 = .ok property) : ∃ rest, call.arguments = .component id :: .text property :: rest := by
  have first := component_argument call 0 id readId
  have second := text_argument call 1 property readProperty
  rcases arguments : call.arguments with _ | ⟨component, _ | ⟨name, rest⟩⟩
  · simp [arguments] at first
  · simp [arguments] at second
  · exact ⟨rest, by simp_all⟩

theorem property_given (call : Call) (id : ComponentId) (property : String) (enough : call.need 3 = .ok ())
    (readId : call.component 0 = .ok id) (readProperty : call.text 1 = .ok property) :
    ∃ rest, call.arguments = .component id :: .text property :: call.value 2 :: rest := by
  obtain ⟨others, given⟩ := property_named call id property readId readProperty
  have third := needed_argument call 3 2 enough (by decide)
  cases others with
  | nil => simp [given] at third
  | cons value rest => exact ⟨rest, by simp_all⟩

variable {world : World}

theorem refusal_settles {α : Type} (error : ArgumentError) (post : α → World → Prop) :
    Settles (liftM (Call.refuse error : Except Stop α) : Action α) world post := Settles.of_error rfl

theorem refusal_bind {α β : Type} (error : ArgumentError) (rest : α → Action β) (post : β → World → Prop) :
    Settles (liftM (Call.refuse error : Except Stop α) >>= rest) world post := Settles.of_error rfl

-- Queries read their arguments and then the world.
theorem answer_settles {α : Type} (first : Except Stop α) (answer : α → World → Value) :
    Settles (do return answer (← first) (← get) : Action Value) world fun value after =>
      after = world ∧ ∃ own, first = .ok own ∧ value = answer own world := by
  apply Settles.check_bind
  intro own read
  apply Settles.get_bind
  exact Settles.of_pure ⟨rfl, own, read, rfl⟩

theorem answer_two_settles {α β : Type} (need : Except Stop Unit) (first : Except Stop α) (second : Except Stop β)
    (answer : α → β → World → Value) :
    Settles (do need; return answer (← first) (← second) (← get) : Action Value) world fun value after =>
      after = world ∧ ∃ own other, first = .ok own ∧ second = .ok other ∧ value = answer own other world := by
  apply Settles.check_bind
  intro _ _
  apply Settles.check_bind
  intro own read
  apply (answer_settles second (answer own)).weaken
  rintro value after ⟨same, other, readOther, answered⟩
  exact ⟨same, own, other, read, readOther, answered⟩

theorem answered_ends (operation : StandardOperation) (arguments : List Value) (value : Value) (after : World)
    (same : after = world) (computed : value.Computed) : Ends operation arguments world value after :=
  ⟨.nothing, .answered operation value computed, same⟩

namespace TypeOperation

theorem define_settles (call : Call) : Settles (runDefine call) world (Ends (.type .define) call.arguments world) := by
  apply Settles.check_bind
  intro _ _
  apply Settles.check_bind
  intro name _
  apply Settles.check_bind
  intro parent _
  apply Settles.check_bind
  intro interfaces _
  apply Settles.bind_pure
  exact (Action.register_settles (.defineType name parent interfaces)).weaken fun _ _ made =>
    ⟨_, .definedType name parent interfaces, made⟩

theorem define_property_settles (call : Call) :
    Settles (runDefineProperty call) world (Ends (.type .defineProperty) call.arguments world) := by
  apply Settles.check_bind
  intro _ enough
  apply Settles.check_bind
  intro type _
  apply Settles.check_bind
  intro property _
  apply Settles.bind_pure
  exact (Action.register_settles (.defineProperty type property (call.value 2))).weaken fun _ _ made =>
    ⟨_, .definedProperty type property (call.value 2) (needed_argument call 3 2 enough (by decide)), made⟩

theorem implement_settles (call : Call) : Settles (runImplement call) world (Ends (.type .implement) call.arguments world) := by
  apply Settles.check_bind
  intro _ _
  apply Settles.check_bind
  intro type _
  apply Settles.check_bind
  intro interface _
  apply Settles.bind_pure
  exact (Action.register_settles (.addInterface type interface)).weaken fun _ _ made => ⟨_, .declared type interface, made⟩

-- `Create` makes a component of the type that it is given, with the defaults of that type.
theorem create_settles (call : Call) : Settles (runCreate call) world fun value after => ∃ type component rest,
    call.arguments = .text type :: rest ∧ world.registry.newComponent type = .ok component ∧
      value = .component world.store.next ∧ after = world.apply (.create component) := by
  apply Settles.check_bind
  intro type read
  apply Settles.get_bind
  obtain ⟨rest, given⟩ := text_first call type read
  cases found : world.registry.newComponent type with
  | ok component =>
    apply Settles.bind_pure
    apply (Action.create_settles component).weaken
    rintro id after ⟨rfl, made⟩
    exact ⟨type, component, rest, given, found, rfl, made⟩
  | error error => exact refusal_settles _ _

-- `SetProperty` writes what it is given and answers with the component, unless the value is the component itself.
theorem set_property_settles (call : Call) : Settles (runSetProperty call) world fun value after => ∃ id property content rest,
    call.arguments = .component id :: .text property :: content :: rest ∧ content.componentId? ≠ some id ∧
      (world.store.get id).accepts property = true ∧ value = .component id ∧ after = world.apply (.write id property content) := by
  apply Settles.check_bind
  intro _ enough
  apply Settles.check_bind
  intro id readId
  apply Settles.check_bind
  intro property readProperty
  by_cases itself : (call.value 2).componentId? = some id
  · rw [if_pos itself]
    exact refusal_bind _ _ _
  · rw [if_neg itself]
    apply Settles.bind_pure
    obtain ⟨rest, given⟩ := property_given call id property enough readId readProperty
    apply (Action.assign_settles id property (call.value 2)).weaken
    rintro _ after ⟨accepted, made⟩
    exact ⟨id, property, call.value 2, rest, given, itself, accepted, rfl, made⟩

theorem get_property_settles (call : Call) :
    Settles (runGetProperty call) world fun value after => after = world ∧ ∃ id property rest,
      call.arguments = .component id :: .text property :: rest ∧ value = ((world.store.get id).get? property).getD .null := by
  apply (answer_two_settles (call.need 2) (call.component 0) (call.text 1)
    fun id property world => ((world.store.get id).get? property).getD .null).weaken
  rintro value after ⟨same, id, property, readId, readProperty, answered⟩
  obtain ⟨rest, given⟩ := property_named call id property readId readProperty
  exact ⟨same, id, property, rest, given, answered⟩

theorem run_settles (operation : TypeOperation) (arguments : List Value) :
    Settles (operation.run arguments) world (Ends (.type operation) arguments world) := by
  cases operation with
  | define => exact define_settles _
  | defineProperty => exact define_property_settles _
  | implement => exact implement_settles _
  | create =>
    apply (create_settles _).weaken
    rintro _ after ⟨type, component, _, _, found, rfl, made⟩
    exact ⟨_, .created type component found, made⟩
  | setProperty =>
    apply (set_property_settles _).weaken
    rintro _ after ⟨id, property, content, rest, given, _, accepted, rfl, made⟩
    dsimp only at given
    exact ⟨_, .assigned id property content (by rw [given]; rfl) (by rw [given]; rfl) accepted, made⟩
  | is | isSubclassOf | implementsInterface =>
    apply (answer_two_settles _ _ _ _).weaken
    rintro _ after ⟨same, own, other, _, _, rfl⟩
    exact answered_ends _ _ _ after same (.bool _)
  | getTypeName =>
    apply (answer_settles _ _).weaken
    rintro _ after ⟨same, id, _, rfl⟩
    exact answered_ends _ _ _ after same (.text _)
  | getProperty =>
    apply (get_property_settles _).weaken
    rintro _ after ⟨same, id, property, rest, given, rfl⟩
    dsimp only at given
    exact ⟨.nothing, .fetched _ id property (by rw [given]; rfl), same⟩

end TypeOperation

namespace InterfaceOperation

theorem define_settles (call : Call) : Settles (runDefine call) world (Ends (.interface .define) call.arguments world) := by
  apply Settles.check_bind
  intro _ _
  apply Settles.check_bind
  intro name _
  apply Settles.check_bind
  intro parents _
  apply Settles.bind_pure
  exact (Action.register_settles (.defineInterface name parents)).weaken fun _ _ made =>
    ⟨_, .definedInterface name parents, made⟩

theorem run_settles (operation : InterfaceOperation) (arguments : List Value) :
    Settles (operation.run arguments) world (Ends (.interface operation) arguments world) := by
  cases operation with
  | define => exact define_settles _
  | isDefined =>
    apply (answer_settles _ _).weaken
    rintro _ after ⟨same, name, _, rfl⟩
    exact answered_ends _ _ _ after same (.bool _)

end InterfaceOperation

theorem printed_settles (operation : StandardOperation) (printer : operation ∈ StandardOperation.printers)
    (arguments : List Value) (text : String) :
    Settles (do Action.print text; return .null : Action Value) world (Ends operation arguments world) := by
  apply Settles.bind_pure
  exact (Action.print_settles text).weaken fun _ _ made => ⟨_, .printed operation printer text, made⟩

theorem ConsoleOperation.run_settles (operation : ConsoleOperation) (arguments : List Value) :
    Settles (operation.run arguments) world (Ends (.console operation) arguments world) := by
  apply Settles.get_bind
  cases operation with
  | writeLine | write => exact printed_settles _ (by simp [StandardOperation.printers, all]) arguments _

theorem DebugOperation.run_settles (operation : DebugOperation) (arguments : List Value) :
    Settles (operation.run arguments) world (Ends (.debug operation) arguments world) := by
  apply Settles.get_bind
  exact printed_settles _ (by cases operation <;> simp [StandardOperation.printers, all]) arguments _

theorem builtin_argument_settles (call : Call) (kind : Builtin) :
    Settles (builtinArgument call kind) world fun id after =>
      after = world ∧ call.arguments[0]? = some (.component id) ∧ (world.store.get id).type = .builtin kind := by
  apply Settles.check_bind
  intro id read
  apply Settles.get_bind
  by_cases fits : (world.store.get id).type = .builtin kind
  · rw [if_pos fits]
    exact Settles.of_pure ⟨rfl, component_argument call 0 id read, fits⟩
  · rw [if_neg fits]
    exact refusal_settles _ _

theorem read_field_settles (call : Call) (kind : Builtin) (field : String) :
    Settles (readField call kind field) world fun value after => after = world ∧ ∃ id,
      call.arguments[0]? = some (.component id) ∧ (world.store.get id).type = .builtin kind ∧
        value = ((world.store.get id).get? field).getD .null := by
  apply Settles.check_bind
  intro _ _
  apply Settles.read_bind
  apply (builtin_argument_settles call kind).weaken
  rintro id after ⟨same, target, fits⟩
  refine ⟨same, ?_⟩
  apply Settles.get_bind
  exact Settles.of_pure ⟨rfl, id, target, fits, rfl⟩

theorem getter_settles (operation : StandardOperation) (call : Call) (kind : Builtin) (field : String) :
    Settles (readField call kind field) world (Ends operation call.arguments world) := by
  apply (read_field_settles call kind field).weaken
  rintro _ after ⟨same, id, target, _, rfl⟩
  exact ⟨.nothing, .fetched operation id field target, same⟩

-- A setter writes what `value` reads into the component of its kind that it is given, and answers with the component.
theorem write_field_settles (call : Call) (kind : Builtin) (field : String) (value : Action Value)
    (reads : Settles value world fun _ after => after = world) :
    Settles (writeField call kind field value) world fun result after => ∃ id content,
      call.arguments[0]? = some (.component id) ∧ (world.store.get id).type = .builtin kind ∧
        value.run world = (.ok content, world) ∧ (world.store.get id).accepts field = true ∧
          result = .component id ∧ after = world.apply (.write id field content) := by
  apply Settles.check_bind
  intro _ _
  apply Settles.read_bind
  apply (builtin_argument_settles call kind).weaken
  rintro id after ⟨same, target, fits⟩
  refine ⟨same, ?_⟩
  apply Settles.read_bind
  apply reads.with_run.weaken
  rintro content _ ⟨rfl, run⟩
  refine ⟨rfl, ?_⟩
  apply Settles.bind_pure
  apply (Action.assign_settles id field content).weaken
  rintro _ after ⟨accepted, made⟩
  exact ⟨id, content, target, fits, run, accepted, rfl, made⟩

theorem setter_settles (operation : StandardOperation) (setter : operation ∈ StandardOperation.setters) (call : Call)
    (kind : Builtin) (field : String) (value : Action Value)
    (reads : Settles value world fun content after => after = world ∧ content.Computed) :
    Settles (writeField call kind field value) world (Ends operation call.arguments world) := by
  apply (write_field_settles call kind field value (reads.weaken fun _ _ both => both.1)).weaken
  rintro _ after ⟨id, content, target, _, run, accepted, rfl, made⟩
  exact ⟨_, .styled operation setter id field content target accepted (reads.finished run).2, made⟩

theorem text_value_reads (call : Call) :
    Settles (textValue call) world fun content after => after = world ∧ content.Computed := by
  unfold textValue
  split
  · exact Settles.of_pure ⟨rfl, .text ""⟩
  · exact Settles.get_bind (Settles.of_pure ⟨rfl, .text _⟩)

theorem checked_reads (check : Except Stop Value) (computed : Yields check Value.Computed) :
    Settles (liftM check : Action Value) world fun content after => after = world ∧ content.Computed :=
  Settles.of_check fun value passed => ⟨rfl, computed value passed⟩

theorem checked_settles (operation : StandardOperation) (arguments : List Value) (check : Except Stop Value)
    (computed : Yields check Value.Computed) :
    Settles (liftM check : Action Value) world (Ends operation arguments world) :=
  (checked_reads check computed).weaken fun value after ends => answered_ends operation arguments value after ends.1 ends.2

theorem TextOperation.run_settles (operation : TextOperation) (arguments : List Value) :
    Settles (operation.run arguments) world (Ends (.text operation) arguments world) := by
  cases operation with
  | setText => exact setter_settles _ (by decide) _ _ _ _ (text_value_reads _)
  | setFontSize => exact setter_settles _ (by decide) _ _ _ _ (checked_reads _ (font_size_computed _))
  | setColor => exact setter_settles _ (by decide) _ _ _ _ (checked_reads _ (color_computed _))
  | getText | getFontSize | getColor => exact getter_settles _ _ _ _

theorem ImageOperation.run_settles (operation : ImageOperation) (arguments : List Value) :
    Settles (operation.run arguments) world (Ends (.image operation) arguments world) := by
  cases operation with
  | setColor => exact setter_settles _ (by decide) _ _ _ _ (checked_reads _ (color_computed _))
  | setFillAmount => exact setter_settles _ (by decide) _ _ _ _ (checked_reads _ (fill_computed _))
  | getColor | getFillAmount => exact getter_settles _ _ _ _

namespace StandardOperation

-- Every operation of the catalog ends with one change and a value, or stops before any change.
theorem run_ends (operation : StandardOperation) (arguments : List Value) (world : World) :
    Settles (operation.run arguments) world (Ends operation arguments world) := by
  cases operation with
  | type operation => exact operation.run_settles arguments
  | interface operation => exact operation.run_settles arguments
  | console operation => exact operation.run_settles arguments
  | debug operation => exact operation.run_settles arguments
  | vector operation => exact checked_settles _ arguments _ (operation.run_computed arguments)
  | math operation => exact checked_settles _ arguments _ (operation.run_computed arguments)
  | color operation => exact checked_settles _ arguments _ (operation.run_computed arguments)
  | text operation => exact operation.run_settles arguments
  | image operation => exact operation.run_settles arguments

theorem makes_allowed (operation : StandardOperation) (arguments : List Value) (world : World) (change : Change) (value : Value)
    (makes : Makes arguments world operation change value) : operation.Allows arguments change := by
  cases makes with
  | definedType | definedProperty | declared | definedInterface => simp [Allows, definitions]
  | created => rfl
  | assigned id property value target => exact ⟨by simp [setters], target⟩
  | styled _ setter id field value target => exact ⟨setter, target⟩
  | printed _ printer => exact printer
  | fetched | answered => trivial

theorem run_settles (operation : StandardOperation) (arguments : List Value) (world : World) :
    Settles (operation.run arguments) world (Changed world (operation.Allows arguments)) := by
  apply (operation.run_ends arguments world).weaken
  rintro value after ⟨change, makes, made⟩
  exact ⟨change, makes_allowed operation arguments world change value makes, made⟩

end StandardOperation

end CommandScript
