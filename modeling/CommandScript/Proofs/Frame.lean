import CommandScript.Proofs.Catalog
import CommandScript.Proofs.Component.Store
import CommandScript.Proofs.Execution
import CommandScript.Proofs.Plain

set_option autoImplicit false

namespace CommandScript

-- What a command may do to the shared state.
inductive Effect where
  | registration
  | creation
  | write
  | output
deriving DecidableEq, Repr

namespace Effect

def Occurs (before after : World) : Effect → Prop
  | .registration => after.registry ≠ before.registry
  | .creation => after.store.size ≠ before.store.size
  | .write => ∃ id < before.store.size, after.store.get id ≠ before.store.get id
  | .output => after.output ≠ before.output

-- The places of the catalog from which an effect may come.
def sites : Effect → List (List String)
  | .registration =>
    [["SFScript", "Type", "Define"], ["SFScript", "Type", "DefineProperty"], ["SFScript", "Type", "Implement"],
      ["SFScript", "Interface", "Define"]]
  | .creation => [["SFScript", "Type", "Create"]]
  | .write =>
    [["SFScript", "Type", "SetProperty"], ["Engine", "UI", "Text", "SetText"], ["Engine", "UI", "Text", "SetFontSize"],
      ["Engine", "UI", "Text", "SetColor"], ["Engine", "UI", "Image", "SetColor"], ["Engine", "UI", "Image", "SetFillAmount"]]
  | .output => [["System", "Console"], ["Engine", "Debug"]]

end Effect

def Change.effect : Change → Option Effect
  | .nothing => none
  | .register _ => some .registration
  | .create _ => some .creation
  | .write _ _ _ => some .write
  | .print _ => some .output

theorem effect_of_change (world : World) (change : Change) (effect : Effect)
    (occurs : effect.Occurs world (world.apply change)) : change.effect = some effect := by
  cases change with
  | nothing => cases effect <;> simp [Effect.Occurs, World.apply] at occurs
  | register request =>
    cases effect with
    | registration => rfl
    | creation | write | output => simp [Effect.Occurs, World.apply] at occurs
  | create component =>
    cases effect with
    | creation => rfl
    | write =>
      obtain ⟨id, known, changed⟩ := occurs
      exact absurd (Store.get_create_known world.store component id known) changed
    | registration | output => simp [Effect.Occurs, World.apply] at occurs
  | write id field value =>
    cases effect with
    | write => rfl
    | registration | creation | output => simp [Effect.Occurs, World.apply] at occurs
  | print text =>
    cases effect with
    | output => rfl
    | registration | creation | write => simp [Effect.Occurs, World.apply] at occurs

theorem site_of_allowed (operation : StandardOperation) (arguments : List Value) (change : Change) (effect : Effect)
    (allowed : operation.Allows arguments change) (made : change.effect = some effect) :
    ∃ site ∈ effect.sites, site <+: operation.path := by
  cases change with
  | nothing => simp [Change.effect] at made
  | register request =>
    obtain rfl := Option.some.inj made
    have placed : ∀ own ∈ StandardOperation.definitions, own.path ∈ Effect.registration.sites := by decide
    exact ⟨operation.path, placed operation allowed, List.prefix_rfl⟩
  | create component =>
    obtain rfl := Option.some.inj made
    obtain rfl : operation = .type .create := allowed
    exact ⟨_, List.mem_cons_self, List.prefix_rfl⟩
  | write id field value =>
    obtain rfl := Option.some.inj made
    have placed : ∀ own ∈ StandardOperation.setters, own.path ∈ Effect.write.sites := by decide
    exact ⟨operation.path, placed operation allowed.1, List.prefix_rfl⟩
  | print text =>
    obtain rfl := Option.some.inj made
    have placed : ∀ own ∈ StandardOperation.printers, ∃ site ∈ Effect.output.sites, site <+: own.path := by decide
    exact placed operation allowed

theorem output_of_change (world : World) (change : Change) : ∃ text, (world.apply change).output = world.output.write text := by
  have nothing : world.output = world.output.write "" := by
    cases output : world.output with
    | kept text => rw [Output.write, String.append_empty]
    | discarded => rfl
  cases change with
  | nothing | register | create | write => exact ⟨"", nothing⟩
  | print text => exact ⟨text, rfl⟩

theorem size_of_change (world : World) (change : Change) : world.store.size ≤ (world.apply change).store.size := by
  cases change <;> simp [World.apply]

-- One field of one component may differ.
structure Confined (before after : Store) (id : ComponentId) (field : String) : Prop where
  others : ∀ other, other < before.size → other ≠ id → after.get other = before.get other
  type : (after.get id).type = (before.get id).type
  fields : ∀ key, key ≠ field → (after.get id).get? key = (before.get id).get? key

theorem write_confined (store : Store) (id : ComponentId) (field : String) (value : Value) :
    Confined store (store.write id field value) id field := by
  refine ⟨fun other _ different => Store.get_write_other store id other field value different, ?_, ?_⟩
  · by_cases known : id < store.size
    · rw [Store.get_write_same store id field value known, Component.put_type]
    · rw [Store.get_beyond _ id (by simpa using known), Store.get_beyond store id (by simpa using known)]
  · intro key different
    by_cases known : id < store.size
    · rw [Store.get_write_same store id field value known, Component.get_put, if_neg different]
    · rw [Store.get_beyond _ id (by simpa using known), Store.get_beyond store id (by simpa using known)]

namespace State

-- All that a command may change, given the name under which its value is to be stored, if any.
structure Framed (state : State) (name : Option String) (text : String) (ended : Outcome × State) : Prop where
  refused : ended.1.succeeded = false → ended.2.context = state.context
  stored : ∀ value, ended.1.result = .ok value → ∃ command, Command.parse text = .ok command ∧
    ∀ query, ended.2.context.get? query =
      if (name <|> command.binding) = some query then some value else state.context.get? query
  placed : ∀ effect : Effect, effect.Occurs state.world ended.2.world → ∃ command, Command.parse text = .ok command ∧
    ∃ site ∈ effect.sites, site <+: command.path
  confined : Effect.write.Occurs state.world ended.2.world → ∃ command id field, Command.parse text = .ok command ∧
    (state.context.resolveAll command.arguments)[0]? = some (.component id) ∧
    Confined state.world.store ended.2.world.store id field
  kept : state.world.store.size ≤ ended.2.world.store.size
  appended : ∃ added, ended.2.world.output = state.world.output.write added
  single : ∀ first second : Effect, first.Occurs state.world ended.2.world → second.Occurs state.world ended.2.world →
    first = second

theorem unchanged_framed (state : State) (name : Option String) (text : String) (outcome : Outcome)
    (failed : outcome.succeeded = false) : Framed state name text (outcome, state) := by
  have silent (effect : Effect) (occurs : effect.Occurs state.world state.world) : False := by
    cases effect_of_change state.world .nothing effect occurs
  refine ⟨fun _ => rfl, fun value result => ?_, fun effect occurs => (silent effect occurs).elim,
    fun occurs => (silent .write occurs).elim, Nat.le_refl _, output_of_change state.world .nothing,
    fun first _ occurs _ => (silent first occurs).elim⟩
  have succeeded : outcome.result = .ok value := result
  simp [Outcome.succeeded, succeeded] at failed

theorem bound_get (context : Context) (name : Option String) (value : Value) (query : String) :
    (bound context name value).get? query = if name = some query then some value else context.get? query := by
  cases name with
  | none => simp [bound]
  | some name =>
    rw [bound, Context.get_set]
    simp [eq_comm]

theorem performed_framed (state after : State) (name : Option String) (text : String) (value : Value) (outcome : Outcome)
    (succeeded : outcome.result = .ok value) (performed : Performed state name (Text.trimmed text) value after) :
    Framed state name text (outcome, after) := by
  obtain ⟨command, operation, change, read, reached, allowed⟩ := performed
  have parsed := (Command.read_trimmed_iff text command).mp read
  have leads := Catalog.reached_under_path command.path operation reached
  refine ⟨fun failed => ?_, fun other result => ⟨command, parsed, fun query => ?_⟩, fun effect occurs => ⟨command, parsed, ?_⟩,
    fun occurs => ?_, size_of_change state.world change, output_of_change state.world change, fun first second one two => ?_⟩
  · simp [Outcome.succeeded, succeeded] at failed
  · obtain rfl := Except.ok.inj (succeeded.symm.trans result)
    exact bound_get state.context (name <|> command.binding) value query
  · have made := effect_of_change state.world change effect occurs
    obtain ⟨site, listed, above⟩ := site_of_allowed operation _ change effect allowed made
    exact ⟨site, listed, above.trans leads⟩
  · have made := effect_of_change state.world change .write occurs
    cases change with
    | write id field content => exact ⟨command, id, field, parsed, allowed.2, write_confined state.world.store id field content⟩
    | nothing | register | create | print => simp [Change.effect] at made
  · have made := effect_of_change state.world change first one
    rw [effect_of_change state.world change second two] at made
    exact (Option.some.inj made).symm

theorem execute_with_framed (state : State) (name : Option String) (text : String) :
    Framed state name text (state.executeWith Catalog.tree name text) := by
  have settles := attempt_settles name (Text.trimmed text) state
  rw [execute_with_run]
  match run : (attempt Catalog.tree name (Text.trimmed text)).run state with
  | (.ok value, after) => exact performed_framed state after name text value _ rfl (settles.finished run)
  | (.error fault, after) =>
    obtain rfl := settles.stopped run
    exact unchanged_framed after name text _ rfl

-- A command binds at most one variable, and has at most one effect, from a place that allows it.
theorem commands_stay_in_frame (state : State) (text : String) :
    Framed state none text (state.execute Catalog.tree text) ∧
      ∀ name, Framed state (some name) text (state.executeAndStore Catalog.tree name text) :=
  ⟨execute_with_framed state none text, fun name => execute_with_framed state (some name) text⟩

def labelled : State :=
  ⟨Context.empty.set "label" (.component 0), { World.initial with store := Store.empty.create (Component.ofBuiltin .text) }⟩

theorem set_text_only_writes :
    Effect.write.Occurs labelled.world (labelled.execute Catalog.tree "$same = Engine.UI.Text.SetText($label, 'on')").2.world ∧
      ∀ effect : Effect, effect.Occurs labelled.world
        (labelled.execute Catalog.tree "$same = Engine.UI.Text.SetText($label, 'on')").2.world → effect = .write := by
  have frame := (commands_stay_in_frame labelled "$same = Engine.UI.Text.SetText($label, 'on')").1
  have wrote : Effect.write.Occurs labelled.world
      (labelled.execute Catalog.tree "$same = Engine.UI.Text.SetText($label, 'on')").2.world :=
    ⟨0, by decide, fun same => absurd (congrArg (Store.componentText fun _ => "") same) (by decide +kernel)⟩
  exact ⟨wrote, fun effect occurs => frame.single effect .write occurs wrote⟩

end State

end CommandScript
