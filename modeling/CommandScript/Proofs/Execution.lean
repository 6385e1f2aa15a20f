import CommandScript.Execution
import CommandScript.Proofs.Effects
import CommandScript.Proofs.Text

set_option autoImplicit false

namespace CommandScript

namespace Tree

variable {α β : Type}

theorem find_map_children (f : α → β) (children : List (String × Tree α)) (key : String) :
    Table.find? (mapChildren f children) key = (Table.find? children key).map (map f) := by
  induction children with
  | nil => rfl
  | cons first rest ih =>
    obtain ⟨k, child⟩ := first
    by_cases same : k = key
    · rw [mapChildren, Table.find?, Table.find?, if_pos same, if_pos same, Option.map_some]
    · rw [mapChildren, Table.find?, Table.find?, if_neg same, if_neg same, ih]

theorem route_map_reached (f : α → β) (tree : Tree α) (path : List String) (leaf : β)
    (reached : (tree.map f).route path = .reached leaf) : ∃ own, tree.route path = .reached own ∧ leaf = f own := by
  induction path generalizing tree with
  | nil =>
    cases tree with
    | operation own => exact ⟨own, by simp [route], by simpa [map, route, eq_comm] using reached⟩
    | group children => simp [map, route] at reached
  | cons segment rest ih =>
    cases tree with
    | operation own => exact ⟨own, by simp [route], by simpa [map, route, eq_comm] using reached⟩
    | group children =>
      rw [map, route, find_map_children] at reached
      rw [route]
      cases found : Table.find? children segment with
      | none => simp [found] at reached
      | some child =>
        simp only [found, Option.map_some] at reached
        exact ih child reached

theorem route_map_of_reached (f : α → β) (tree : Tree α) (path : List String) (leaf : α)
    (reached : tree.route path = .reached leaf) : (tree.map f).route path = .reached (f leaf) := by
  induction path generalizing tree with
  | nil =>
    cases tree with
    | operation own => simpa [map, route] using congrArg f (Route.reached.inj (by simpa [route] using reached))
    | group children => simp [route] at reached
  | cons segment rest ih =>
    cases tree with
    | operation own => simpa [map, route] using congrArg f (Route.reached.inj (by simpa [route] using reached))
    | group children =>
      rw [route] at reached
      rw [map, route, find_map_children]
      cases found : Table.find? children segment with
      | none => simp [found] at reached
      | some child =>
        simp only [found] at reached
        exact ih child reached

end Tree

theorem dispatch_reached (path : List String) (arguments : List Value) (operation : StandardOperation)
    (reached : Catalog.standard.route path = .reached operation) :
    Catalog.tree.dispatch path arguments = ExceptT.adapt Stop.toFault (operation.run arguments) := by
  have routed := Tree.route_map_of_reached StandardOperation.toOperation Catalog.standard path operation reached
  rw [Tree.dispatch, Tree.dispatchFrom, List.drop_zero, Catalog.tree, routed]
  rfl

theorem dispatch_settles (path : List String) (arguments : List Value) (world : World) :
    Settles (Catalog.tree.dispatch path arguments) world fun _ after =>
      ∃ operation change, Catalog.standard.route path = .reached operation ∧
        operation.Allows arguments change ∧ after = world.apply change := by
  unfold Tree.dispatch Tree.dispatchFrom
  rw [List.drop_zero]
  cases routed : Catalog.tree.route path with
  | onNamespace => exact Settles.of_throw _ world _
  | missing segment => exact Settles.of_throw _ world _
  | reached leaf =>
    obtain ⟨operation, reached, rfl⟩ := Tree.route_map_reached _ _ path leaf routed
    apply Settles.adapt
    apply (operation.run_settles arguments world).weaken
    rintro value after ⟨change, allowed, applied⟩
    exact ⟨operation, change, reached, allowed, applied⟩

theorem Command.parse_trimmed (text : String) : parse (Text.trimmed text) = parse text := by
  simp only [parse, parseChars, Text.trimmed, String.toList_ofList, Text.trim_again]

theorem Command.read_trimmed_iff (text : String) (command : Command) :
    read (Text.trimmed text) = .ok command ↔ parse text = .ok command := by
  rw [read, parse_trimmed]
  cases parse text with
  | ok own => simp
  | error error => simp

namespace State

def bound (context : Context) (name : Option String) (value : Value) : Context :=
  match name with
  | some name => context.set name value
  | none => context

-- What a command that succeeds has done: one operation of the catalog made one of its changes, and
-- the value went to the variable that was named.
inductive Performed (state : State) (name : Option String) (text : String) (value : Value) : State → Prop where
  | intro (command : Command) (operation : StandardOperation) (change : Change) (read : Command.read text = .ok command)
      (reached : Catalog.standard.route command.path = .reached operation)
      (allowed : operation.Allows (state.context.resolveAll command.arguments) change) :
      Performed state name text value
        ⟨bound state.context (name <|> command.binding) value, state.world.apply change⟩

theorem on_world_run {α : Type} (work : ExceptT Fault (StateM World) α) (state : State) :
    (onWorld work).run state = ((work.run state.world).1, { state with world := (work.run state.world).2 }) := rfl

theorem on_world_settles {α : Type} (work : ExceptT Fault (StateM World) α) (state : State) (post : α → World → Prop)
    (settles : Settles work state.world post) :
    Settles (onWorld work) state fun value after => ∃ world, after = { state with world } ∧ post value world := by
  have run := on_world_run work state
  match own : work.run state.world with
  | (.ok value, world) =>
    rw [own] at run
    exact Settles.of_ok run ⟨world, rfl, settles.finished own⟩
  | (.error error, world) =>
    rw [own, settles.stopped own] at run
    exact Settles.of_error run

theorem bind_run (name : Option String) (value : Value) (state : State) :
    (State.bind name value).run state = (.ok (), { state with context := bound state.context name value }) := by
  cases name <;> rfl

-- A command that can be read ends as its operation does, and then the value is bound.
theorem attempt_run (tree : Tree Operation) (name : Option String) (text : String) (command : Command) (state : State)
    (read : Command.read text = .ok command) :
    (attempt tree name text).run state =
      match (tree.dispatch command.path (state.context.resolveAll command.arguments)).run state.world with
      | (.ok value, world) => (.ok value, ⟨bound state.context (name <|> command.binding) value, world⟩)
      | (.error fault, world) => (.error fault, { state with world }) := by
  have dispatched : (attempt tree name text).run state =
      (onWorld (tree.dispatch command.path (state.context.resolveAll command.arguments)) >>= fun value => do
        State.bind (name <|> command.binding) value
        return value).run state := by
    rw [attempt, read]
    rfl
  rw [dispatched, run_bind, on_world_run]
  match (tree.dispatch command.path (state.context.resolveAll command.arguments)).run state.world with
  | (.ok value, world) =>
    simp only [run_bind, bind_run]
    rfl
  | (.error fault, world) => rfl

theorem attempt_settles (name : Option String) (text : String) (state : State) :
    Settles (attempt Catalog.tree name text) state (Performed state name text) := by
  apply Settles.check_bind
  intro command read
  apply Settles.get_bind
  apply Settles.bind_total
  apply (on_world_settles _ state _ (dispatch_settles command.path _ state.world)).weaken
  rintro value after ⟨world, rfl, operation, change, reached, allowed, rfl⟩
  refine ⟨value, _, ?_, .intro command operation change read reached allowed⟩
  rw [run_bind, bind_run]
  rfl

theorem execute_with_run (tree : Tree Operation) (name : Option String) (text : String) (state : State) :
    state.executeWith tree name text = (⟨Text.trimmed text, ((attempt tree name (Text.trimmed text)).run state).1⟩,
      ((attempt tree name (Text.trimmed text)).run state).2) := by
  rw [executeWith]
  generalize (attempt tree name (Text.trimmed text)).run state = ended
  rfl

theorem execute_with_failed (name : Option String) (text : String) (state : State)
    (failed : (state.executeWith Catalog.tree name text).1.succeeded = false) :
    (state.executeWith Catalog.tree name text).2 = state := by
  have settles := attempt_settles name (Text.trimmed text) state
  rw [execute_with_run] at failed ⊢
  generalize run : (attempt Catalog.tree name (Text.trimmed text)).run state = ended at failed ⊢
  obtain ⟨result, after⟩ := ended
  cases result with
  | ok value => simp [Outcome.succeeded] at failed
  | error fault => exact settles.stopped run

theorem execute_with_reached (name : Option String) (text : String) (state : State) (command : Command)
    (operation : StandardOperation) (parsed : Command.parse text = .ok command)
    (reached : Catalog.standard.route command.path = .reached operation) :
    state.executeWith Catalog.tree name text =
      match (operation.run (state.context.resolveAll command.arguments)).run state.world with
      | (.ok value, world) => (⟨Text.trimmed text, .ok value⟩, ⟨bound state.context (name <|> command.binding) value, world⟩)
      | (.error stop, world) => (⟨Text.trimmed text, .error stop.toFault⟩, { state with world }) := by
  rw [execute_with_run, attempt_run _ name _ command state ((Command.read_trimmed_iff text command).mpr parsed), dispatch_reached _ _ _ reached]
  have renamed : (ExceptT.adapt Stop.toFault (operation.run (state.context.resolveAll command.arguments))).run state.world =
      (((operation.run (state.context.resolveAll command.arguments)).run state.world).1.mapError Stop.toFault,
        ((operation.run (state.context.resolveAll command.arguments)).run state.world).2) := rfl
  rw [renamed]
  match (operation.run (state.context.resolveAll command.arguments)).run state.world with
  | (.ok value, world) => rfl
  | (.error stop, world) => rfl

-- A command succeeds only through the operation that its path reaches.
theorem succeeded_reached (name : Option String) (text : String) (state : State) (value : Value)
    (succeeded : (state.executeWith Catalog.tree name text).1.result = .ok value) :
    ∃ command operation, Command.parse text = .ok command ∧ Catalog.standard.route command.path = .reached operation := by
  rw [execute_with_run] at succeeded
  match run : (attempt Catalog.tree name (Text.trimmed text)).run state with
  | (.ok own, after) =>
    obtain ⟨command, operation, change, read, reached, allowed⟩ := (attempt_settles name (Text.trimmed text) state).finished run
    exact ⟨command, operation, (Command.read_trimmed_iff text command).mp read, reached⟩
  | (.error fault, after) => simp [run] at succeeded

-- A command fails and changes nothing, or ends as its operation does and binds the value.
theorem execute_with_cases (name : Option String) (text : String) (state : State) :
    (∃ fault, state.executeWith Catalog.tree name text = (⟨Text.trimmed text, .error fault⟩, state)) ∨
    ∃ command operation value world, Command.parse text = .ok command ∧
      Catalog.standard.route command.path = .reached operation ∧
      (operation.run (state.context.resolveAll command.arguments)).run state.world = (.ok value, world) ∧
      state.executeWith Catalog.tree name text =
        (⟨Text.trimmed text, .ok value⟩, ⟨bound state.context (name <|> command.binding) value, world⟩) := by
  rcases run : (attempt Catalog.tree name (Text.trimmed text)).run state with ⟨result, after⟩
  have ended : state.executeWith Catalog.tree name text = (⟨Text.trimmed text, result⟩, after) := by
    rw [execute_with_run, run]
  cases result with
  | error fault =>
    obtain rfl := (attempt_settles name (Text.trimmed text) state).stopped run
    exact .inl ⟨fault, ended⟩
  | ok value =>
    obtain ⟨command, operation, parsed, reached⟩ := succeeded_reached name text state value (by rw [ended])
    rw [execute_with_reached name text state command operation parsed reached] at ended ⊢
    rcases work : (operation.run (state.context.resolveAll command.arguments)).run state.world with ⟨own, world⟩
    cases own with
    | error stop => simp [work] at ended
    | ok own => exact .inr ⟨command, operation, own, world, parsed, reached, work, rfl⟩

-- The lines of a run whose outcomes are successes.
def succeededLines (lines : List String) (outcomes : List Outcome) : List String :=
  ((lines.zip outcomes).filter fun entry => entry.2.succeeded).map Prod.fst

theorem execute_all_cons (tree : Tree Operation) (line : String) (rest : List String) (state : State) :
    state.executeAll tree (line :: rest) =
      ((state.execute tree line).1 :: ((state.execute tree line).2.executeAll tree rest).1,
        ((state.execute tree line).2.executeAll tree rest).2) := by
  rw [executeAll]

theorem execute_all_append (tree : Tree Operation) (lines rest : List String) (state : State) :
    state.executeAll tree (lines ++ rest) =
      ((state.executeAll tree lines).1 ++ ((state.executeAll tree lines).2.executeAll tree rest).1,
        ((state.executeAll tree lines).2.executeAll tree rest).2) := by
  induction lines generalizing state with
  | nil => rfl
  | cons line others ih => rw [List.cons_append, execute_all_cons, execute_all_cons, ih, List.cons_append]

theorem execute_all_succeeded_lines (lines : List String) (state : State) :
    state.executeAll Catalog.tree (succeededLines lines (state.executeAll Catalog.tree lines).1) =
      ((state.executeAll Catalog.tree lines).1.filter Outcome.succeeded, (state.executeAll Catalog.tree lines).2) := by
  induction lines generalizing state with
  | nil => rfl
  | cons line rest ih =>
    rw [execute_all_cons]
    cases outcome : (state.execute Catalog.tree line).1.succeeded with
    | true =>
      have kept : succeededLines (line :: rest) ((state.execute Catalog.tree line).1 ::
          ((state.execute Catalog.tree line).2.executeAll Catalog.tree rest).1) =
          line :: succeededLines rest ((state.execute Catalog.tree line).2.executeAll Catalog.tree rest).1 := by
        simp [succeededLines, outcome]
      rw [kept, execute_all_cons, ih, List.filter_cons_of_pos outcome]
    | false =>
      have same : (state.execute Catalog.tree line).2 = state := execute_with_failed none line state outcome
      have dropped : succeededLines (line :: rest) ((state.execute Catalog.tree line).1 ::
          ((state.execute Catalog.tree line).2.executeAll Catalog.tree rest).1) =
          succeededLines rest (state.executeAll Catalog.tree rest).1 := by
        simp [succeededLines, outcome, same]
      rw [dropped, same, ih, List.filter_cons_of_neg (by simp [outcome])]

theorem failed_commands_leave_no_trace (state : State) :
    (∀ text, (state.execute Catalog.tree text).1.succeeded = false → (state.execute Catalog.tree text).2 = state) ∧
    (∀ name text, (state.executeAndStore Catalog.tree name text).1.succeeded = false →
      (state.executeAndStore Catalog.tree name text).2 = state) ∧
    ∀ lines, state.executeAll Catalog.tree (succeededLines lines (state.executeAll Catalog.tree lines).1) =
      ((state.executeAll Catalog.tree lines).1.filter Outcome.succeeded, (state.executeAll Catalog.tree lines).2) := by
  refine ⟨fun text failed => ?_, fun name text failed => ?_, fun lines => ?_⟩
  · exact execute_with_failed none text state failed
  · exact execute_with_failed (some name) text state failed
  · exact execute_all_succeeded_lines lines state

-- The first command crashes on a bound that is no number, the second is refused by the registry.
theorem crash_and_refusal_leave_no_trace :
    ∃ state : State, state.context.size = 1 ∧
      (state.execute Catalog.tree "$y = Engine.Mathf.Clamp(1, $n, 2)").2 = state ∧
      (state.executeAndStore Catalog.tree "x" "SFScript.Type.Define('Text', null)").2 = state := by
  have trace := failed_commands_leave_no_trace ⟨Context.empty.set "n" (.float .signallingNaN), World.initial⟩
  exact ⟨_, rfl, trace.1 _ (by decide +kernel), trace.2.1 _ _ (by decide +kernel)⟩

end State

end CommandScript
