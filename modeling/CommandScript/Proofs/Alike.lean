import CommandScript.Proofs.Execution

set_option autoImplicit false

namespace CommandScript

variable {σ ε ε' α β : Type}

-- Two pieces of work that, from related states, end with one result and in related states.
def Agree (related : σ → σ → Prop) (left right : ExceptT ε (StateM σ) α) : Prop :=
  ∀ first second, related first second →
    (left.run first).1 = (right.run second).1 ∧ related (left.run first).2 (right.run second).2

namespace Agree

variable {related : σ → σ → Prop}

theorem of_pure (value : α) : Agree related (pure value : ExceptT ε (StateM σ) α) (pure value) :=
  fun _ _ relates => ⟨rfl, relates⟩

theorem of_throw (error : ε) : Agree related (throw error : ExceptT ε (StateM σ) α) (throw error) :=
  fun _ _ relates => ⟨rfl, relates⟩

theorem of_set {next other : σ} (relates : related next other) :
    Agree related (set next : ExceptT ε (StateM σ) PUnit) (set other) :=
  fun _ _ _ => ⟨rfl, relates⟩

theorem of_check (check : Except ε α) : Agree related (liftM check : ExceptT ε (StateM σ) α) (liftM check) := by
  cases check with
  | ok value => exact of_pure value
  | error error => exact of_throw error

theorem bind {left right : ExceptT ε (StateM σ) α} {leftRest rightRest : α → ExceptT ε (StateM σ) β}
    (works : Agree related left right) (rests : ∀ value, Agree related (leftRest value) (rightRest value)) :
    Agree related (left >>= leftRest) (right >>= rightRest) := by
  intro first second relates
  have ends := works first second relates
  rw [run_bind, run_bind]
  match leftRun : left.run first, rightRun : right.run second with
  | (.ok value, after), (.ok other, final) =>
    rw [leftRun, rightRun] at ends
    obtain rfl := Except.ok.inj ends.1
    exact rests value after final ends.2
  | (.error error, after), (.error other, final) =>
    rw [leftRun, rightRun] at ends
    obtain rfl := Except.error.inj ends.1
    exact ⟨rfl, ends.2⟩
  | (.ok value, after), (.error error, final) => simp [leftRun, rightRun] at ends
  | (.error error, after), (.ok value, final) => simp [leftRun, rightRun] at ends

theorem check_bind {check : Except ε α} {leftRest rightRest : α → ExceptT ε (StateM σ) β}
    (rests : ∀ value, Agree related (leftRest value) (rightRest value)) :
    Agree related (liftM check >>= leftRest) (liftM check >>= rightRest) :=
  bind (of_check check) rests

theorem get_bind {leftRest rightRest : σ → ExceptT ε (StateM σ) β}
    (rests : ∀ first second, related first second → Agree related (leftRest first) (rightRest second)) :
    Agree related (get >>= leftRest) (get >>= rightRest) :=
  fun first second relates => rests first second relates first second relates

theorem adapt {left right : ExceptT ε (StateM σ) α} (works : Agree related left right) (rename : ε → ε') :
    Agree related (ExceptT.adapt rename left) (ExceptT.adapt rename right) := by
  intro first second relates
  obtain ⟨same, after⟩ := works first second relates
  have renamed (work : ExceptT ε (StateM σ) α) (state : σ) : (ExceptT.adapt rename work).run state =
      ((work.run state).1.mapError rename, (work.run state).2) := rfl
  rw [renamed, renamed, same]
  exact ⟨rfl, after⟩

end Agree

-- Worlds that differ at most in what was written out.
structure World.Alike (first second : World) : Prop where
  registry : first.registry = second.registry
  store : first.store = second.store

-- Work that never looks at the output.
abbrev Unseeing (work : Action α) : Prop :=
  Agree World.Alike work work

namespace Action

theorem register_unseeing (work : Registration Unit) : Unseeing (register work) := by
  intro first second alike
  rw [register_run, register_run, alike.registry]
  exact ⟨rfl, rfl, alike.store⟩

theorem create_unseeing (component : Component) : Unseeing (create component) := by
  apply Agree.get_bind
  intro first second alike
  rw [alike.store]
  exact .bind (.of_set ⟨alike.registry, rfl⟩) fun _ => .of_pure _

theorem assign_unseeing (id : ComponentId) (field : String) (value : Value) : Unseeing (assign id field value) := by
  apply Agree.get_bind
  intro first second alike
  simp only [alike.store]
  split
  · exact .bind (.of_throw _) fun _ => .of_set ⟨alike.registry, rfl⟩
  · exact .of_set ⟨alike.registry, rfl⟩

theorem print_unseeing (text : String) : Unseeing (print text) :=
  fun _ _ alike => ⟨rfl, alike.registry, alike.store⟩

end Action

theorem answer_unseeing (first : Except Stop α) (answer : α → World → Value)
    (same : ∀ value left right, World.Alike left right → answer value left = answer value right) :
    Unseeing (do return answer (← first) (← get) : Action Value) := by
  apply Agree.check_bind
  intro value
  apply Agree.get_bind
  intro left right alike
  rw [same value left right alike]
  exact .of_pure _

theorem answer_two_unseeing (need : Except Stop Unit) (first : Except Stop α) (second : Except Stop β)
    (answer : α → β → World → Value)
    (same : ∀ value other left right, World.Alike left right → answer value other left = answer value other right) :
    Unseeing (do need; return answer (← first) (← second) (← get) : Action Value) := by
  apply Agree.check_bind
  intro _
  apply Agree.check_bind
  intro value
  exact answer_unseeing second (answer value) (same value)

namespace TypeOperation

theorem define_unseeing (call : Call) : Unseeing (runDefine call) := by
  refine .check_bind fun _ => .check_bind fun name => .check_bind fun parent => .check_bind fun interfaces => ?_
  exact .bind (Action.register_unseeing _) fun _ => .of_pure _

theorem define_property_unseeing (call : Call) : Unseeing (runDefineProperty call) := by
  refine .check_bind fun _ => .check_bind fun type => .check_bind fun property => ?_
  exact .bind (Action.register_unseeing _) fun _ => .of_pure _

theorem implement_unseeing (call : Call) : Unseeing (runImplement call) := by
  refine .check_bind fun _ => .check_bind fun type => .check_bind fun interface => ?_
  exact .bind (Action.register_unseeing _) fun _ => .of_pure _

theorem create_unseeing (call : Call) : Unseeing (runCreate call) := by
  apply Agree.check_bind
  intro type
  apply Agree.get_bind
  intro left right alike
  rw [alike.registry]
  cases right.registry.newComponent type with
  | ok component => exact .bind (Action.create_unseeing component) fun _ => .of_pure _
  | error error => exact .of_check _

theorem set_property_unseeing (call : Call) : Unseeing (runSetProperty call) := by
  apply Agree.check_bind
  intro _
  apply Agree.check_bind
  intro id
  apply Agree.check_bind
  intro property
  have assigned : Unseeing (do Action.assign id property (call.value 2); return .component id : Action Value) :=
    .bind (Action.assign_unseeing id property (call.value 2)) fun _ => .of_pure _
  split
  · exact .check_bind fun _ => assigned
  · exact assigned

theorem run_unseeing (operation : TypeOperation) (arguments : List Value) : Unseeing (operation.run arguments) := by
  cases operation with
  | define => exact define_unseeing _
  | defineProperty => exact define_property_unseeing _
  | implement => exact implement_unseeing _
  | create => exact create_unseeing _
  | setProperty => exact set_property_unseeing _
  | is => exact answer_two_unseeing _ _ _ _ fun _ _ _ _ alike => by rw [alike.registry, alike.store]
  | isSubclassOf | implementsInterface => exact answer_two_unseeing _ _ _ _ fun _ _ _ _ alike => by rw [alike.registry]
  | getProperty => exact answer_two_unseeing _ _ _ _ fun _ _ _ _ alike => by rw [alike.store]
  | getTypeName => exact answer_unseeing _ _ fun _ _ _ alike => by rw [alike.store]

end TypeOperation

theorem InterfaceOperation.run_unseeing (operation : InterfaceOperation) (arguments : List Value) :
    Unseeing (operation.run arguments) := by
  cases operation with
  | define =>
    refine .check_bind fun _ => .check_bind fun name => .check_bind fun parents => ?_
    exact .bind (Action.register_unseeing _) fun _ => .of_pure _
  | isDefined => exact answer_unseeing _ _ fun _ _ _ alike => by rw [alike.registry]

theorem message_alike (first second : World) (alike : World.Alike first second) (arguments : List Value) :
    messageOf first arguments = messageOf second arguments := by
  unfold messageOf World.text
  rw [alike.store]

theorem ConsoleOperation.run_unseeing (operation : ConsoleOperation) (arguments : List Value) :
    Unseeing (operation.run arguments) := by
  apply Agree.get_bind
  intro left right alike
  rw [message_alike left right alike]
  cases operation with
  | writeLine | write => exact .bind (Action.print_unseeing _) fun _ => .of_pure _

theorem DebugOperation.run_unseeing (operation : DebugOperation) (arguments : List Value) :
    Unseeing (operation.run arguments) := by
  apply Agree.get_bind
  intro left right alike
  rw [message_alike left right alike]
  exact .bind (Action.print_unseeing _) fun _ => .of_pure _

theorem builtin_argument_unseeing (call : Call) (kind : Builtin) : Unseeing (builtinArgument call kind) := by
  apply Agree.check_bind
  intro id
  apply Agree.get_bind
  intro left right alike
  simp only [alike.store]
  split
  · exact .of_pure id
  · exact .of_check _

theorem read_field_unseeing (call : Call) (kind : Builtin) (field : String) : Unseeing (readField call kind field) := by
  apply Agree.check_bind
  intro _
  apply Agree.bind (builtin_argument_unseeing call kind)
  intro id
  apply Agree.get_bind
  intro left right alike
  rw [alike.store]
  exact .of_pure _

theorem write_field_unseeing (call : Call) (kind : Builtin) (field : String) (value : Action Value) (reads : Unseeing value) :
    Unseeing (writeField call kind field value) := by
  apply Agree.check_bind
  intro _
  apply Agree.bind (builtin_argument_unseeing call kind)
  intro id
  apply Agree.bind reads
  intro content
  exact .bind (Action.assign_unseeing id field content) fun _ => .of_pure _

theorem text_value_unseeing (call : Call) : Unseeing (textValue call) := by
  unfold textValue
  split
  · exact .of_pure _
  · apply Agree.get_bind
    intro left right alike
    rw [World.text, World.text, alike.store]
    exact .of_pure _

-- No operation of the catalog reads what was written out.
theorem StandardOperation.run_unseeing (operation : StandardOperation) (arguments : List Value) :
    Unseeing (operation.run arguments) := by
  cases operation with
  | type operation => exact operation.run_unseeing arguments
  | interface operation => exact operation.run_unseeing arguments
  | console operation => exact operation.run_unseeing arguments
  | debug operation => exact operation.run_unseeing arguments
  | vector operation => exact .of_check (operation.run arguments)
  | math operation => exact .of_check (operation.run arguments)
  | color operation => exact .of_check (operation.run arguments)
  | text operation =>
    cases operation with
    | setText => exact write_field_unseeing _ _ _ _ (text_value_unseeing _)
    | setFontSize | setColor => exact write_field_unseeing _ _ _ _ (.of_check _)
    | getText | getFontSize | getColor => exact read_field_unseeing _ _ _
  | image operation =>
    cases operation with
    | setColor | setFillAmount => exact write_field_unseeing _ _ _ _ (.of_check _)
    | getColor | getFillAmount => exact read_field_unseeing _ _ _

theorem dispatch_agrees (path : List String) (arguments : List Value) :
    Agree World.Alike (Catalog.tree.dispatch path arguments) (Catalog.tree.dispatch path arguments) := by
  unfold Tree.dispatch Tree.dispatchFrom
  rw [List.drop_zero]
  cases routed : Catalog.tree.route path with
  | onNamespace => exact .of_throw _
  | missing segment => exact .of_throw _
  | reached leaf =>
    obtain ⟨operation, _, rfl⟩ := Tree.route_map_reached _ _ path leaf routed
    exact .adapt (operation.run_unseeing arguments) Stop.toFault

namespace State

structure Alike (first second : State) : Prop where
  context : first.context = second.context
  world : first.world.Alike second.world

theorem on_world_agrees (work : ExceptT Fault (StateM World) α) (agrees : Agree World.Alike work work) :
    Agree Alike (onWorld work) (onWorld work) := by
  intro first second alike
  obtain ⟨same, worlds⟩ := agrees first.world second.world alike.world
  rw [on_world_run, on_world_run]
  exact ⟨same, alike.context, worlds⟩

theorem bind_agrees (name : Option String) (value : Value) : Agree Alike (State.bind name value) (State.bind name value) := by
  intro first second alike
  rw [bind_run, bind_run, alike.context]
  exact ⟨rfl, rfl, alike.world⟩

theorem attempt_agrees (name : Option String) (text : String) :
    Agree Alike (attempt Catalog.tree name text) (attempt Catalog.tree name text) := by
  apply Agree.check_bind
  intro command
  apply Agree.get_bind
  intro first second alike
  rw [alike.context]
  apply Agree.bind (on_world_agrees _ (dispatch_agrees command.path _))
  intro value
  exact .bind (bind_agrees (name <|> command.binding) value) fun _ => .of_pure value

theorem execute_alike (text : String) (first second : State) (alike : first.Alike second) :
    (first.execute Catalog.tree text).1 = (second.execute Catalog.tree text).1 ∧
      (first.execute Catalog.tree text).2.Alike (second.execute Catalog.tree text).2 := by
  obtain ⟨same, after⟩ := attempt_agrees none (Text.trimmed text) first second alike
  rw [execute, execute, execute_with_run, execute_with_run, same]
  dsimp only
  exact ⟨rfl, after⟩

theorem execute_all_alike (lines : List String) (first second : State) (alike : first.Alike second) :
    (first.executeAll Catalog.tree lines).1 = (second.executeAll Catalog.tree lines).1 ∧
      (first.executeAll Catalog.tree lines).2.Alike (second.executeAll Catalog.tree lines).2 := by
  induction lines generalizing first second with
  | nil => exact ⟨rfl, alike⟩
  | cons line rest ih =>
    obtain ⟨same, next⟩ := execute_alike line first second alike
    obtain ⟨others, final⟩ := ih _ _ next
    rw [execute_all_cons, execute_all_cons]
    exact ⟨congrArg₂ List.cons same others, final⟩

end State

end CommandScript
