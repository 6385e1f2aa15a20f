import CommandScript.Proofs.Alike
import CommandScript.Proofs.Catalog
import CommandScript.Proofs.Plain

set_option autoImplicit false

namespace CommandScript

-- Whether a command reaches an operation under a key of the catalog.
def Command.reachesUnder (key text : String) : Bool :=
  match parse text with
  | .ok command =>
    match Catalog.standard.route command.path with
    | .reached _ => command.path.head? == some key
    | .onNamespace | .missing _ => false
  | .error _ => false

theorem Value.Computed.plain {value : Value} (computed : value.Computed) : value.Plain := by
  cases computed <;> rfl

-- What a command may do that has no component to work on.
def Harmless (world : World) (value : Value) (after : World) : Prop :=
  value.Plain ∧ world.Alike after

variable {world : World}

theorem checked_harmless (check : Except Stop Value) (computed : Yields check Value.Computed) :
    Settles (liftM check : Action Value) world (Harmless world) :=
  Settles.of_check fun value passed => ⟨(computed value passed).plain, rfl, rfl⟩

theorem print_harmless (text : String) :
    Settles (do Action.print text; return .null : Action Value) world (Harmless world) :=
  Settles.of_ok rfl ⟨rfl, rfl, rfl⟩

-- Operations on the user interface stop at a first argument that is no component.
theorem plain_arguments_stop (call : Call) (kind : Builtin) (count : Nat) (rest : ComponentId → Action Value)
    (plain : ∀ value ∈ call.arguments, value.Plain) (post : Value → World → Prop) :
    Settles (do call.need count; rest (← builtinArgument call kind) : Action Value) world post := by
  apply Settles.check_bind
  intro _ _
  apply Settles.read_bind
  apply (builtin_argument_settles call kind).weaken
  rintro id after ⟨_, first, _⟩
  exact absurd (plain (.component id) (List.mem_of_getElem? first)) (Value.component_not_plain id)

theorem StandardOperation.run_harmless (operation : StandardOperation) (arguments : List Value)
    (outside : operation.path.head? ≠ some "SFScript") (plain : ∀ value ∈ arguments, value.Plain) :
    Settles (operation.run arguments) world (Harmless world) := by
  cases operation with
  | type operation => exact absurd rfl outside
  | interface operation => exact absurd rfl outside
  | console operation =>
    apply Settles.get_bind
    cases operation with
    | writeLine | write => exact print_harmless _
  | debug operation => exact Settles.get_bind (print_harmless _)
  | vector operation => exact checked_harmless _ (operation.run_computed arguments)
  | math operation => exact checked_harmless _ (operation.run_computed arguments)
  | color operation => exact checked_harmless _ (operation.run_computed arguments)
  | text operation =>
    cases operation with
    | setText | getText | setFontSize | getFontSize | setColor | getColor => exact plain_arguments_stop _ _ _ _ plain _
  | image operation =>
    cases operation with
    | setColor | getColor | setFillAmount | getFillAmount => exact plain_arguments_stop _ _ _ _ plain _

namespace State

theorem bound_plain (context : Context) (name : Option String) (value : Value) (plain : context.Plain) (fresh : value.Plain) :
    (bound context name value).Plain := by
  cases name with
  | none => exact plain
  | some name => exact context.set_plain name value plain fresh

-- A command that stays clear of types and components leaves the world to others as it was, and
-- gets no component into its own variables.
theorem execute_quiet (text : String) (state : State) (outside : Command.reachesUnder "SFScript" text = false)
    (plain : state.context.Plain) :
    (state.execute Catalog.tree text).2.context.Plain ∧ state.world.Alike (state.execute Catalog.tree text).2.world := by
  rw [execute]
  rcases execute_with_cases none text state with
    ⟨fault, ended⟩ | ⟨command, operation, value, world, parsed, reached, run, ended⟩
  · rw [ended]
    exact ⟨plain, rfl, rfl⟩
  · have away : operation.path.head? ≠ some "SFScript" := by
      simp only [Command.reachesUnder, parsed, reached, beq_eq_false_iff_ne] at outside
      obtain ⟨rest, leads⟩ := Catalog.reached_under_path command.path operation reached
      rw [← leads] at outside
      cases operation <;> exact outside
    have arguments := state.context.resolve_all_plain command.arguments plain (Command.parse_plain text command parsed)
    obtain ⟨fresh, alike⟩ := (operation.run_harmless _ away arguments).finished run
    rw [ended]
    exact ⟨bound_plain state.context _ value plain fresh, alike⟩

theorem execute_all_quiet (lines : List String) (state : State)
    (outside : ∀ line ∈ lines, Command.reachesUnder "SFScript" line = false) (plain : state.context.Plain) :
    (state.executeAll Catalog.tree lines).2.context.Plain ∧
      state.world.Alike (state.executeAll Catalog.tree lines).2.world := by
  induction lines generalizing state with
  | nil => exact ⟨plain, rfl, rfl⟩
  | cons line rest ih =>
    obtain ⟨first, others⟩ := List.forall_mem_cons.mp outside
    obtain ⟨stillPlain, now⟩ := execute_quiet line state first plain
    obtain ⟨finallyPlain, later⟩ := ih _ others stillPlain
    rw [execute_all_cons]
    exact ⟨finallyPlain, now.registry.trans later.registry, now.store.trans later.store⟩

end State

end CommandScript
