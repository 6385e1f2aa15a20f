import CommandScript.Proofs.Frame

set_option autoImplicit false

namespace CommandScript

variable {ε σ α β : Type} {allowed : ε → Prop}

-- A check that refuses for allowed reasons only.
def RefusesFor (allowed : ε → Prop) (check : Except ε α) : Prop :=
  ∀ error, check = .error error → allowed error

namespace RefusesFor

theorem of_ok (value : α) : RefusesFor allowed (.ok value : Except ε α) :=
  fun _ never => nomatch never

theorem of_error {error : ε} (own : allowed error) : RefusesFor allowed (.error error : Except ε α) :=
  fun _ same => Except.error.inj same ▸ own

theorem bind {check : Except ε α} {rest : α → Except ε β} (first : RefusesFor allowed check)
    (each : ∀ value, RefusesFor allowed (rest value)) : RefusesFor allowed (check >>= rest) := by
  cases check with
  | ok value => exact each value
  | error error => exact of_error (first error rfl)

theorem map {check : Except ε α} (first : RefusesFor allowed check) (convert : α → β) :
    RefusesFor allowed (convert <$> check) := by
  cases check with
  | ok value => exact of_ok _
  | error error => exact of_error (first error rfl)

theorem map_all {check : α → Except ε β} (each : ∀ value, RefusesFor allowed (check value)) (values : List α) :
    RefusesFor allowed (values.mapM check) := by
  induction values with
  | nil => exact of_ok _
  | cons value rest ih =>
    rw [List.mapM_cons]
    exact (each value).bind fun _ => ih.bind fun _ => of_ok _

end RefusesFor

-- Work that stops for allowed reasons only, whatever state it starts in.
def StopsFor (allowed : ε → Prop) (work : ExceptT ε (StateM σ) α) : Prop :=
  ∀ state error after, work.run state = (.error error, after) → allowed error

namespace StopsFor

theorem of_pure (value : α) : StopsFor allowed (pure value : ExceptT ε (StateM σ) α) :=
  fun _ _ _ never => nomatch never

theorem of_get : StopsFor allowed (get : ExceptT ε (StateM σ) σ) :=
  fun _ _ _ never => nomatch never

theorem of_set (next : σ) : StopsFor allowed (set next : ExceptT ε (StateM σ) PUnit) :=
  fun _ _ _ never => nomatch never

theorem of_modify (change : σ → σ) : StopsFor allowed (modify change : ExceptT ε (StateM σ) PUnit) :=
  fun _ _ _ never => nomatch never

theorem of_check {check : Except ε α} (refuses : RefusesFor allowed check) :
    StopsFor allowed (liftM check : ExceptT ε (StateM σ) α) := by
  intro state error after stopped
  cases check with
  | ok value => cases stopped
  | error own => exact Except.error.inj (Prod.mk.inj stopped).1 ▸ refuses own rfl

theorem of_throw {error : ε} (own : allowed error) : StopsFor allowed (throw error : ExceptT ε (StateM σ) α) :=
  of_check (RefusesFor.of_error own : RefusesFor allowed (.error error : Except ε α))

theorem bind {work : ExceptT ε (StateM σ) α} {rest : α → ExceptT ε (StateM σ) β} (first : StopsFor allowed work)
    (each : ∀ value, StopsFor allowed (rest value)) : StopsFor allowed (work >>= rest) := by
  intro state error after stopped
  rw [run_bind] at stopped
  match run : work.run state with
  | (.ok value, next) =>
    rw [run] at stopped
    exact each value next error after stopped
  | (.error own, next) =>
    rw [run] at stopped
    exact Except.error.inj (Prod.mk.inj stopped).1 ▸ first state own next run

end StopsFor

namespace Stop

-- The kind of the fault that a stop is reported as is one of these.
def Among (kinds : List FaultKind) (stop : Stop) : Prop :=
  stop.toFault.kind ∈ kinds

theorem argument_among {kinds : List FaultKind} (listed : .argument ∈ kinds) (error : ArgumentError) :
    Among kinds (.fault (.argument error)) :=
  listed

-- A crash, if it is one, reports the range of a clamp.
def ReportsRange (stop : Stop) : Prop :=
  ∀ report, stop = .crash report → ∃ low high, report = some (MathOperation.rangeReport low high)

theorem fault_reports (reason : Fault) : ReportsRange (.fault reason) :=
  fun _ never => nomatch never

theorem range_reports (low high : Float) : ReportsRange (.crash (some (MathOperation.rangeReport low high))) :=
  fun _ same => ⟨low, high, (crash.inj same).symm⟩

end Stop

section Refusing

variable {allowed : Stop → Prop} (refused : ∀ error, allowed (.fault (.argument error)))

include refused

namespace Call

theorem refuse_refuses (error : ArgumentError) : RefusesFor allowed (refuse error : Except Stop α) :=
  .of_error (refused error)

theorem need_refuses (call : Call) (count : Nat) : RefusesFor allowed (call.need count) := by
  unfold need
  split
  · exact refuse_refuses refused _
  · exact .of_ok ()

theorem expect_refuses (call : Call) (position : Nat) (expected : Expected) (convert : Value → Option α) :
    RefusesFor allowed (call.expect position expected convert) := by
  unfold expect argument
  refine .bind ?_ fun value => ?_
  · split
    · exact .of_ok _
    · exact refuse_refuses refused _
  · split
    · exact .of_ok _
    · exact refuse_refuses refused _

theorem text_or_null_refuses (call : Call) (position : Nat) : RefusesFor allowed (call.textOrNull position) := by
  unfold textOrNull
  split
  · exact .of_ok none
  · exact (expect_refuses refused call position _ _).map _

theorem texts_from_refuses (call : Call) (start : Nat) : RefusesFor allowed (call.textsFrom start) :=
  .map_all (fun position => expect_refuses refused call position _ _) _

theorem number_refuses (call : Call) (position : Nat) : RefusesFor allowed (call.number position) := by
  unfold number
  split
  · exact .of_ok _
  · exact .of_ok _
  · split
    · exact .of_ok _
    · exact refuse_refuses refused _

theorem float_refuses (call : Call) (position : Nat) : RefusesFor allowed (call.float position) :=
  (number_refuses refused call position).bind fun _ => .of_ok _

end Call

namespace Action

omit refused in
theorem register_stops {kinds : List FaultKind} (registration : FaultKind.registration ∈ kinds) (work : Registration Unit) :
    StopsFor (Stop.Among kinds) (register work) := by
  intro world stop after stopped
  rw [register_run] at stopped
  have first := (Prod.mk.inj stopped).1
  cases result : (work.run world.registry).1 with
  | ok value => simp [result, Except.mapError] at first
  | error error =>
    rw [result] at first
    exact Except.error.inj first ▸ registration

theorem assign_stops (id : ComponentId) (field : String) (value : Value) :
    StopsFor allowed (assign id field value) := by
  refine .bind .of_get fun world => ?_
  dsimp only
  split
  · exact .bind (.of_throw (refused _)) fun _ => .of_set _
  · exact .of_set _

end Action

end Refusing

-- The kinds of faults with which an operation of the catalog may stop.
def StandardOperation.faultKinds : StandardOperation → List FaultKind
  | .type .define | .type .defineProperty | .type .implement | .interface .define => [.argument, .registration]
  | .math _ => [.argument, .runtime]
  | _ => [.argument]

theorem StandardOperation.fault_kinds (operation : StandardOperation) (kind : FaultKind) (among : kind ∈ operation.faultKinds) :
    kind = .argument ∨ kind = .registration ∧ operation.path ∈ Effect.registration.sites ∨
      kind = .runtime ∧ ["Engine", "Mathf"] <+: operation.path := by
  have placed : ∀ own ∈ all, ∀ kind ∈ own.faultKinds, kind = .argument ∨
      kind = .registration ∧ own.path ∈ Effect.registration.sites ∨ kind = .runtime ∧ ["Engine", "Mathf"] <+: own.path := by decide
  exact placed operation operation.mem_all kind among

theorem TypeOperation.run_stops (operation : TypeOperation) (arguments : List Value) :
    StopsFor (Stop.Among (StandardOperation.type operation).faultKinds) (operation.run arguments) := by
  have listed : .argument ∈ (StandardOperation.type operation).faultKinds := by cases operation <;> decide
  have refused := Stop.argument_among listed
  have need (call : Call) (count : Nat) := StopsFor.of_check (σ := World) (Call.need_refuses refused call count)
  have text (call : Call) (position : Nat) :=
    StopsFor.of_check (σ := World) (Call.expect_refuses refused call position .text Call.textOf?)
  have component (call : Call) (position : Nat) :=
    StopsFor.of_check (σ := World) (Call.expect_refuses refused call position .component Value.componentId?)
  cases operation with
  | define =>
    refine .bind (need _ 2) fun _ => .bind (text _ 0) fun name => ?_
    refine .bind (.of_check (Call.text_or_null_refuses refused _ 1)) fun parent => ?_
    refine .bind (.of_check (Call.texts_from_refuses refused _ 2)) fun interfaces => ?_
    exact .bind (Action.register_stops (by decide) _) fun _ => .of_pure _
  | defineProperty | implement =>
    refine .bind (need _ _) fun _ => .bind (text _ 0) fun type => .bind (text _ 1) fun name => ?_
    exact .bind (Action.register_stops (by decide) _) fun _ => .of_pure _
  | create =>
    refine .bind (text _ 0) fun type => .bind .of_get fun world => ?_
    cases world.registry.newComponent type with
    | ok made => exact .bind (.bind .of_get fun _ => .bind (.of_set _) fun _ => .of_pure _) fun _ => .of_pure _
    | error error => exact .of_check (Call.refuse_refuses refused error)
  | is => exact .bind (need _ 2) fun _ => .bind (component _ 0) fun _ => .bind (text _ 1) fun _ => .bind .of_get fun _ => .of_pure _
  | isSubclassOf | implementsInterface =>
    exact .bind (need _ 2) fun _ => .bind (text _ 0) fun _ => .bind (text _ 1) fun _ => .bind .of_get fun _ => .of_pure _
  | getTypeName => exact .bind (component _ 0) fun _ => .bind .of_get fun _ => .of_pure _
  | setProperty =>
    refine .bind (need _ 3) fun _ => .bind (component _ 0) fun id => .bind (text _ 1) fun property => ?_
    have assign (value : Value) := StopsFor.bind (Action.assign_stops refused id property value) fun _ => StopsFor.of_pure (Value.component id)
    dsimp only
    split
    · exact .bind (.of_check (Call.refuse_refuses refused _)) fun _ => assign _
    · exact assign _
  | getProperty =>
    exact .bind (need _ 2) fun _ => .bind (component _ 0) fun _ => .bind (text _ 1) fun _ => .bind .of_get fun _ => .of_pure _

theorem InterfaceOperation.run_stops (operation : InterfaceOperation) (arguments : List Value) :
    StopsFor (Stop.Among (StandardOperation.interface operation).faultKinds) (operation.run arguments) := by
  have listed : .argument ∈ (StandardOperation.interface operation).faultKinds := by cases operation <;> decide
  have refused := Stop.argument_among listed
  have text (call : Call) (position : Nat) :=
    StopsFor.of_check (σ := World) (Call.expect_refuses refused call position .text Call.textOf?)
  cases operation with
  | define =>
    refine .bind (.of_check (Call.need_refuses refused _ 1)) fun _ => .bind (text _ 0) fun name => ?_
    refine .bind (.of_check (Call.texts_from_refuses refused _ 1)) fun parents => ?_
    exact .bind (Action.register_stops (by decide) _) fun _ => .of_pure _
  | isDefined => exact .bind (text _ 0) fun _ => .bind .of_get fun _ => .of_pure _

theorem ConsoleOperation.run_stops (operation : ConsoleOperation) (arguments : List Value) :
    StopsFor (Stop.Among [.argument]) (operation.run arguments) := by
  refine .bind .of_get fun world => ?_
  cases operation with
  | writeLine | write => exact .bind (.of_modify _) fun _ => .of_pure _

theorem DebugOperation.run_stops (operation : DebugOperation) (arguments : List Value) :
    StopsFor (Stop.Among [.argument]) (operation.run arguments) :=
  .bind .of_get fun _ => .bind (.of_modify _) fun _ => .of_pure _

theorem VectorOperation.run_refuses (operation : VectorOperation) (arguments : List Value) :
    RefusesFor (Stop.Among [.argument]) (operation.run arguments) := by
  have refused := Stop.argument_among (List.mem_singleton_self FaultKind.argument)
  have number (call : Call) (position : Nat) := Call.number_refuses refused call position
  have vector (call : Call) (position : Nat) :=
    Call.expect_refuses refused call position .vector Value.vector?
  cases operation with
  | create => exact .bind (number _ 0) fun _ => .bind (number _ 1) fun _ => .bind (number _ 2) fun _ => .of_ok _
  | zero | one => exact .of_ok _
  | distance | dot | cross => exact .bind (vector _ 0) fun _ => .bind (vector _ 1) fun _ => .of_ok _
  | magnitude | normalized => exact .bind (vector _ 0) fun _ => .of_ok _

namespace MathOperation

section Reasons

variable {allowed : Stop → Prop} (refused : ∀ error, allowed (.fault (.argument error)))
  (infinite : ∀ operation, allowed (.fault (.runtime (.notFinite operation))))
  (crashed : ∀ low high, allowed (.crash (some (rangeReport low high))))

include infinite in
theorem finite_refuses (call : Call) (x : Float) : RefusesFor allowed (finite call x) := by
  unfold finite
  split
  · exact .of_ok _
  · exact .of_error (infinite _)

include refused crashed in
theorem clamp_refuses (call : Call) : RefusesFor allowed (runClamp call) := by
  refine .bind (Call.number_refuses refused call 0) fun x => .bind (Call.float_refuses refused call 1) fun low => ?_
  refine .bind (Call.float_refuses refused call 2) fun high => ?_
  have answered : RefusesFor allowed (.ok (Value.float (clamped x low high))) := .of_ok _
  have range : RefusesFor allowed (.error (.crash (some (rangeReport low high))) : Except Stop PUnit) := .of_error (crashed low high)
  have checked := iteInduction (c := (low.isNaN || high.isNaN) = true) (fun _ => range.bind fun _ => answered) fun _ => answered
  exact iteInduction (fun _ => .bind (Call.refuse_refuses refused _) fun _ => checked) fun _ => checked

include refused infinite crashed in
-- A number that is not finite and a clamp that crashes are the only reasons beside the arguments.
theorem run_refuses_for (operation : MathOperation) (arguments : List Value) : RefusesFor allowed (operation.run arguments) := by
  have number (call : Call) (position : Nat) := Call.number_refuses refused call position
  have float (call : Call) (position : Nat) := Call.float_refuses refused call position
  have finite (call : Call) (x : Float) := finite_refuses infinite call x
  cases operation with
  | abs | sqrt | floor | ceil | round | sin | cos | tan => exact .bind (float _ 0) fun _ => finite _ _
  | min | max | atan2 => exact .bind (float _ 0) fun _ => .bind (float _ 1) fun _ => finite _ _
  | pow => exact .bind (number _ 0) fun _ => .bind (number _ 1) fun _ => finite _ _
  | clamp => exact clamp_refuses refused crashed _
  | lerp => exact .bind (float _ 0) fun _ => .bind (float _ 1) fun _ => .bind (number _ 2) fun _ => finite _ _
  | pi | deg2Rad | rad2Deg => exact .of_ok _

end Reasons

theorem run_refuses (operation : MathOperation) (arguments : List Value) :
    RefusesFor (Stop.Among [.argument, .runtime]) (operation.run arguments) := by
  have argument : FaultKind.argument ∈ [FaultKind.argument, .runtime] := by decide
  have runtime : FaultKind.runtime ∈ [FaultKind.argument, .runtime] := by decide
  exact operation.run_refuses_for (Stop.argument_among argument) (fun _ => runtime) (fun _ _ => runtime) arguments

end MathOperation

theorem ColorOperation.run_refuses (operation : ColorOperation) (arguments : List Value) :
    RefusesFor (Stop.Among [.argument]) (operation.run arguments) := by
  have refused := Stop.argument_among (List.mem_singleton_self FaultKind.argument)
  have number (call : Call) (position : Nat) := Call.number_refuses refused call position
  cases operation with
  | create =>
    simp only [run, runCreate]
    split
    · exact .bind (.of_ok _) fun _ => .bind (number _ 0) fun _ => .bind (number _ 1) fun _ => .bind (number _ 2) fun _ => .of_ok _
    · exact .bind (number _ 3) fun _ => .bind (number _ 0) fun _ => .bind (number _ 1) fun _ => .bind (number _ 2) fun _ => .of_ok _
  | named color => exact .of_ok _

section Widgets

variable {allowed : Stop → Prop} (refused : ∀ error, allowed (.fault (.argument error)))
  (call : Call) (kind : Builtin) (field : String)

include refused

theorem builtin_argument_stops : StopsFor allowed (builtinArgument call kind) := by
  refine .bind (.of_check (Call.expect_refuses refused call 0 _ _)) fun id => .bind .of_get fun world => ?_
  dsimp only
  split
  · exact .of_pure id
  · exact .of_check (Call.refuse_refuses refused _)

theorem read_field_stops : StopsFor allowed (readField call kind field) := by
  refine .bind (.of_check (Call.need_refuses refused call 1)) fun _ => .bind (builtin_argument_stops refused call kind) fun id => ?_
  exact .bind .of_get fun _ => .of_pure _

theorem write_field_stops (value : Action Value) (own : StopsFor allowed value) : StopsFor allowed (writeField call kind field value) := by
  refine .bind (.of_check (Call.need_refuses refused call 2)) fun _ => .bind (builtin_argument_stops refused call kind) fun id => ?_
  exact .bind own fun content => .bind (Action.assign_stops refused id field content) fun _ => .of_pure _

omit refused in
theorem text_value_stops : StopsFor allowed (textValue call) := by
  unfold textValue
  split
  · exact .of_pure _
  · exact .bind .of_get fun _ => .of_pure _

theorem font_size_refuses : RefusesFor allowed (fontSizeValue call) := by
  refine .bind (Call.float_refuses refused call 1) fun size => ?_
  dsimp only
  split
  · exact .of_ok _
  · exact Call.refuse_refuses refused _

theorem color_refuses : RefusesFor allowed (colorValue call) :=
  .bind (Call.expect_refuses refused call 1 _ _) fun _ => .of_ok _

theorem fill_refuses : RefusesFor allowed (fillValue call) :=
  .bind (Call.number_refuses refused call 1) fun _ => .of_ok _

end Widgets

theorem TextOperation.run_stops (operation : TextOperation) (arguments : List Value) :
    StopsFor (Stop.Among [.argument]) (operation.run arguments) := by
  have refused := Stop.argument_among (List.mem_singleton_self FaultKind.argument)
  cases operation with
  | setText => exact write_field_stops refused _ _ _ _ (text_value_stops _)
  | setFontSize => exact write_field_stops refused _ _ _ _ (.of_check (font_size_refuses refused _))
  | setColor => exact write_field_stops refused _ _ _ _ (.of_check (color_refuses refused _))
  | getText | getFontSize | getColor => exact read_field_stops refused _ _ _

theorem ImageOperation.run_stops (operation : ImageOperation) (arguments : List Value) :
    StopsFor (Stop.Among [.argument]) (operation.run arguments) := by
  have refused := Stop.argument_among (List.mem_singleton_self FaultKind.argument)
  cases operation with
  | setColor => exact write_field_stops refused _ _ _ _ (.of_check (color_refuses refused _))
  | setFillAmount => exact write_field_stops refused _ _ _ _ (.of_check (fill_refuses refused _))
  | getColor | getFillAmount => exact read_field_stops refused _ _ _

theorem StandardOperation.run_stops (operation : StandardOperation) (arguments : List Value) :
    StopsFor (Stop.Among operation.faultKinds) (operation.run arguments) := by
  cases operation with
  | type operation => exact operation.run_stops arguments
  | interface operation => exact operation.run_stops arguments
  | console operation => exact operation.run_stops arguments
  | debug operation => exact operation.run_stops arguments
  | vector operation => exact .of_check (operation.run_refuses arguments)
  | math operation => exact .of_check (operation.run_refuses arguments)
  | color operation => exact .of_check (operation.run_refuses arguments)
  | text operation => exact operation.run_stops arguments
  | image operation => exact operation.run_stops arguments

-- A clamp is the one operation of the catalog that may crash.
theorem StandardOperation.crash_report (operation : StandardOperation) (arguments : List Value) (world after : World)
    (report : Option String) (crashed : (operation.run arguments).run world = (.error (.crash report), after)) :
    ∃ low high, report = some (MathOperation.rangeReport low high) := by
  have runtime : FaultKind.runtime ∈ operation.faultKinds := operation.run_stops arguments world _ after crashed
  cases operation with
  | math operation =>
    have reports : StopsFor Stop.ReportsRange ((StandardOperation.math operation).run arguments) := .of_check <|
      operation.run_refuses_for (fun _ => Stop.fault_reports _) (fun _ => Stop.fault_reports _) Stop.range_reports arguments
    exact reports world _ after crashed report rfl
  | type operation => cases operation <;> simp [faultKinds] at runtime
  | interface operation => cases operation <;> simp [faultKinds] at runtime
  | console | debug | vector | color | text | image => simp [faultKinds] at runtime

-- A command that can be read and leads to the operation at a place of the catalog, or on beyond it.
def Command.Reaches (text : String) (place : List String) : Prop :=
  ∃ command operation, Command.parse text = .ok command ∧ Catalog.standard.Holds place operation ∧ place <+: command.path

theorem Command.reaches_iff (text : String) (place : List String) : Reaches text place ↔
    ∃ command operation, parse text = .ok command ∧ Catalog.standard.route command.path = .reached operation ∧
      operation.path = place := by
  constructor
  · rintro ⟨command, operation, parsed, held, rest, leads⟩
    refine ⟨command, operation, parsed, ?_, Catalog.held_at_path place operation held⟩
    rw [← leads]
    exact Tree.route_held Catalog.standard Catalog.standard_well_keyed place rest operation held
  · rintro ⟨command, operation, parsed, reached, rfl⟩
    obtain ⟨keys, held, leads⟩ := Tree.route_reached Catalog.standard command.path operation reached
    rw [Catalog.held_at_path keys operation held]
    exact ⟨command, operation, parsed, held, leads⟩

namespace State

-- The kind of fault with which a command fails; none if it succeeds.
def faultKind? (state : State) (name : Option String) (text : String) : Option FaultKind :=
  (state.executeWith Catalog.tree name text).1.faultKind?

variable (state : State) (name : Option String) (text : String)

theorem unread_fault (error : SyntaxError) (unread : Command.parse text = .error error) :
    state.faultKind? name text = some .malformed := by
  have read : Command.read (Text.trimmed text) = .error (.malformed error) := by
    rw [Command.read, Command.parse_trimmed, unread]
  have stopped : (attempt Catalog.tree name (Text.trimmed text)).run state = (.error (.malformed error), state) := by
    rw [attempt, read]
    rfl
  rw [faultKind?, execute_with_run, stopped]
  rfl

theorem astray_fault (command : Command) (parsed : Command.parse text = .ok command)
    (astray : ∀ operation, Catalog.standard.route command.path ≠ .reached operation) :
    state.faultKind? name text = some .namespaceNotFound ∨ state.faultKind? name text = some .methodNotFound := by
  have read := (Command.read_trimmed_iff text command).mpr parsed
  have ends := attempt_run Catalog.tree name (Text.trimmed text) command state read
  rw [faultKind?, execute_with_run, ends, Tree.dispatch, Tree.dispatchFrom, List.drop_zero]
  cases routed : Catalog.tree.route command.path with
  | reached leaf =>
    obtain ⟨operation, reached, _⟩ := Tree.route_map_reached _ _ command.path leaf routed
    exact absurd reached (astray operation)
  | onNamespace => exact .inr rfl
  | missing segment => exact .inl rfl

theorem reached_fault (command : Command) (operation : StandardOperation) (parsed : Command.parse text = .ok command)
    (reached : Catalog.standard.route command.path = .reached operation) (kind : FaultKind)
    (failed : state.faultKind? name text = some kind) : kind ∈ operation.faultKinds := by
  rw [faultKind?, execute_with_reached name text state command operation parsed reached] at failed
  match run : (operation.run (state.context.resolveAll command.arguments)).run state.world with
  | (.ok value, world) => simp [run, Outcome.faultKind?] at failed
  | (.error stop, world) =>
    rw [run] at failed
    exact Option.some.inj failed ▸ operation.run_stops _ state.world stop world run

-- The three ways in which a command can go before it is known whether its operation stops.
inductive Staged (state : State) (name : Option String) (text : String) : Prop where
  | unread (error : SyntaxError) (refused : Command.parse text = .error error)
      (failed : state.faultKind? name text = some .malformed)
  | astray (command : Command) (parsed : Command.parse text = .ok command) (unreached : ∀ place, ¬ Command.Reaches text place)
      (failed : state.faultKind? name text = some .namespaceNotFound ∨ state.faultKind? name text = some .methodNotFound)
  | ran (command : Command) (operation : StandardOperation) (parsed : Command.parse text = .ok command)
      (reached : Command.Reaches text operation.path) (only : ∀ place, Command.Reaches text place → place = operation.path)
      (among : ∀ kind, state.faultKind? name text = some kind → kind ∈ operation.faultKinds)

theorem staged : Staged state name text := by
  cases parsed : Command.parse text with
  | error error => exact .unread error parsed (unread_fault state name text error parsed)
  | ok command =>
    have own (place : List String) (reaches : Command.Reaches text place) :
        ∃ operation, Catalog.standard.route command.path = .reached operation ∧ operation.path = place := by
      obtain ⟨other, operation, again, reached, placed⟩ := (Command.reaches_iff text place).mp reaches
      obtain rfl := Except.ok.inj (parsed.symm.trans again)
      exact ⟨operation, reached, placed⟩
    by_cases arrives : ∃ operation, Catalog.standard.route command.path = .reached operation
    · obtain ⟨operation, reached⟩ := arrives
      refine .ran command operation parsed ((Command.reaches_iff text _).mpr ⟨command, operation, parsed, reached, rfl⟩) ?_
        (reached_fault state name text command operation parsed reached)
      intro place reaches
      obtain ⟨other, again, placed⟩ := own place reaches
      rw [← placed, Route.reached.inj (again.symm.trans reached)]
    · refine .astray command parsed (fun place reaches => ?_)
        (astray_fault state name text command parsed fun operation reached => arrives ⟨operation, reached⟩)
      obtain ⟨operation, reached, _⟩ := own place reaches
      exact arrives ⟨operation, reached⟩

-- The kind of a fault names the stage of the command that failed: its text, its path, a definition of
-- a type or an interface, the arithmetic of a number, or else the arguments.
theorem fault_kinds_name_stages :
    (state.faultKind? name text = some .malformed ↔ ∃ error, Command.parse text = .error error) ∧
    (state.faultKind? name text = some .namespaceNotFound ∨ state.faultKind? name text = some .methodNotFound ↔
      (∃ command, Command.parse text = .ok command) ∧ ∀ place, ¬ Command.Reaches text place) ∧
    (state.faultKind? name text = some .registration → ∃ place ∈ Effect.registration.sites, Command.Reaches text place) ∧
    (state.faultKind? name text = some .runtime → ∃ place, ["Engine", "Mathf"] <+: place ∧ Command.Reaches text place) ∧
    ∀ kind place, state.faultKind? name text = some kind → Command.Reaches text place →
      kind = .argument ∨ kind = .registration ∧ place ∈ Effect.registration.sites ∨
        kind = .runtime ∧ ["Engine", "Mathf"] <+: place := by
  cases staged state name text with
  | unread error refused failed =>
    have never (place : List String) : ¬ Command.Reaches text place := by
      rintro ⟨command, operation, parsed, _⟩
      cases refused.symm.trans parsed
    simp [failed, refused, never]
  | astray command parsed unreached failed =>
    rcases failed with failed | failed <;> simp [failed, parsed, unreached]
  | ran command operation parsed reached only among =>
    have kinds (kind : FaultKind) (failed : state.faultKind? name text = some kind) :=
      operation.fault_kinds kind (among kind failed)
    have other (kind : FaultKind) (elsewhere : kind ∉ [FaultKind.argument, .registration, .runtime]) :
        state.faultKind? name text ≠ some kind := by
      intro failed
      rcases kinds kind failed with rfl | ⟨rfl, _⟩ | ⟨rfl, _⟩ <;> simp at elsewhere
    refine ⟨?_, ?_, fun failed => ?_, fun failed => ?_, fun kind place failed reaches => ?_⟩
    · simp [other .malformed (by decide), parsed]
    · simp only [other .namespaceNotFound (by decide), other .methodNotFound (by decide), or_self, false_iff, not_and]
      exact fun _ never => never operation.path reached
    · rcases kinds .registration failed with never | ⟨_, placed⟩ | ⟨never, _⟩
      · cases never
      · exact ⟨operation.path, placed, reached⟩
      · cases never
    · rcases kinds .runtime failed with never | ⟨never, _⟩ | ⟨_, placed⟩
      · cases never
      · cases never
      · exact ⟨operation.path, placed, reached⟩
    · rw [only place reaches]
      exact kinds kind failed

end State

end CommandScript
