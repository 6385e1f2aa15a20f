import CommandScript.Proofs.Every

set_option autoImplicit false

namespace CommandScript

namespace Value

-- A value in which no variable is left to be replaced, at any depth.
inductive Closed : Value → Prop where
  | null : Closed .null
  | bool (b : Bool) : Closed (.bool b)
  | int (n : Int64) : Closed (.int n)
  | float (x : Number.Double) : Closed (.float x)
  | text (s : String) : Closed (.text s)
  | component (id : ComponentId) : Closed (.component id)
  | composite (kind : CompositeKind) (fields : List Value) (inner : ∀ field ∈ fields, Closed field) : Closed (.composite kind fields)

theorem Computed.closed {value : Value} (computed : value.Computed) : value.Closed := by
  cases computed with
  | null => exact .null
  | bool b => exact .bool b
  | int n => exact .int n
  | float x => exact .float x
  | text s => exact .text s
  | numbers kind numbers =>
    refine .composite kind _ fun field listed => ?_
    obtain ⟨x, _, rfl⟩ := List.mem_map.mp listed
    exact .float x

end Value

namespace Table

def Closed (table : Table Value) : Prop :=
  ∀ entry ∈ table, entry.2.Closed

end Table

namespace Context

theorem resolve_all_map (context : Context) (values : List Value) : context.resolveAll values = values.map context.resolve := by
  induction values with
  | nil => rfl
  | cons value rest ih => rw [resolveAll, ih, List.map_cons]

variable {context : Context}

mutual

-- Where no variable holds a variable, one replacement leaves none.
theorem resolve_closed (closed : context.bindings.Closed) (value : Value) : (context.resolve value).Closed := by
  cases value with
  | reference name => exact Table.Every.find closed .null name
  | composite kind fields => exact .composite kind _ (resolve_all_closed closed fields)
  | null => exact .null
  | bool b => exact .bool b
  | int n => exact .int n
  | float x => exact .float x
  | text s => exact .text s
  | component id => exact .component id

theorem resolve_all_closed (closed : context.bindings.Closed) (values : List Value) :
    ∀ value ∈ context.resolveAll values, value.Closed := by
  cases values with
  | nil => simp [resolveAll]
  | cons value rest =>
    rw [resolveAll]
    exact List.forall_mem_cons.mpr ⟨resolve_closed closed value, resolve_all_closed closed rest⟩

end

theorem resolve_of_closed (context : Context) (value : Value) (closed : value.Closed) : context.resolve value = value := by
  induction closed with
  | composite kind fields inner ih =>
    have fixed : context.resolveAll fields = fields := by
      rw [resolve_all_map, List.map_congr_left ih, List.map_id']
    rw [resolve, fixed]
  | null | bool | int | float | text | component => rw [resolve]

end Context

def Registry.Closed (r : Registry) : Prop :=
  ∀ entry ∈ r.types, entry.2.defaults.Closed

def Store.Closed (store : Store) : Prop :=
  ∀ component ∈ store.components, component.fields.Closed

namespace World

structure Closed (world : World) : Prop where
  fields : world.store.Closed
  defaults : world.registry.Closed

theorem initial_closed : initial.Closed :=
  ⟨by simp [Store.Closed, initial, Store.empty], Registry.initial_every fun _ computed => computed.closed⟩

end World

theorem StandardOperation.makes_closed (operation : StandardOperation) (arguments : List Value) (world : World) (change : Change)
    (value : Value) (makes : Makes arguments world operation change value) (closed : world.Closed)
    (given : ∀ argument ∈ arguments, argument.Closed) : value.Closed ∧ (world.apply change).Closed := by
  obtain ⟨own, fields, defaults⟩ := operation.makes_every arguments world change value makes ⟨closed.fields, closed.defaults⟩ given
    (fun _ computed => computed.closed) (fun _ _ => .component _)
  exact ⟨own, fields, defaults⟩

namespace State

structure Closed (state : State) : Prop where
  context : state.context.bindings.Closed
  world : state.world.Closed

-- The operation that a command runs, with the arguments that it is given.
def call? (state : State) (text : String) : Option (StandardOperation × List Value) :=
  match Command.parse text with
  | .error _ => none
  | .ok command =>
    match Catalog.standard.route command.path with
    | .reached operation => some (operation, state.context.resolveAll command.arguments)
    | .onNamespace | .missing _ => none

-- The operations that commands run one after the other.
def calls (state : State) : List String → List (StandardOperation × List Value)
  | [] => []
  | line :: rest => (state.call? line).toList ++ (state.execute Catalog.tree line).2.calls rest

theorem call_of_reached (state : State) (text : String) (command : Command) (operation : StandardOperation)
    (parsed : Command.parse text = .ok command) (reached : Catalog.standard.route command.path = .reached operation) :
    state.call? text = some (operation, state.context.resolveAll command.arguments) := by
  rw [call?, parsed]
  simp only [reached]

theorem call_comes_from (state : State) (text : String) (operation : StandardOperation) (arguments : List Value)
    (called : state.call? text = some (operation, arguments)) :
    ∃ command, Command.parse text = .ok command ∧ Catalog.standard.route command.path = .reached operation ∧
      arguments = state.context.resolveAll command.arguments := by
  unfold call? at called
  cases parsed : Command.parse text with
  | error error => simp [parsed] at called
  | ok command =>
    cases reached : Catalog.standard.route command.path with
    | onNamespace | missing => simp [parsed, reached] at called
    | reached own =>
      simp only [parsed, reached] at called
      obtain ⟨rfl, rfl⟩ := Prod.mk.inj (Option.some.inj called)
      exact ⟨command, rfl, reached, rfl⟩

-- A command that runs an operation ends as the operation does, and its value may be bound.
theorem execute_with_call (name : Option String) (text : String) (state : State) (operation : StandardOperation)
    (arguments : List Value) (called : state.call? text = some (operation, arguments)) :
    ∃ target, state.executeWith Catalog.tree name text =
      match (operation.run arguments).run state.world with
      | (.ok value, world) => (⟨Text.trimmed text, .ok value⟩, ⟨bound state.context target value, world⟩)
      | (.error stop, world) => (⟨Text.trimmed text, .error stop.toFault⟩, { state with world }) := by
  obtain ⟨command, parsed, reached, rfl⟩ := call_comes_from state text operation arguments called
  exact ⟨name <|> command.binding, execute_with_reached name text state command operation parsed reached⟩

theorem execute_with_no_call (name : Option String) (text : String) (state : State) (none : state.call? text = none) :
    ∃ fault, state.executeWith Catalog.tree name text = (⟨Text.trimmed text, .error fault⟩, state) := by
  rcases execute_with_cases name text state with failed | ⟨command, operation, value, world, parsed, reached, run, ended⟩
  · exact failed
  · rw [call_of_reached state text command operation parsed reached] at none
    cases none

theorem call_closed (state : State) (closed : state.Closed) (text : String) (operation : StandardOperation)
    (arguments : List Value) (called : state.call? text = some (operation, arguments)) :
    ∀ argument ∈ arguments, argument.Closed := by
  obtain ⟨command, _, _, rfl⟩ := call_comes_from state text operation arguments called
  exact Context.resolve_all_closed closed.context command.arguments

theorem execute_closed (state : State) (closed : state.Closed) (text : String) :
    (∀ value, (state.execute Catalog.tree text).1.result = .ok value → value.Closed) ∧
      (state.execute Catalog.tree text).2.Closed := by
  rw [execute]
  cases called : state.call? text with
  | none =>
    obtain ⟨fault, ended⟩ := execute_with_no_call none text state called
    rw [ended]
    exact ⟨fun value never => (by cases never), closed⟩
  | some call =>
    obtain ⟨operation, arguments⟩ := call
    obtain ⟨target, ended⟩ := execute_with_call none text state operation arguments called
    have ends := operation.run_ends arguments state.world
    rw [ended]
    rcases run : (operation.run arguments).run state.world with ⟨result, world⟩
    cases result with
    | error stop =>
      obtain rfl := ends.stopped run
      exact ⟨fun value never => (by cases never), closed⟩
    | ok own =>
      obtain ⟨change, makes, rfl⟩ := ends.finished run
      obtain ⟨ownClosed, after⟩ := operation.makes_closed arguments state.world change own makes closed.world
        (call_closed state closed text operation arguments called)
      exact ⟨fun value same => Except.ok.inj same ▸ ownClosed, bound_every state.context target own closed.context ownClosed, after⟩

-- Commands that run one after the other hand no variable to an operation, and get none back.
theorem execute_all_closed (lines : List String) (state : State) (closed : state.Closed) :
    (∀ outcome ∈ (state.executeAll Catalog.tree lines).1, ∀ value, outcome.result = .ok value → value.Closed) ∧
      (∀ call ∈ state.calls lines, ∀ argument ∈ call.2, argument.Closed) ∧
      (state.executeAll Catalog.tree lines).2.Closed := by
  induction lines generalizing state with
  | nil => exact ⟨by simp [executeAll], by simp [calls], closed⟩
  | cons line rest ih =>
    obtain ⟨result, next⟩ := execute_closed state closed line
    obtain ⟨results, given, final⟩ := ih (state.execute Catalog.tree line).2 next
    rw [execute_all_cons, calls]
    refine ⟨List.forall_mem_cons.mpr ⟨result, results⟩, fun call listed => ?_, final⟩
    rcases List.mem_append.mp listed with now | later
    · exact call_closed state closed line call.1 call.2 (Option.mem_toList.mp now)
    · exact given call later

end State

end CommandScript
