import CommandScript.Proofs.Component.History
import CommandScript.Proofs.Session.Requests

set_option autoImplicit false

namespace CommandScript

-- A command that a program gives, with the variables that it may use.
structure Turn where
  context : Context
  order : Order

namespace World

def take (world : World) (turn : Turn) : Outcome × State :=
  State.executeWith Catalog.tree turn.order.name turn.order.text ⟨turn.context, world⟩

def answer (world : World) (turn : Turn) : Except Fault Value :=
  (world.take turn).1.result

def after (world : World) (turn : Turn) : World :=
  (world.take turn).2.world

def afterAll (world : World) (turns : List Turn) : World :=
  turns.foldl after world

theorem after_all_cons (world : World) (turn : Turn) (rest : List Turn) :
    world.afterAll (turn :: rest) = (world.after turn).afterAll rest := by
  rw [afterAll, List.foldl_cons, afterAll]

theorem after_cases (world : World) (turn : Turn) : world.after turn = world ∨
    ∃ operation arguments change value, StandardOperation.Makes arguments world operation change value ∧
      world.after turn = world.apply change := by
  rw [after, take]
  rcases State.execute_with_cases turn.order.name turn.order.text ⟨turn.context, world⟩ with
    ⟨fault, ended⟩ | ⟨command, operation, value, next, parsed, reached, run, ended⟩
  · rw [ended]
    exact .inl rfl
  · obtain ⟨change, makes, rfl⟩ := (operation.run_ends _ world).finished run
    rw [ended]
    exact .inr ⟨operation, _, change, value, makes, rfl⟩

end World

-- A turn whose command runs an operation with these arguments.
def Turn.Asks (turn : Turn) (operation : StandardOperation) (arguments : List Value) : Prop :=
  ∃ command, Command.parse turn.order.text = .ok command ∧ operation.path <+: command.path ∧
    turn.context.resolveAll command.arguments = arguments

theorem World.answer_of_run (world after : World) (turn : Turn) (operation : StandardOperation) (arguments : List Value) (value : Value)
    (asks : turn.Asks operation arguments) (run : (operation.run arguments).run world = (.ok value, after)) :
    world.answer turn = .ok value := by
  obtain ⟨command, parsed, leads, rfl⟩ := asks
  have reached := Catalog.reached_beyond operation command.path leads
  rw [answer, take, State.execute_with_reached _ _ _ command operation parsed reached, run]

-- What sessions do comes to turns: each command runs with the variables that its session has then.
theorem State.execute_takes_turn (line : String) (state : State) :
    (state.execute Catalog.tree line).2.world = state.world.after ⟨state.context, none, line⟩ := by
  rw [World.after, World.take, execute]

theorem State.execute_all_takes_turns (lines : List String) (state : State) :
    ∃ turns, (state.executeAll Catalog.tree lines).2.world = state.world.afterAll turns := by
  induction lines generalizing state with
  | nil => exact ⟨[], rfl⟩
  | cons line rest ih =>
    obtain ⟨turns, same⟩ := ih (state.execute Catalog.tree line).2
    exact ⟨⟨state.context, none, line⟩ :: turns, by rw [execute_all_cons, same, execute_takes_turn, World.after_all_cons]⟩

theorem Session.perform_takes_turns (session : Session) (request : Session.Request) (world : World) :
    ∃ turns, (session.perform Catalog.tree world request).2.world = world.afterAll turns := by
  cases session.performs request with
  | refused error ends => exact ⟨[], by rw [ends]; rfl⟩
  | ran active ends =>
    obtain ⟨turns, same⟩ := State.execute_all_takes_turns (session.linesOf request) ⟨session.context, world⟩
    exact ⟨turns, by rw [ends]; exact same⟩
  | bound active name value asked ends => exact ⟨[], by rw [ends]; rfl⟩
  | unloaded asked ends => exact ⟨[], by rw [ends]; rfl⟩

namespace Manager

theorem Serves.takes_turns {manager : Manager} {request : Request} {ended : Answer × Manager}
    (serves : manager.Serves Catalog.tree request ended) : ∃ turns, ended.2.world = manager.world.afterAll turns := by
  cases serves with
  | refused | loaded | dropped | cleared => exact ⟨[], rfl⟩
  | performed id request session outcomes next found ends =>
    obtain ⟨turns, same⟩ := session.perform_takes_turns request manager.world
    rw [ends] at same
    exact ⟨turns, same⟩

theorem Orderly.after_all_takes_turns {manager : Manager} (orderly : manager.Orderly) (requests : List Request) :
    ∃ turns, (manager.afterAllOver Catalog.tree requests).world = manager.world.afterAll turns := by
  have step (now : Manager) (request : Request) (holds : now.Orderly ∧ ∃ turns, now.world = manager.world.afterAll turns) :
      (now.serveOver Catalog.tree request).2.Orderly ∧
        ∃ turns, (now.serveOver Catalog.tree request).2.world = manager.world.afterAll turns := by
    obtain ⟨still, before, reached⟩ := holds
    obtain ⟨turns, same⟩ := (still.serves Catalog.tree request).takes_turns
    refine ⟨still.after Catalog.tree request, before ++ turns, ?_⟩
    rw [same, reached, World.afterAll, World.afterAll, World.afterAll, List.foldl_append]
  exact (after_all_preserves Catalog.tree _ step manager requests ⟨orderly, [], rfl⟩).2

end Manager

end CommandScript
