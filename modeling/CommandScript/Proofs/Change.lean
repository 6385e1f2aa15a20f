import CommandScript.Operation.Call
import CommandScript.Proofs.Registry.Requests

set_option autoImplicit false

namespace CommandScript

inductive Change where
  | nothing
  | register (request : Registry.Request)
  | create (component : Component)
  | write (id : ComponentId) (field : String) (value : Value)
  | print (text : String)

def World.apply (world : World) : Change → World
  | .nothing => world
  | .register request => { world with registry := world.registry.after request }
  | .create component => { world with store := world.store.create component }
  | .write id field value => { world with store := world.store.write id field value }
  | .print text => { world with output := world.output.write text }

-- One change of an allowed kind, and nothing besides.
def Changed {α : Type} (world : World) (allowed : Change → Prop) (_ : α) (after : World) : Prop :=
  ∃ change, allowed change ∧ after = world.apply change

namespace Action

variable {world : World}

theorem register_run (work : Registration Unit) (world : World) :
    (register work).run world = ((work.run world.registry).1.mapError fun error => .fault (.registration error),
      { world with registry := (work.run world.registry).2 }) := rfl

theorem register_settles (request : Registry.Request) :
    Settles (register request.work) world fun _ after => after = world.apply (.register request) := by
  have settles := Registry.request_settles world.registry request
  have run := register_run request.work world
  match own : request.work.run world.registry with
  | (.ok (), registry) =>
    rw [own] at run
    refine Settles.of_ok run ?_
    simp only [World.apply, Registry.after, own]
  | (.error error, registry) =>
    rw [own, settles.stopped own] at run
    exact Settles.of_error run

theorem create_settles (component : Component) :
    Settles (create component) world fun id after => id = world.store.next ∧ after = world.apply (.create component) :=
  Settles.of_ok rfl ⟨rfl, rfl⟩

theorem assign_settles (id : ComponentId) (field : String) (value : Value) :
    Settles (assign id field value) world fun _ after =>
      (world.store.get id).accepts field = true ∧ after = world.apply (.write id field value) := by
  unfold assign
  apply Settles.get_bind
  by_cases accepted : (world.store.get id).accepts field = true
  · rw [if_neg (by simpa using accepted)]
    exact Settles.of_set ⟨accepted, rfl⟩
  · rw [if_pos (by simpa using accepted)]
    exact Settles.throw_bind _ _ _ _

theorem print_settles (text : String) :
    Settles (print text) world fun _ after => after = world.apply (.print text) :=
  Settles.of_ok rfl rfl

end Action

end CommandScript
