import CommandScript.Proofs.Closed
import CommandScript.Proofs.Session.Loading

set_option autoImplicit false

namespace CommandScript

namespace Session

theorem load_closed (id : String) (bundle : Bundle) (session : Session) (loaded : load id bundle = .ok session) :
    session.context.bindings.Closed :=
  load_preserves (fun context => context.bindings.Closed) (fun _ name value closed computed => Table.Every.put closed name value computed.closed)
    Table.empty_every id bundle session loaded

theorem unload_closed (session : Session) (closed : session.context.bindings.Closed) : session.unload.context.bindings.Closed := by
  unfold unload
  split
  · exact Table.empty_every
  · exact closed

-- The operations that a request to a session runs.
def calls (session : Session) (world : World) (request : Request) : List (StandardOperation × List Value) :=
  if session.active then State.calls ⟨session.context, world⟩ (session.linesOf request) else []

theorem perform_closed (session : Session) (world : World) (request : Request) (context : session.context.bindings.Closed)
    (closed : world.Closed) (set : ∀ name value, request = .setVariable name value → value.Closed) :
    (∀ outcomes, (session.perform Catalog.tree world request).1 = .ok outcomes →
      ∀ outcome ∈ outcomes, ∀ value, outcome.result = .ok value → value.Closed) ∧
    (∀ call ∈ session.calls world request, ∀ argument ∈ call.2, argument.Closed) ∧
    (session.perform Catalog.tree world request).2.session.context.bindings.Closed ∧
    (session.perform Catalog.tree world request).2.world.Closed := by
  obtain ⟨results, given, final⟩ := State.execute_all_closed (session.linesOf request) ⟨session.context, world⟩ ⟨context, closed⟩
  have handed : ∀ call ∈ session.calls world request, ∀ argument ∈ call.2, argument.Closed := by
    unfold calls
    split
    · exact given
    · simp
  cases session.performs request with
  | refused error ends =>
    rw [ends]
    exact ⟨fun outcomes never => (by cases never), handed, context, closed⟩
  | ran active ends =>
    rw [ends]
    exact ⟨fun outcomes same => Except.ok.inj same ▸ results, handed, final.context, final.world⟩
  | bound active name value asked ends =>
    rw [ends]
    refine ⟨fun outcomes same => ?_, handed, Table.Every.put context name value (set name value asked), closed⟩
    rw [← Except.ok.inj same]
    simp
  | unloaded asked ends =>
    rw [ends]
    refine ⟨fun outcomes same => ?_, handed, session.unload_closed context, closed⟩
    rw [← Except.ok.inj same]
    simp

end Session

namespace Manager

-- No variable is left to be replaced in what the sessions hold and in what they share.
structure Closed (manager : Manager) : Prop where
  contexts : ∀ id session, manager.get? id = some session → session.context.bindings.Closed
  world : manager.world.Closed

-- The operations that a request runs.
def callsOf (manager : Manager) : Request → List (StandardOperation × List Value)
  | .session id request =>
    match manager.get? id with
    | some session => session.calls manager.world request
    | none => []
  | .load _ _ | .loadText _ _ | .unload _ | .unloadAll => []

def calls (manager : Manager) : List Request → List (StandardOperation × List Value)
  | [] => []
  | request :: rest => manager.callsOf request ++ (manager.after request).calls rest

variable {manager : Manager}

theorem Closed.calls_of (closed : manager.Closed) (request : Request)
    (set : ∀ id name value, request = .session id (.setVariable name value) → value.Closed) :
    ∀ call ∈ manager.callsOf request, ∀ argument ∈ call.2, argument.Closed := by
  cases request with
  | load | loadText | unload | unloadAll => simp [callsOf]
  | session id request =>
    rw [callsOf]
    cases found : manager.get? id with
    | none => simp
    | some session =>
      exact (session.perform_closed manager.world request (closed.contexts id session found) closed.world
        fun name value asked => set id name value (asked ▸ rfl)).2.1

theorem Closed.served (closed : manager.Closed) (orderly : manager.Orderly) (request : Request)
    (set : ∀ id name value, request = .session id (.setVariable name value) → value.Closed) :
    (∀ outcomes, manager.answer request = .ok outcomes →
      ∀ outcome ∈ outcomes, ∀ value, outcome.result = .ok value → value.Closed) ∧
    (manager.after request).Closed := by
  have serves := orderly.serves Catalog.tree request
  have performed (id : String) (work : Session.Request) (session : Session) (asked : request = .session id work)
      (found : manager.get? id = some session) :=
    session.perform_closed manager.world work (closed.contexts id session found) closed.world
      fun name value sets => set id name value (sets ▸ asked)
  rw [answer, after, serve]
  generalize manager.serveOver Catalog.tree request = ended at serves
  have contexts := serves.held (fun _ session => session.context.bindings.Closed) closed.contexts Session.load_closed
    fun id work session asked found => (performed id work session asked found).2.2.1
  cases serves with
  | refused _ error => exact ⟨fun outcomes never => (by cases never), contexts, closed.world⟩
  | loaded | dropped | cleared =>
    refine ⟨fun outcomes same => ?_, contexts, closed.world⟩
    rw [← Except.ok.inj same]
    simp
  | performed id work session outcomes next found ends =>
    obtain ⟨results, _, _, shared⟩ := performed id work session rfl found
    rw [ends] at results shared
    exact ⟨results, contexts, shared⟩

-- What a run leaves, what it was answered and what its operations were given.
structure Clean (manager : Manager) (requests : List Request) : Prop where
  left : (manager.afterAll requests).Closed
  answered : ∀ request outcomes, (request, .ok outcomes) ∈ manager.transcript requests →
    ∀ outcome ∈ outcomes, ∀ value, outcome.result = .ok value → value.Closed
  given : ∀ call ∈ manager.calls requests, ∀ argument ∈ call.2, argument.Closed

theorem Closed.run (closed : manager.Closed) (orderly : manager.Orderly) (requests : List Request)
    (set : ∀ id name value, .session id (.setVariable name value) ∈ requests → value.Closed) : manager.Clean requests := by
  induction requests generalizing manager with
  | nil => exact ⟨closed, by simp [transcript], by simp [calls]⟩
  | cons request rest ih =>
    have own : ∀ id name value, request = .session id (.setVariable name value) → value.Closed :=
      fun id name value asked => set id name value (asked ▸ List.mem_cons_self)
    obtain ⟨results, next⟩ := closed.served orderly request own
    obtain ⟨left, answered, given⟩ := ih next (orderly.after Catalog.tree request)
      fun id name value later => set id name value (List.mem_cons_of_mem _ later)
    refine ⟨left, fun asked outcomes listed => ?_, fun call listed => ?_⟩
    · rcases List.mem_cons.mp listed with now | later
      · obtain ⟨rfl, same⟩ := Prod.mk.inj now
        exact results outcomes same.symm
      · exact answered asked outcomes later
    · rcases List.mem_append.mp listed with now | later
      · exact closed.calls_of request own call now
      · exact given call later

-- Variables are replaced once, and that is enough: if the host sets no variable to a variable, none is
-- ever held, returned or handed to an operation, and a value as it was written has none left after one
-- replacement.
theorem one_replacement_is_enough (world : World) (requests : List Request) (start : world.Closed)
    (set : ∀ id name value, .session id (.setVariable name value) ∈ requests → value.Closed) :
    (fresh world).Clean requests ∧
      ∀ id session, ((fresh world).afterAll requests).get? id = some session → ∀ (context : Context) (written : Value),
        context.resolve (session.context.resolve written) = session.context.resolve written := by
  have clean := Closed.run ⟨fun _ _ found => (by cases found), start⟩ (fresh_orderly world) requests set
  refine ⟨clean, fun id session found context written => ?_⟩
  exact context.resolve_of_closed _ (Context.resolve_closed (clean.left.contexts id session found) written)

def relay : List Request :=
  [.loadText "a" "// @field:string label = mine\nSystem.Console.Write($label)",
    .session "a" (.setVariable "tag" (.text "$label")),
    .session "a" (.execute "$kind = SFScript.Type.Define('Tag', null)"),
    .session "a" (.execute "SFScript.Type.DefineProperty('Tag', 'name', $tag)"),
    .session "a" (.execute "$copy = SFScript.Type.Create('Tag')"), .session "a" (.execute "System.Console.Write($copy)")]

theorem relay_is_clean : (fresh World.initial).Clean relay ∧
    ((fresh World.initial).calls relay).map (fun call => call.2.length) = [2, 3, 1, 1] := by
  have set : ∀ id name value, .session id (.setVariable name value) ∈ relay → value.Closed := by
    intro id name value listed
    simp only [relay, List.mem_cons, List.not_mem_nil, or_false, reduceCtorEq, false_or, Request.session.injEq,
      Session.Request.setVariable.injEq, and_false] at listed
    obtain ⟨_, _, rfl⟩ := listed
    exact .text "$label"
  exact ⟨(one_replacement_is_enough World.initial relay World.initial_closed set).1, by decide +kernel⟩

end Manager

end CommandScript
