import CommandScript.Proofs.Execution
import CommandScript.Proofs.Table
import CommandScript.Session.Manager

set_option autoImplicit false

namespace CommandScript

-- What a program asks of a session that is loaded.
inductive Session.Request where
  | execute (text : String)
  | executeScript (name : String)
  | executeAll
  | setVariable (name : String) (value : Value)
  | unload

-- What it asks of the keeper of sessions.
inductive Manager.Request where
  | load (id : String) (bundle : Bundle)
  | loadText (name text : String)
  | unload (id : String)
  | unloadAll
  | session (id : String) (request : Session.Request)

namespace Session

def Request.work (tree : Tree Operation) : Request → SessionWork (List Outcome)
  | .execute text => do return [← Session.execute tree text]
  | .executeScript name => Session.executeScript tree name
  | .executeAll => Session.executeAll tree
  | .setVariable name value => do
    Session.setVariable name value
    return []
  | .unload => do
    Session.deactivate
    return []

def perform (session : Session) (tree : Tree Operation) (world : World) (request : Request) :
    Except SessionError (List Outcome) × SessionState :=
  (request.work tree).run ⟨session, world⟩

-- The commands that a request to an active session runs.
def linesOf (session : Session) : Request → List String
  | .execute text => [text]
  | .executeScript name =>
    match session.script name with
    | .ok script => script.commands
    | .error _ => []
  | .executeAll => session.scripts.flatMap Script.commands
  | .setVariable _ _ | .unload => []

theorem load_made (id : String) (bundle : Bundle) (session : Session) (loaded : load id bundle = .ok session) :
    session = ⟨id, bundle.map fun (name, text) => Script.ofText name text,
      (bundle.map fun (name, text) => Script.ofText name text).foldl seed Context.empty, true⟩ := by
  unfold load at loaded
  split at loaded
  · simp [throw, throwThe, MonadExceptOf.throw, bind, Except.bind] at loaded
  · cases named : checkNames [] (bundle.map Prod.fst) with
    | error error => simp [named, bind, Except.bind] at loaded
    | ok _ =>
      rw [named] at loaded
      exact (Except.ok.inj loaded).symm

-- The outcomes of commands that are run in a session, with the session and the world they leave.
def runLines (session : Session) (tree : Tree Operation) (lines : List String) (world : World) : List Outcome × SessionState :=
  let (outcomes, final) := State.executeAll tree lines ⟨session.context, world⟩
  (outcomes, ⟨{ session with context := final.context }, final.world⟩)

-- A request is refused whatever the operations and the world are, or runs its commands, or changes the
-- session alone.
inductive Performs (session : Session) (request : Request) : Prop where
  | refused (error : SessionError)
      (ends : ∀ tree world, session.perform tree world request = (.error error, ⟨session, world⟩))
  | ran (active : session.active = true)
      (ends : ∀ tree world, session.perform tree world request =
        (.ok (session.runLines tree (session.linesOf request) world).1, (session.runLines tree (session.linesOf request) world).2))
  | bound (active : session.active = true) (name : String) (value : Value) (asked : request = .setVariable name value)
      (ends : ∀ tree world, session.perform tree world request =
        (.ok [], ⟨{ session with context := session.context.set name value }, world⟩))
  | unloaded (asked : request = .unload)
      (ends : ∀ tree world, session.perform tree world request = (.ok [], ⟨session.unload, world⟩))

theorem run_lines_append (session : Session) (tree : Tree Operation) (lines rest : List String) (world : World) :
    session.runLines tree (lines ++ rest) world =
      ((session.runLines tree lines world).1 ++
          ((session.runLines tree lines world).2.session.runLines tree rest (session.runLines tree lines world).2.world).1,
        ((session.runLines tree lines world).2.session.runLines tree rest (session.runLines tree lines world).2.world).2) := by
  simp only [runLines, State.execute_all_append]

theorem run_script_run (session : Session) (tree : Tree Operation) (script : Script) (world : World) :
    (runScript tree script).run ⟨session, world⟩ =
      (.ok (session.runLines tree script.commands world).1, (session.runLines tree script.commands world).2) := by
  rw [runScript, runLines]
  generalize State.executeAll tree script.commands = run
  rfl

-- Scripts that run one after the other are one run of all their commands.
theorem run_scripts_run (session : Session) (tree : Tree Operation) (scripts : List Script) (world : World) :
    (List.flatten <$> scripts.mapM (runScript tree)).run ⟨session, world⟩ =
      (.ok (session.runLines tree (scripts.flatMap Script.commands) world).1,
        (session.runLines tree (scripts.flatMap Script.commands) world).2) := by
  induction scripts generalizing session world with
  | nil => rfl
  | cons script rest ih =>
    rw [List.mapM_cons, map_eq_pure_bind, bind_assoc, run_bind, run_script_run, List.flatMap_cons, run_lines_append]
    rcases session.runLines tree script.commands world with ⟨outcomes, left⟩
    have later := ih left.session left.world
    rw [map_eq_pure_bind, run_bind] at later
    simp only [bind_assoc, pure_bind, List.flatten_cons, run_bind]
    rcases others : (rest.mapM (runScript tree)).run left with ⟨result, final⟩
    rw [show (rest.mapM (runScript tree)).run ⟨left.session, left.world⟩ = (result, final) from others] at later
    cases result with
    | error error => cases later
    | ok lists =>
      obtain ⟨same, rfl⟩ := Prod.mk.inj later
      rw [← Except.ok.inj same]
      rfl

theorem execute_all_run (session : Session) (tree : Tree Operation) (world : World) (active : session.active = true) :
    (executeAll tree).run ⟨session, world⟩ = (List.flatten <$> session.scripts.mapM (runScript tree)).run ⟨session, world⟩ := by
  obtain ⟨id, scripts, context, _⟩ := session
  obtain rfl := active
  rfl

theorem perform_script (session : Session) (tree : Tree Operation) (world : World) (name : String)
    (active : session.active = true) :
    session.perform tree world (.executeScript name) =
      match session.script name with
      | .ok script => (.ok (session.runLines tree script.commands world).1, (session.runLines tree script.commands world).2)
      | .error error => (.error error, ⟨session, world⟩) := by
  obtain ⟨id, scripts, context, _⟩ := session
  obtain rfl := active
  change ((liftM (Session.script ⟨id, scripts, context, true⟩ name) >>= fun script =>
    runScript tree script : SessionWork (List Outcome)).run _) = _
  cases Session.script ⟨id, scripts, context, true⟩ name with
  | ok script => exact run_script_run _ tree script world
  | error error => rfl

theorem performs (session : Session) (request : Request) : session.Performs request := by
  cases active : session.active with
  | false =>
    obtain ⟨id, scripts, context, _⟩ := session
    obtain rfl := active
    cases request with
    | execute | executeScript | executeAll | setVariable => exact .refused (.inactive id) fun tree world => rfl
    | unload => exact .unloaded rfl fun tree world => rfl
  | true =>
    cases request with
    | executeScript name =>
      cases found : session.script name with
      | ok script => exact .ran active fun tree world => by rw [perform_script session tree world name active, linesOf, found]
      | error error => exact .refused error fun tree world => by rw [perform_script session tree world name active, found]
    | execute text =>
      obtain ⟨id, scripts, context, _⟩ := session
      obtain rfl := active
      refine .ran rfl fun tree world => ?_
      rw [perform, Request.work, Session.execute, linesOf, runLines, State.executeAll]
      generalize State.execute tree text = run
      rfl
    | executeAll =>
      refine .ran active fun tree world => ?_
      rw [perform, Request.work, execute_all_run session tree world active, run_scripts_run, linesOf]
    | setVariable name value =>
      obtain ⟨id, scripts, context, _⟩ := session
      obtain rfl := active
      exact .bound rfl name value rfl fun tree world => rfl
    | unload => exact .unloaded rfl fun tree world => rfl

theorem unload_id (session : Session) : session.unload.id = session.id := by
  unfold unload
  split <;> rfl

theorem perform_id (session : Session) (tree : Tree Operation) (request : Request) (world : World) :
    (session.perform tree world request).2.session.id = session.id := by
  cases session.performs request with
  | refused error ends => rw [ends]
  | ran active ends =>
    rw [ends]
    rfl
  | bound active name value asked ends => rw [ends]
  | unloaded asked ends =>
    rw [ends]
    exact session.unload_id

end Session

namespace Manager

-- A keeper over a shared state, before any session is loaded.
def fresh (world : World) : Manager :=
  ⟨[], world⟩

def Request.work (tree : Tree Operation) : Request → ManagerWork (List Outcome)
  | .load id bundle => do
    Manager.load id bundle
    return []
  | .loadText name text => do
    Manager.loadText name text
    return []
  | .unload id => do
    Manager.unload id
    return []
  | .unloadAll => do
    Manager.unloadAll
    return []
  | .session id (.execute text) => do return [← Manager.execute tree id text]
  | .session id (.executeScript name) => Manager.executeScript tree id name
  | .session id .executeAll => Manager.executeAll tree id
  | .session id (.setVariable name value) => do
    Manager.setVariable id name value
    return []
  | .session id .unload => do
    Manager.deactivate id
    return []

abbrev Answer := Except SessionError (List Outcome)

-- What a request is answered, and the keeper that it leaves, whether it was served or refused.
def serveOver (tree : Tree Operation) (manager : Manager) (request : Request) : Answer × Manager :=
  (request.work tree).run manager

def afterAllOver (tree : Tree Operation) (manager : Manager) (requests : List Request) : Manager :=
  requests.foldl (fun manager request => (manager.serveOver tree request).2) manager

-- The same over the standard catalog.
def serve (manager : Manager) (request : Request) : Answer × Manager :=
  manager.serveOver Catalog.tree request

def answer (manager : Manager) (request : Request) : Answer :=
  (manager.serve request).1

def after (manager : Manager) (request : Request) : Manager :=
  (manager.serve request).2

def afterAll (manager : Manager) (requests : List Request) : Manager :=
  requests.foldl after manager

def transcript (manager : Manager) : List Request → List (Request × Answer)
  | [] => []
  | request :: rest => (request, manager.answer request) :: (manager.after request).transcript rest

theorem in_session_run {α : Type} (manager : Manager) (id : String) (work : SessionWork α) :
    (inSession id work).run manager =
      match manager.get? id with
      | some session =>
        ((work.run ⟨session, manager.world⟩).1,
          manager.update (work.run ⟨session, manager.world⟩).2.session (work.run ⟨session, manager.world⟩).2.world)
      | none => (.error (.sessionNotFound id), manager) := by
  change ((liftM (manager.find id) >>= fun session => _ : ManagerWork α).run manager) = _
  unfold find
  cases manager.get? id with
  | none => rfl
  | some session =>
    dsimp only
    change ((set (manager.update (work.run ⟨session, manager.world⟩).2.session (work.run ⟨session, manager.world⟩).2.world) >>=
      fun _ => liftM (work.run ⟨session, manager.world⟩).1 : ManagerWork α).run manager) = _
    rcases work.run ⟨session, manager.world⟩ with ⟨result, left⟩
    cases result <;> rfl

theorem map_in_session_run {α β : Type} (manager : Manager) (id : String) (work : SessionWork α) (result : α → β) :
    (do return result (← inSession id work) : ManagerWork β).run manager =
      (inSession id (do return result (← work))).run manager := by
  rw [in_session_run, run_bind, in_session_run]
  cases manager.get? id with
  | none => rfl
  | some session =>
    simp only [run_bind]
    rcases work.run ⟨session, manager.world⟩ with ⟨own, left⟩
    cases own <;> rfl

theorem serve_session (tree : Tree Operation) (manager : Manager) (id : String) (request : Session.Request) :
    manager.serveOver tree (.session id request) =
      match manager.get? id with
      | some session =>
        ((session.perform tree manager.world request).1,
          manager.update (session.perform tree manager.world request).2.session
            (session.perform tree manager.world request).2.world)
      | none => (.error (.sessionNotFound id), manager) := by
  have run : manager.serveOver tree (.session id request) = (inSession id (request.work tree)).run manager := by
    cases request with
    | execute text => exact map_in_session_run manager id (Session.execute tree text) fun outcome => [outcome]
    | executeScript | executeAll => rfl
    | setVariable name value => exact map_in_session_run manager id (Session.setVariable name value) fun _ => []
    | unload => exact map_in_session_run manager id Session.deactivate fun _ => []
  rw [run, in_session_run]
  rfl

theorem load_run (manager : Manager) (id : String) (bundle : Bundle) :
    (load id bundle).run manager =
      if manager.isLoaded id then (.error (.duplicateSession id), manager)
      else
        match Session.load id bundle with
        | .ok session => (.ok (), manager.store session)
        | .error error => (.error error, manager) := by
  change ((if manager.isLoaded id then _ else _ : ManagerWork Unit).run manager) = _
  split
  · rfl
  · change ((liftM (Session.load id bundle) >>= fun session => modify fun manager => manager.store session : ManagerWork Unit).run manager) = _
    cases Session.load id bundle <;> rfl

theorem load_text_run (manager : Manager) (name text : String) :
    (loadText name text).run manager =
      if name.isEmpty then (.error .emptyScriptName, manager)
      else if Text.allBlank text.toList then (.error (.emptyScript name), manager)
      else (load name [(name, text)]).run manager := by
  unfold loadText
  by_cases unnamed : name.isEmpty = true
  · rw [if_pos unnamed, if_pos unnamed]
    rfl
  · rw [if_neg unnamed, if_neg unnamed]
    by_cases blank : Text.allBlank text.toList = true
    · rw [if_pos blank, if_pos blank]
      rfl
    · rw [if_neg blank, if_neg blank]

theorem unload_run (manager : Manager) (id : String) :
    (unload id).run manager =
      if manager.isLoaded id then (.ok (), { manager with sessions := manager.sessions.drop id })
      else (.error (.sessionNotFound id), manager) := by
  change ((if !manager.isLoaded id then _ else _ : ManagerWork Unit).run manager) = _
  cases manager.isLoaded id <;> rfl

-- The answer of work that has nothing to answer but that it was done.
def silent (ended : Except SessionError Unit × Manager) : Answer × Manager :=
  (ended.1.map fun _ => [], ended.2)

theorem silent_run (manager : Manager) (work : ManagerWork Unit) :
    (do work; return [] : ManagerWork (List Outcome)).run manager = silent (work.run manager) := by
  rw [run_bind, silent]
  rcases work.run manager with ⟨result, left⟩
  cases result <;> rfl

@[simp] theorem get_store (manager : Manager) (session : Session) (query : String) :
    (manager.store session).get? query = if query = session.id then some session else manager.get? query :=
  Table.find_put manager.sessions session.id query session

@[simp] theorem get_update (manager : Manager) (session : Session) (world : World) (query : String) :
    (manager.update session world).get? query = if query = session.id then some session else manager.get? query :=
  get_store manager session query

theorem get_drop (manager : Manager) (id query : String) :
    get? { manager with sessions := manager.sessions.drop id } query = if query = id then none else manager.get? query :=
  Table.find_drop manager.sessions id query

-- Sessions are kept under their own ids, in ascending order.
structure Orderly (manager : Manager) : Prop where
  ascending : manager.sessions.Ascending
  keyed : ∀ id session, manager.get? id = some session → session.id = id

theorem Orderly.update_found {manager : Manager} (orderly : manager.Orderly) (id : String) (session : Session)
    (found : manager.get? id = some session) : manager.update session manager.world = manager := by
  have own := orderly.keyed id session found
  rw [update, store, own, Table.put_found manager.sessions id session orderly.ascending found]

-- The script bundle that a request wants to load, with the id of the new session.
def Request.opens : Request → Option (String × Bundle)
  | .load id bundle => some (id, bundle)
  | .loadText name text => some (name, [(name, text)])
  | .unload _ | .unloadAll | .session _ _ => none

-- All ways in which a request may end, with what was checked on the way.
inductive Serves (tree : Tree Operation) (manager : Manager) : Request → Answer × Manager → Prop where
  | refused (request : Request) (error : SessionError) : Serves tree manager request (.error error, manager)
  | loaded (request : Request) (id : String) (bundle : Bundle) (session : Session) (asked : request.opens = some (id, bundle))
      (free : manager.isLoaded id = false) (opened : Session.load id bundle = .ok session) :
      Serves tree manager request (.ok [], manager.store session)
  | dropped (id : String) : Serves tree manager (.unload id) (.ok [], { manager with sessions := manager.sessions.drop id })
  | cleared : Serves tree manager .unloadAll (.ok [], { manager with sessions := [] })
  | performed (id : String) (request : Session.Request) (session : Session) (outcomes : List Outcome) (next : SessionState)
      (found : manager.get? id = some session) (ends : session.perform tree manager.world request = (.ok outcomes, next)) :
      Serves tree manager (.session id request) (.ok outcomes, manager.update next.session next.world)

theorem load_serves (tree : Tree Operation) (manager : Manager) (request : Request) (id : String) (bundle : Bundle)
    (asked : request.opens = some (id, bundle)) : manager.Serves tree request (silent ((load id bundle).run manager)) := by
  rw [load_run]
  cases loaded : manager.isLoaded id with
  | true => exact .refused request _
  | false =>
    cases opened : Session.load id bundle with
    | error error => exact .refused request error
    | ok session => exact .loaded request id bundle session asked loaded opened

theorem Orderly.serves {manager : Manager} (orderly : manager.Orderly) (tree : Tree Operation) (request : Request) :
    manager.Serves tree request (manager.serveOver tree request) := by
  cases request with
  | load id bundle =>
    rw [serveOver, Request.work, silent_run]
    exact load_serves tree manager _ id bundle rfl
  | loadText name text =>
    rw [serveOver, Request.work, silent_run, load_text_run]
    split
    · exact .refused _ _
    · split
      · exact .refused _ _
      · exact load_serves tree manager _ name _ rfl
  | unload id =>
    rw [serveOver, Request.work, silent_run, unload_run]
    split
    · exact .dropped id
    · exact .refused _ _
  | unloadAll => exact .cleared
  | session id request =>
    rw [serve_session]
    cases found : manager.get? id with
    | none => exact .refused _ _
    | some session =>
      dsimp only
      cases session.performs request with
      | refused error ends =>
        rw [ends, orderly.update_found id session found]
        exact .refused _ error
      | ran active ends =>
        rw [ends]
        exact .performed id request session _ _ found (ends tree manager.world)
      | bound active name value asked ends =>
        rw [ends]
        exact .performed id request session _ _ found (ends tree manager.world)
      | unloaded asked ends =>
        rw [ends]
        exact .performed id request session _ _ found (ends tree manager.world)

theorem fresh_orderly (world : World) : (fresh world).Orderly :=
  ⟨List.Pairwise.nil, fun _ _ found => nomatch found⟩

section Held

variable {tree : Tree Operation} {manager : Manager} {request : Request} {ended : Answer × Manager}

theorem held_after_update (holds : String → Session → Prop) (held : ∀ id session, manager.get? id = some session → holds id session) (session : Session) (world : World)
    (own : holds session.id session) : ∀ id found, (manager.update session world).get? id = some found → holds id found := by
  intro id found present
  rw [get_update] at present
  split at present
  · rename_i same
    obtain rfl := Option.some.inj present
    exact same ▸ own
  · exact held id found present

theorem held_after_drop (holds : String → Session → Prop) (held : ∀ id session, manager.get? id = some session → holds id session) (dropped : String) :
    ∀ id found, get? { manager with sessions := manager.sessions.drop dropped } id = some found → holds id found := by
  intro id found present
  rw [get_drop] at present
  split at present
  · cases present
  · exact held id found present

-- What holds of every session that is kept still does after a request, if it holds of sessions that are
-- loaded and no session loses it at work.
theorem Serves.held (serves : manager.Serves tree request ended) (holds : String → Session → Prop)
    (held : ∀ id session, manager.get? id = some session → holds id session)
    (loads : ∀ id bundle session, Session.load id bundle = .ok session → holds session.id session)
    (works : ∀ id work session, request = .session id work → manager.get? id = some session →
      holds (session.perform tree manager.world work).2.session.id (session.perform tree manager.world work).2.session) :
    ∀ id session, ended.2.get? id = some session → holds id session := by
  cases serves with
  | refused => exact held
  | loaded _ id bundle session asked free opened => exact held_after_update holds held session manager.world (loads id bundle session opened)
  | dropped id => exact held_after_drop holds held id
  | cleared => exact fun query found present => nomatch present
  | performed id work session outcomes next found ends =>
    have own := works id work session rfl found
    rw [ends] at own
    exact held_after_update holds held next.session next.world own

end Held

theorem Orderly.left {tree : Tree Operation} {manager : Manager} {request : Request} {ended : Answer × Manager}
    (orderly : manager.Orderly) (serves : manager.Serves tree request ended) : ended.2.Orderly := by
  refine ⟨?_, serves.held (fun id session => session.id = id) orderly.keyed (fun _ _ _ _ => rfl) fun _ _ _ _ _ => rfl⟩
  cases serves with
  | refused => exact orderly.ascending
  | loaded | performed => exact Table.put_ascending _ _ _ orderly.ascending
  | dropped id => exact Table.drop_ascending _ id orderly.ascending
  | cleared => exact List.Pairwise.nil

-- What every request keeps, every run keeps.
theorem after_all_preserves (tree : Tree Operation) (holds : Manager → Prop)
    (step : ∀ manager request, holds manager → holds (manager.serveOver tree request).2)
    (manager : Manager) (requests : List Request) (start : holds manager) : holds (manager.afterAllOver tree requests) := by
  induction requests generalizing manager with
  | nil => exact start
  | cons request rest ih => exact ih (manager.serveOver tree request).2 (step manager request start)

theorem Orderly.after {manager : Manager} (orderly : manager.Orderly) (tree : Tree Operation) (request : Request) :
    (manager.serveOver tree request).2.Orderly :=
  orderly.left (orderly.serves tree request)

theorem Orderly.after_all {manager : Manager} (orderly : manager.Orderly) (tree : Tree Operation) (requests : List Request) :
    (manager.afterAllOver tree requests).Orderly :=
  after_all_preserves tree Orderly (fun _ request orderly => orderly.after tree request) manager requests orderly

end Manager

end CommandScript
