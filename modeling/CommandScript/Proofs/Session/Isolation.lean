import CommandScript.Proofs.Quiet
import CommandScript.Proofs.Session.Loading

set_option autoImplicit false

namespace CommandScript

namespace Session

-- A session that was just loaded has no component: a script cannot declare one.
theorem load_plain (id : String) (bundle : Bundle) (session : Session) (loaded : load id bundle = .ok session) :
    session.context.Plain :=
  load_preserves Context.Plain (fun context name value plain computed => context.set_plain name value plain computed.plain)
    Context.empty_plain id bundle session loaded

-- Whether a request runs no command under `SFScript` and sets no variable to a component.
def quiet (session : Session) (request : Request) : Bool :=
  !session.active ||
    (session.linesOf request).all (fun line => !Command.reachesUnder "SFScript" line) &&
      match request with
      | .setVariable _ value => value.componentId?.isNone
      | _ => true

theorem unload_plain (session : Session) (plain : session.context.Plain) : session.unload.context.Plain := by
  unfold unload
  split
  · exact Context.empty_plain
  · exact plain

theorem perform_quiet (session : Session) (request : Request) (world : World) (quiet : session.quiet request = true)
    (plain : session.context.Plain) :
    (session.perform Catalog.tree world request).2.session.context.Plain ∧ world.Alike (session.perform Catalog.tree world request).2.world := by
  cases session.performs request with
  | refused error ends =>
    rw [ends]
    exact ⟨plain, rfl, rfl⟩
  | ran active ends =>
    simp only [Session.quiet, active, Bool.not_true, Bool.false_or, Bool.and_eq_true] at quiet
    have outside : ∀ line ∈ session.linesOf request, Command.reachesUnder "SFScript" line = false := by
      simpa using quiet.1
    rw [ends]
    exact State.execute_all_quiet (session.linesOf request) ⟨session.context, world⟩ outside plain
  | bound active name value asked ends =>
    subst asked
    simp only [Session.quiet, active, Bool.not_true, Bool.false_or, Bool.and_eq_true] at quiet
    have fresh : value.Plain := Option.isNone_iff_eq_none.mp quiet.2
    rw [ends]
    exact ⟨session.context.set_plain name value plain fresh, rfl, rfl⟩
  | unloaded asked ends =>
    rw [ends]
    exact ⟨session.unload_plain plain, rfl, rfl⟩

end Session

namespace Manager

-- Whether a request is made to the session with an id.
def Request.concerns (id : String) : Request → Bool
  | .session other _ => other == id
  | .load _ _ | .loadText _ _ | .unload _ | .unloadAll => false

def without (id : String) (requests : List Request) : List Request :=
  requests.filter fun request => !request.concerns id

def quietAt (manager : Manager) (id : String) : Request → Bool
  | .session other request =>
    match manager.get? id with
    | some session => other != id || session.quiet request
    | none => true
  | .load _ _ | .loadText _ _ | .unload _ | .unloadAll => true

-- Whether all that is asked of one session is quiet, at the time it is asked.
def quietRun (manager : Manager) (id : String) : List Request → Bool
  | [] => true
  | request :: rest => manager.quietAt id request && (manager.after request).quietRun id rest

theorem quiet_run_append (manager : Manager) (id : String) (first second : List Request) :
    manager.quietRun id (first ++ second) = (manager.quietRun id first && (manager.afterAll first).quietRun id second) := by
  induction first generalizing manager with
  | nil => rw [List.nil_append, quietRun, Bool.true_and, afterAll, List.foldl_nil]
  | cons request rest ih =>
    rw [List.cons_append, quietRun, quietRun, ih, Bool.and_assoc, afterAll, afterAll, List.foldl_cons]

-- Keepers that differ at most in one session, which has no component, and in what was written out.
structure Apart (id : String) (full rest : Manager) : Prop where
  others : ∀ other, other ≠ id → full.get? other = rest.get? other
  loaded : full.isLoaded id = rest.isLoaded id
  plain : ∀ session, full.get? id = some session → session.context.Plain
  world : full.world.Alike rest.world

-- Two answers that say the same, and the keepers left with them.
structure Matched (related : Manager → Manager → Prop) (first second : Answer × Manager) : Prop where
  answers : first.1 = second.1
  keepers : related first.2 second.2

variable {id : String} {full rest : Manager}

theorem Apart.is_loaded (apart : Apart id full rest) (other : String) : full.isLoaded other = rest.isLoaded other := by
  by_cases same : other = id
  · exact same ▸ apart.loaded
  · exact congrArg Option.isSome (apart.others other same)

theorem Apart.update_both (apart : Apart id full rest) (session : Session) (first second : World) (alike : first.Alike second)
    (plain : session.id = id → session.context.Plain) : Apart id (full.update session first) (rest.update session second) := by
  refine ⟨fun other different => ?_, ?_, fun own found => ?_, alike⟩
  · rw [get_update, get_update, apart.others other different]
  · change ((full.update session first).get? id).isSome = ((rest.update session second).get? id).isSome
    rw [get_update, get_update]
    split
    · rfl
    · exact apart.loaded
  · rw [get_update] at found
    split at found
    · rename_i same
      exact Option.some.inj found ▸ plain same.symm
    · exact apart.plain own found

theorem Apart.update_own (apart : Apart id full rest) (old session : Session) (world : World) (found : full.get? id = some old)
    (own : session.id = id) (plain : session.context.Plain) (alike : full.world.Alike world) :
    Apart id (full.update session world) rest := by
  refine ⟨fun other different => ?_, ?_, fun stored same => ?_,
    alike.registry.symm.trans apart.world.registry, alike.store.symm.trans apart.world.store⟩
  · rw [get_update, own, if_neg different, apart.others other different]
  · have kept : ((full.update session world).get? id).isSome = (full.get? id).isSome := by
      rw [get_update, own, if_pos rfl, found]
      rfl
    exact kept.trans apart.loaded
  · rw [get_update, own, if_pos rfl] at same
    exact Option.some.inj same ▸ plain

theorem Apart.drop_both (apart : Apart id full rest) (other : String) :
    Apart id { full with sessions := full.sessions.drop other } { rest with sessions := rest.sessions.drop other } := by
  have dropped (manager : Manager) (query : String) :
      get? { manager with sessions := manager.sessions.drop other } query = if query = other then none else manager.get? query :=
    Table.find_drop manager.sessions other query
  refine ⟨fun query different => ?_, ?_, fun session found => ?_, apart.world⟩
  · rw [dropped, dropped, apart.others query different]
  · change (get? { full with sessions := full.sessions.drop other } id).isSome =
      (get? { rest with sessions := rest.sessions.drop other } id).isSome
    rw [dropped, dropped]
    split
    · rfl
    · exact apart.loaded
  · rw [dropped] at found
    split at found
    · simp at found
    · exact apart.plain session found

theorem Matched.silent {first second : Except SessionError Unit × Manager} {related : Manager → Manager → Prop}
    (answers : first.1 = second.1) (keepers : related first.2 second.2) : Matched related (silent first) (silent second) :=
  ⟨congrArg (Except.map fun _ => []) answers, keepers⟩

theorem load_matched (apart : Apart id full rest) (other : String) (bundle : Bundle) :
    Matched (Apart id) (silent ((load other bundle).run full)) (silent ((load other bundle).run rest)) := by
  rw [load_run, load_run, apart.is_loaded other]
  split
  · exact .silent rfl apart
  · cases opened : Session.load other bundle with
    | error error => exact .silent rfl apart
    | ok session =>
      exact .silent rfl (apart.update_both session _ _ apart.world fun _ => Session.load_plain other bundle session opened)

-- The other sessions cannot tell the two keepers apart.
theorem session_matched (apart : Apart id full rest) (orderly : full.Orderly) (other : String) (request : Session.Request)
    (different : other ≠ id) :
    Matched (Apart id) (full.serve (.session other request)) (rest.serve (.session other request)) := by
  rw [serve, serve, serve_session, serve_session, apart.others other different]
  cases found : rest.get? other with
  | none => exact ⟨rfl, apart⟩
  | some session =>
    have named : session.id ≠ id := by
      rw [orderly.keyed other session ((apart.others other different).trans found)]
      exact different
    dsimp only
    cases session.performs request with
    | refused error ends =>
      simp only [ends]
      exact ⟨rfl, apart.update_both _ _ _ apart.world fun own => absurd own named⟩
    | ran active ends =>
      obtain ⟨answers, alike⟩ := State.execute_all_alike (session.linesOf request) ⟨session.context, full.world⟩
        ⟨session.context, rest.world⟩ ⟨rfl, apart.world⟩
      simp only [ends, Session.runLines]
      rw [answers, alike.context]
      exact ⟨rfl, apart.update_both _ _ _ alike.world fun own => absurd own named⟩
    | bound active name value asked ends =>
      simp only [ends]
      exact ⟨rfl, apart.update_both _ _ _ apart.world fun own => absurd own named⟩
    | unloaded asked ends =>
      simp only [ends]
      exact ⟨rfl, apart.update_both _ _ _ apart.world fun own => absurd (session.unload_id.symm.trans own) named⟩

theorem serve_matched (apart : Apart id full rest) (orderly : full.Orderly) (request : Request)
    (elsewhere : request.concerns id = false) : Matched (Apart id) (full.serve request) (rest.serve request) := by
  cases request with
  | load other bundle =>
    rw [serve, serve, serveOver, serveOver, Request.work, silent_run, silent_run]
    exact load_matched apart other bundle
  | loadText name text =>
    rw [serve, serve, serveOver, serveOver, Request.work, silent_run, silent_run, load_text_run, load_text_run]
    split
    · exact .silent rfl apart
    · split
      · exact .silent rfl apart
      · exact load_matched apart name _
  | unload other =>
    rw [serve, serve, serveOver, serveOver, Request.work, silent_run, silent_run, unload_run, unload_run, apart.is_loaded other]
    cases rest.isLoaded other with
    | true => exact .silent rfl (apart.drop_both other)
    | false => exact .silent rfl apart
  | unloadAll =>
    refine ⟨rfl, fun _ _ => rfl, rfl, fun session found => ?_, apart.world⟩
    have empty : none = some session := found
    cases empty
  | session other request => exact session_matched apart orderly other request (by simpa [Request.concerns] using elsewhere)

-- What one session asks quietly, the others need not know.
theorem after_own_apart (apart : Apart id full rest) (orderly : full.Orderly) (request : Request) (own : request.concerns id = true)
    (quiet : full.quietAt id request = true) : Apart id (full.after request) rest := by
  cases request with
  | load | loadText | unload | unloadAll => simp [Request.concerns] at own
  | session other request =>
    obtain rfl : other = id := by simpa [Request.concerns] using own
    unfold after
    rw [serve, serve_session]
    cases found : full.get? other with
    | none => exact apart
    | some session =>
      have allowed : session.quiet request = true := by simpa [quietAt, found] using quiet
      have same := (session.perform_id Catalog.tree request full.world).trans (orderly.keyed other session found)
      obtain ⟨plain, alike⟩ := session.perform_quiet request full.world allowed (apart.plain session found)
      exact apart.update_own session _ _ found same plain alike

theorem run_apart (requests : List Request) (apart : Apart id full rest) (orderly : full.Orderly)
    (quiet : full.quietRun id requests = true) :
    (full.transcript requests).filter (fun entry => !entry.1.concerns id) = rest.transcript (without id requests) ∧
      Apart id (full.afterAll requests) (rest.afterAll (without id requests)) := by
  induction requests generalizing full rest with
  | nil => exact ⟨rfl, apart⟩
  | cons request later ih =>
    obtain ⟨now, afterwards⟩ := Bool.and_eq_true_iff.mp quiet
    have still := orderly.after Catalog.tree request
    cases own : request.concerns id with
    | true =>
      have dropped : without id (request :: later) = without id later := List.filter_cons_of_neg (by simp [own])
      rw [dropped, transcript, List.filter_cons_of_neg (by simp [own])]
      exact ih (after_own_apart apart orderly request own now) still afterwards
    | false =>
      have kept : without id (request :: later) = request :: without id later := List.filter_cons_of_pos (by simp [own])
      have matched := serve_matched apart orderly request own
      have said : full.answer request = rest.answer request := matched.answers
      have left : Apart id (full.after request) (rest.after request) := matched.keepers
      obtain ⟨same, final⟩ := ih left still afterwards
      rw [kept, transcript, transcript, List.filter_cons_of_pos (by simp [own]), same, said]
      exact ⟨rfl, final⟩

-- A session that never runs a command under `SFScript`, and is given no component, is not noticed by
-- the others: what they are answered, what they hold, the types and the components are as if it had
-- not run at all.
theorem quiet_session_goes_unnoticed (world : World) (id : String) (setup requests : List Request) (start : Manager)
    (reached : start = (fresh world).afterAll setup) (quiet : (fresh world).quietRun id (setup ++ requests) = true) :
    (start.transcript requests).filter (fun entry => !entry.1.concerns id) = start.transcript (without id requests) ∧
      (∀ other, other ≠ id → (start.afterAll requests).get? other = (start.afterAll (without id requests)).get? other) ∧
      (start.afterAll requests).world.Alike (start.afterAll (without id requests)).world := by
  rw [quiet_run_append, ← reached, Bool.and_eq_true] at quiet
  have empty : Apart id (fresh world) (fresh world) := ⟨fun _ _ => rfl, rfl, nofun, rfl, rfl⟩
  have before := (run_apart setup empty (fresh_orderly world) quiet.1).2
  have orderly : ((fresh world).afterAll setup).Orderly := (fresh_orderly world).after_all Catalog.tree setup
  rw [← reached] at before orderly
  have alone : Apart id start start := ⟨fun _ _ => rfl, rfl, before.plain, rfl, rfl⟩
  obtain ⟨answers, apart⟩ := run_apart requests alone orderly quiet.2
  exact ⟨answers, apart.others, apart.world⟩

def loading : List Request :=
  [.loadText "a" "// @field:string label = mine\nSystem.Console.Write($label)", .loadText "b" "Engine.Debug.Log('b')"]

def duet : List Request :=
  [.session "b" (.execute "$label = SFScript.Type.Create('Text')"), .session "a" .executeAll,
    .session "a" (.execute "Engine.UI.Text.SetText($label, 'a')"), .session "b" (.execute "Engine.UI.Text.GetText($label)")]

theorem duet_goes_unnoticed :
    (fresh World.initial).quietRun "a" (loading ++ duet) = true ∧
      (((fresh World.initial).afterAll loading).transcript duet).filter (fun entry => !entry.1.concerns "a") =
        ((fresh World.initial).afterAll loading).transcript (without "a" duet) := by
  have quiet : (fresh World.initial).quietRun "a" (loading ++ duet) = true := by decide +kernel
  exact ⟨quiet, (quiet_session_goes_unnoticed World.initial "a" loading duet _ rfl quiet).1⟩

end Manager

end CommandScript
