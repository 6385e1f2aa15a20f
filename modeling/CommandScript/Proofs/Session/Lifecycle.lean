import CommandScript.Proofs.Session.Requests

set_option autoImplicit false

namespace CommandScript

namespace Session

-- Names under which the scripts of a bundle can be told apart.
structure Distinct (names : List String) : Prop where
  some : names ≠ []
  named : ∀ name ∈ names, name ≠ ""
  apart : names.Nodup

-- An active session has scripts; one that was unloaded holds nothing.
structure Whole (session : Session) : Prop where
  scripted : session.active = true → Distinct session.scriptNames
  emptied : session.active = false → session.scripts = [] ∧ session.context = Context.empty

-- The names that were seen before are met nowhere in the rest.
theorem check_names_ok (seen names : List String) (passed : checkNames seen names = .ok ()) :
    (∀ name ∈ names, name ≠ "" ∧ name ∉ seen) ∧ names.Nodup := by
  induction names generalizing seen with
  | nil => exact ⟨by simp, List.nodup_nil⟩
  | cons name rest ih =>
    rw [checkNames] at passed
    by_cases unnamed : name.isEmpty = true
    · simp [unnamed] at passed
    · by_cases met : seen.contains name = true
      · rw [if_neg unnamed, if_pos met] at passed
        cases passed
      · rw [if_neg unnamed, if_neg met] at passed
        obtain ⟨others, distinct⟩ := ih (name :: seen) passed
        have fresh : name ∉ rest := fun again => (others name again).2 List.mem_cons_self
        refine ⟨List.forall_mem_cons.mpr ⟨⟨by simpa using unnamed, by simpa using met⟩, fun other listed => ?_⟩,
          List.nodup_cons.mpr ⟨fresh, distinct⟩⟩
        exact ⟨(others other listed).1, fun before => (others other listed).2 (List.mem_cons_of_mem _ before)⟩

theorem loaded_names (id : String) (bundle : Bundle) (session : Session) (loaded : load id bundle = .ok session) :
    Distinct (bundle.map Prod.fst) := by
  unfold load at loaded
  by_cases empty : bundle.isEmpty = true
  · simp [empty, throw, throwThe, MonadExceptOf.throw, bind, Except.bind] at loaded
  · rw [if_neg empty] at loaded
    cases checked : checkNames [] (bundle.map Prod.fst) with
    | error error => simp [checked, bind, Except.bind] at loaded
    | ok _ =>
      obtain ⟨named, apart⟩ := check_names_ok [] _ checked
      exact ⟨by simpa using empty, fun name listed => (named name listed).1, apart⟩

theorem check_names_distinct (seen names : List String) (fresh : ∀ name ∈ names, name ≠ "" ∧ name ∉ seen) (apart : names.Nodup) :
    checkNames seen names = .ok () := by
  induction names generalizing seen with
  | nil => rfl
  | cons name rest ih =>
    obtain ⟨⟨named, unmet⟩, others⟩ := List.forall_mem_cons.mp fresh
    obtain ⟨once, later⟩ := List.nodup_cons.mp apart
    rw [checkNames, if_neg (by simpa using named), if_neg (by simpa using unmet)]
    refine ih (name :: seen) (fun other listed => ⟨(others other listed).1, ?_⟩) later
    rw [List.mem_cons, not_or]
    exact ⟨fun same => once (same ▸ listed), (others other listed).2⟩

theorem distinct_loads (id : String) (bundle : Bundle) (distinct : Distinct (bundle.map Prod.fst)) :
    ∃ session, load id bundle = .ok session := by
  have filled : ¬ bundle.isEmpty = true := by simpa using distinct.some
  have checked : checkNames [] (bundle.map Prod.fst) = .ok () :=
    check_names_distinct [] _ (fun name listed => ⟨distinct.named name listed, List.not_mem_nil⟩) distinct.apart
  unfold load
  rw [if_neg filled, checked]
  exact ⟨_, rfl⟩

theorem load_whole (id : String) (bundle : Bundle) (session : Session) (loaded : load id bundle = .ok session) :
    session.Whole := by
  have names := loaded_names id bundle session loaded
  rw [load_made id bundle session loaded]
  refine ⟨fun _ => ?_, fun inactive => by simp at inactive⟩
  rw [scriptNames, List.map_map]
  exact names

theorem unload_whole (session : Session) (whole : session.Whole) : session.unload.Whole := by
  unfold unload
  split
  · exact ⟨fun active => by simp at active, fun _ => ⟨rfl, rfl⟩⟩
  · exact whole

-- An active session gets another context, and nothing else.
theorem whole_of_active (session : Session) (context : Context) (active : session.active = true) (whole : session.Whole) :
    Whole { session with context } :=
  ⟨whole.scripted, fun inactive => by simp [active] at inactive⟩

theorem perform_whole (session : Session) (tree : Tree Operation) (request : Request) (world : World) (whole : session.Whole) :
    (session.perform tree world request).2.session.Whole := by
  cases session.performs request with
  | refused error ends =>
    rw [ends]
    exact whole
  | ran active ends =>
    rw [ends]
    exact session.whole_of_active _ active whole
  | bound active name value asked ends =>
    rw [ends]
    exact session.whole_of_active _ active whole
  | unloaded asked ends =>
    rw [ends]
    exact session.unload_whole whole

theorem perform_inactive (session : Session) (tree : Tree Operation) (request : Request) (world : World)
    (inactive : session.active = false) : (session.perform tree world request).2 = ⟨session, world⟩ := by
  cases session.performs request with
  | refused error ends => rw [ends]
  | ran active ends => simp [inactive] at active
  | bound active name value asked ends => simp [inactive] at active
  | unloaded asked ends => simp [ends, unload, inactive]

end Session

namespace Manager

-- The session that a request is addressed to.
def Request.addressee : Request → Option String
  | .load id _ | .loadText id _ | .unload id | .session id _ => some id
  | .unloadAll => none

-- Whether a request takes a session away from the keeper.
def Request.removes (id : String) : Request → Bool
  | .unload other => other == id
  | .unloadAll => true
  | .load _ _ | .loadText _ _ | .session _ _ => false

def Whole (manager : Manager) : Prop :=
  ∀ id session, manager.get? id = some session → session.Whole

variable {tree : Tree Operation} {manager : Manager} {request : Request} {ended : Answer × Manager}

theorem Serves.whole (serves : manager.Serves tree request ended) (whole : manager.Whole) : ended.2.Whole :=
  serves.held (fun _ session => session.Whole) whole Session.load_whole fun id work session _ found =>
    session.perform_whole tree work manager.world (whole id session found)

theorem Serves.refusal_keeps (serves : manager.Serves tree request ended) (error : SessionError) (refused : ended.1 = .error error) :
    ended.2 = manager := by
  cases serves with
  | refused => rfl
  | loaded | dropped | cleared | performed => cases refused

theorem opens_addressee (request : Request) (id : String) (bundle : Bundle) (asked : request.opens = some (id, bundle)) :
    request.addressee = some id := by
  cases request with
  | load | loadText =>
    obtain ⟨rfl, rfl⟩ := Prod.mk.inj (Option.some.inj asked)
    rfl
  | unload | unloadAll | session => cases asked

theorem performed_id (orderly : manager.Orderly) (id : String) (request : Session.Request) (session : Session)
    (outcomes : List Outcome) (next : SessionState) (found : manager.get? id = some session)
    (ends : session.perform tree manager.world request = (.ok outcomes, next)) : next.session.id = id := by
  have same := session.perform_id tree request manager.world
  rw [ends] at same
  exact same.trans (orderly.keyed id session found)

-- A session is touched by what is addressed to it, and by unloading all.
theorem Serves.others (serves : manager.Serves tree request ended) (orderly : manager.Orderly) (id other : String)
    (addressed : request.addressee = some id) (different : other ≠ id) : ended.2.get? other = manager.get? other := by
  cases serves with
  | refused => rfl
  | loaded _ own bundle session asked free opened =>
    obtain rfl : own = id := Option.some.inj ((opens_addressee request own bundle asked).symm.trans addressed)
    rw [get_store, Session.load_made own bundle session opened, if_neg different]
  | dropped own =>
    obtain rfl := Option.some.inj addressed
    rw [get_drop, if_neg different]
  | cleared => cases addressed
  | performed own request session outcomes next found ends =>
    obtain rfl := Option.some.inj addressed
    rw [get_update, performed_id orderly own request session outcomes next found ends, if_neg different]

theorem Serves.inactive_stays (serves : manager.Serves tree request ended) (orderly : manager.Orderly) (id : String)
    (session : Session) (found : manager.get? id = some session) (inactive : session.active = false)
    (kept : request.removes id = false) : ended.2.get? id = some session := by
  cases serves with
  | refused => exact found
  | loaded _ own bundle opened asked free made =>
    have different : id ≠ own := by
      rintro rfl
      simp [isLoaded, Table.has, show manager.sessions.find? id = some session from found] at free
    rw [get_store, Session.load_made own bundle opened made, if_neg different]
    exact found
  | dropped own =>
    have different : id ≠ own := by
      rintro rfl
      simp [Request.removes] at kept
    rw [get_drop, if_neg different]
    exact found
  | cleared => simp [Request.removes] at kept
  | performed own request other outcomes next asked ends =>
    rw [get_update, performed_id orderly own request other outcomes next asked ends]
    by_cases same : id = own
    · subst same
      obtain rfl := Option.some.inj (found.symm.trans asked)
      have left := session.perform_inactive tree request manager.world inactive
      rw [ends] at left
      rw [if_pos rfl, show next = ⟨session, manager.world⟩ from left]
    · rw [if_neg same]
      exact found

theorem inactive_stays_inactive (tree : Tree Operation) (requests : List Request) (manager : Manager) (orderly : manager.Orderly)
    (id : String) (session : Session) (found : manager.get? id = some session) (inactive : session.active = false)
    (kept : ∀ request ∈ requests, request.removes id = false) : (manager.afterAllOver tree requests).get? id = some session := by
  induction requests generalizing manager with
  | nil => exact found
  | cons request rest ih =>
    obtain ⟨first, others⟩ := List.forall_mem_cons.mp kept
    have serves := orderly.serves tree request
    exact ih (manager.serveOver tree request).2 (orderly.left serves)
      (serves.inactive_stays orderly id session found inactive first) others

-- What a keeper of sessions warrants at any time, and of any request that is made then.
structure Upheld (tree : Tree Operation) (manager : Manager) : Prop where
  keyed : ∀ id session, manager.get? id = some session → session.id = id
  ascending : manager.ids.Pairwise fun first second => first < second
  scripted : ∀ id session, manager.get? id = some session → session.active = true → Session.Distinct session.scriptNames
  emptied : ∀ id session, manager.get? id = some session → session.active = false →
    session.scripts = [] ∧ session.context = Context.empty
  settled : ∀ id session requests, manager.get? id = some session → session.active = false →
    (∀ request ∈ requests, request.removes id = false) → (manager.afterAllOver tree requests).get? id = some session
  apart : ∀ request id other, request.addressee = some id → other ≠ id →
    (manager.serveOver tree request).2.get? other = manager.get? other
  refused : ∀ request error, (manager.serveOver tree request).1 = .error error → (manager.serveOver tree request).2 = manager

theorem Orderly.upheld (orderly : manager.Orderly) (whole : manager.Whole) (tree : Tree Operation) : manager.Upheld tree where
  keyed := orderly.keyed
  ascending := List.pairwise_map.mpr orderly.ascending
  scripted id session found := (whole id session found).scripted
  emptied id session found := (whole id session found).emptied
  settled id session requests := inactive_stays_inactive tree requests manager orderly id session
  apart request id other := (orderly.serves tree request).others orderly id other
  refused request := (orderly.serves tree request).refusal_keeps

-- Sessions are never half loaded, half unloaded or mixed up, whatever is asked of their keeper.
theorem sessions_stay_whole (tree : Tree Operation) (world : World) (requests : List Request) :
    ((fresh world).afterAllOver tree requests).Upheld tree := by
  have step (manager : Manager) (request : Request) (holds : manager.Orderly ∧ manager.Whole) :
      (manager.serveOver tree request).2.Orderly ∧ (manager.serveOver tree request).2.Whole :=
    ⟨holds.1.after tree request, (holds.1.serves tree request).whole holds.2⟩
  have start : (fresh world).Orderly ∧ (fresh world).Whole := ⟨fresh_orderly world, fun _ _ found => nomatch found⟩
  obtain ⟨orderly, whole⟩ := after_all_preserves tree (fun manager => manager.Orderly ∧ manager.Whole) step (fresh world) requests start
  exact orderly.upheld whole tree

end Manager

end CommandScript
