import CommandScript.Proofs.Session.Lifecycle
import Mathlib.Data.List.Nodup

set_option autoImplicit false

namespace CommandScript

namespace Session

-- The value that the last of these markers gives to a variable.
def lastMarked (markers : List FieldMarker) (name : String) : Option Value :=
  markers.reverse.findSome? fun field => if field.name = name then some field.value else none

-- The sessions that requests lead to, whatever the state is that other sessions leave in between.
def Leads (session : Session) (tree : Tree Operation) : Session → Prop :=
  Relation.ReflTransGen (fun before after => ∃ request world, after = (before.perform tree world request).2.session) session

theorem last_marked_cons (marker : FieldMarker) (rest : List FieldMarker) (name : String) :
    lastMarked (marker :: rest) name = (lastMarked rest name).or (if marker.name = name then some marker.value else none) := by
  rw [lastMarked, List.reverse_cons, List.findSome?_append, List.findSome?_singleton, lastMarked]

theorem get_marked (markers : List FieldMarker) (context : Context) (name : String) :
    (markers.foldl (fun context field => context.set field.name field.value) context).get? name =
      (lastMarked markers name).or (context.get? name) := by
  induction markers generalizing context with
  | nil => exact Option.none_or.symm
  | cons marker rest ih =>
    rw [List.foldl_cons, ih, last_marked_cons, Option.or_assoc, Context.get?, Context.set, Table.find_put]
    by_cases same : marker.name = name
    · rw [if_pos same, if_pos same.symm, Option.some_or]
    · rw [if_neg same, if_neg (Ne.symm same), Option.none_or, Context.get?]

theorem get_seeded (scripts : List Script) (context : Context) (name : String) :
    (scripts.foldl seed context).get? name = (lastMarked (scripts.flatMap Script.fields) name).or (context.get? name) := by
  rw [← get_marked, List.foldl_flatMap]
  rfl

theorem load_get (id : String) (bundle : Bundle) (session : Session) (loaded : load id bundle = .ok session) (name : String) :
    session.context.get? name = lastMarked (session.scripts.flatMap Script.fields) name := by
  rw [load_made id bundle session loaded, get_seeded]
  exact Option.or_none

theorem script_found (session : Session) (apart : session.scriptNames.Nodup) (script : Script) (listed : script ∈ session.scripts) :
    session.script script.name = .ok script := by
  rw [Session.script]
  cases found : session.scripts.find? fun other => other.name == script.name with
  | none => exact absurd (List.find?_eq_none.mp found script listed) (by simp)
  | some other =>
    have sameName : other.name = script.name := by simpa using List.find?_some found
    rw [List.inj_on_of_nodup_map apart (List.mem_of_find?_eq_some found) listed sameName]

theorem script_by_name (session : Session) (tree : Tree Operation) (world : World) (active : session.active = true)
    (apart : session.scriptNames.Nodup) (script : Script) (listed : script ∈ session.scripts) :
    (executeScript tree script.name).run ⟨session, world⟩ = (runScript tree script).run ⟨session, world⟩ := by
  have ends := perform_script session tree world script.name active
  rw [script_found session apart script listed] at ends
  rw [run_script_run]
  exact ends

-- What one script leaves of the session is its scripts, so the next is found under its name as before.
theorem scripts_by_name (tree : Tree Operation) (part : List Script) (session : Session) (world : World)
    (active : session.active = true) (apart : session.scriptNames.Nodup) (listed : ∀ script ∈ part, script ∈ session.scripts) :
    ((part.map Script.name).mapM (executeScript tree)).run ⟨session, world⟩ =
      (part.mapM (runScript tree)).run ⟨session, world⟩ := by
  induction part generalizing session world with
  | nil => rfl
  | cons script rest ih =>
    obtain ⟨first, others⟩ := List.forall_mem_cons.mp listed
    have later := ih (session.runLines tree script.commands world).2.session (session.runLines tree script.commands world).2.world
      active apart others
    rw [List.map_cons, List.mapM_cons, List.mapM_cons, run_bind, run_bind,
      script_by_name session tree world active apart script first, run_script_run]
    dsimp only
    rw [run_bind, run_bind, later]

theorem perform_active (session : Session) (tree : Tree Operation) (request : Request) (world : World)
    (active : (session.perform tree world request).2.session.active = true) :
    session.active = true ∧ (session.perform tree world request).2.session.scripts = session.scripts := by
  cases session.performs request with
  | refused error ends =>
    rw [ends] at active ⊢
    exact ⟨active, rfl⟩
  | ran own ends =>
    rw [ends]
    exact ⟨own, rfl⟩
  | bound own name value asked ends =>
    rw [ends]
    exact ⟨own, rfl⟩
  | unloaded asked ends =>
    rw [ends] at active ⊢
    have still : session.active = true := by
      by_contra inactive
      simp [unload, inactive] at active
    simp [unload, still] at active

-- A session that is active still holds the scripts that it was loaded with.
theorem leads_scripts (session : Session) (tree : Tree Operation) (later : Session) (leads : session.Leads tree later)
    (active : later.active = true) : later.scripts = session.scripts := by
  induction leads with
  | refl => rfl
  | @tail middle last _ step ih =>
    obtain ⟨request, world, rfl⟩ := step
    obtain ⟨before, same⟩ := middle.perform_active tree request world active
    exact same.trans (ih before)

theorem scripts_run_as_one (tree : Tree Operation) (id : String) (bundle : Bundle) (session : Session)
    (loaded : load id bundle = .ok session) :
    session.scripts = bundle.map (fun script => Script.ofText script.1 script.2) ∧
    (∀ name, session.context.get? name = lastMarked (session.scripts.flatMap Script.fields) name) ∧
    (∀ manager : Manager, manager.isLoaded id = false → ∃ left, (Manager.load id bundle).run manager = (.ok (), left) ∧
      left.get? id = some session ∧ left.world = manager.world) ∧
    ∀ later world, session.Leads tree later → later.active = true →
      (executeAll tree).run ⟨later, world⟩ =
        (List.flatten <$> later.scriptNames.mapM (executeScript tree)).run ⟨later, world⟩ ∧
      (executeAll tree).run ⟨later, world⟩ =
        (.ok (later.runLines tree (session.scripts.flatMap Script.commands) world).1,
          (later.runLines tree (session.scripts.flatMap Script.commands) world).2) := by
  have made := load_made id bundle session loaded
  refine ⟨by rw [made], load_get id bundle session loaded, fun manager free => ?_, fun later world leads active => ?_⟩
  · refine ⟨manager.store session, ?_, ?_, rfl⟩
    · rw [Manager.load_run, free, loaded]
      rfl
    · rw [Manager.get_store, made, if_pos rfl]
  · have same := leads_scripts session tree later leads active
    have apart : later.scriptNames.Nodup := by
      rw [scriptNames, same]
      exact ((load_whole id bundle session loaded).scripted (by rw [made])).apart
    rw [execute_all_run later tree world active, ← same, run_scripts_run]
    refine ⟨?_, rfl⟩
    have named := scripts_by_name tree later.scripts later world active apart fun _ listed => listed
    rw [scriptNames, map_eq_pure_bind, run_bind, named, ← run_bind, ← map_eq_pure_bind, run_scripts_run]

-- Both scripts declare `n`, and a host sets `m` before they run.
def pair : Bundle :=
  [("first", "// @field:int n = 1\n// @field:int m = 7\nSystem.Console.Write($m)"),
    ("second", "// @field:int n = 2\nSystem.Console.Write($n)")]

theorem pair_runs_as_one : ∃ session, load "duo" pair = .ok session ∧ session.context.get? "n" = some (.int 2) ∧
    ∃ later, session.Leads Catalog.tree later ∧
      ((List.flatten <$> later.scriptNames.mapM (executeScript Catalog.tree)).run ⟨later, World.initial⟩).2.world.output = .kept "52" := by
  have whole (session : Session) (loaded : load "duo" pair = .ok session) := scripts_run_as_one Catalog.tree "duo" pair session loaded
  refine ⟨_, rfl, ?_, _, .single ⟨.setVariable "m" (.int 5), World.initial, rfl⟩, ?_⟩
  · rw [(whole _ rfl).2.1]
    rfl
  · obtain ⟨named, all⟩ := (whole _ rfl).2.2.2 _ World.initial (.single ⟨.setVariable "m" (.int 5), World.initial, rfl⟩) rfl
    rw [← named, all]
    decide +kernel

end Session

end CommandScript
