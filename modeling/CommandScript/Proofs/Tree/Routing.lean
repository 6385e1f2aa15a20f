import CommandScript.Operation.Basic
import CommandScript.Proofs.Tree.Holding

set_option autoImplicit false

namespace CommandScript

namespace Operation

-- How a call may end: as the operation itself ends, but a crash has become a fault.
inductive Ends (operation : Operation) (arguments : List Value) (world : World) : Except Fault Value × World → Prop where
  | value (value : Value) (after : World) (run : (operation.run arguments).run world = (.ok value, after)) :
      Ends operation arguments world (.ok value, after)
  | fault (reason : Fault) (after : World) (run : (operation.run arguments).run world = (.error (.fault reason), after)) :
      Ends operation arguments world (.error reason, after)
  | crash (report : Option String) (after : World)
      (run : (operation.run arguments).run world = (.error (.crash report), after)) :
      Ends operation arguments world (.error (.runtime (.crashed (report.getD "unknown panic"))), after)

theorem invoke_ends (operation : Operation) (arguments : List Value) (world : World) :
    operation.Ends arguments world ((operation.invoke arguments).run world) := by
  have renamed : (operation.invoke arguments).run world =
      (((operation.run arguments).run world).1.mapError Stop.toFault, ((operation.run arguments).run world).2) := rfl
  rw [renamed]
  match run : (operation.run arguments).run world with
  | (.ok value, after) => exact .value value after run
  | (.error (.fault reason), after) => exact .fault reason after run
  | (.error (.crash report), after) => exact .crash report after run

end Operation

namespace Tree

variable {α : Type}

-- Paths that end at a namespace.
inductive Names : Tree α → List String → Prop where
  | here (children : List (String × Tree α)) : Names (.group children) []
  | inside (children : List (String × Tree α)) (key : String) (child : Tree α) (keys : List String)
      (listed : (key, child) ∈ children) (named : Names child keys) : Names (.group children) (key :: keys)

theorem names_above (tree : Tree α) (first rest : List String) (named : tree.Names (first ++ rest)) : tree.Names first := by
  induction first generalizing tree with
  | nil => cases named <;> exact .here _
  | cons key keys ih =>
    cases named with
    | inside children _ child _ listed inner => exact .inside children key child keys listed (ih child inner)

-- Under a key there is one child only.
theorem names_child (children : List (String × Tree α)) (ascending : Table.Ascending children) (key : String) (child : Tree α)
    (keys : List String) (found : Table.find? children key = some child) (named : Names (.group children) (key :: keys)) :
    child.Names keys := by
  cases named with
  | inside _ _ other _ listed inner =>
    rw [Table.find_of_mem children key other ascending listed] at found
    exact Option.some.inj found ▸ inner

theorem route_named (tree : Tree α) (wellKeyed : WellKeyed tree) (path : List String) (named : tree.Names path) :
    tree.route path = .onNamespace := by
  induction named with
  | here children => rw [route]
  | inside children key child keys listed named ih =>
    cases wellKeyed with
    | group _ ascending _ inner =>
      rw [route, Table.find_of_mem children key child ascending listed]
      exact ih (inner key child listed)

theorem route_on_namespace (tree : Tree α) (path : List String) (ended : tree.route path = .onNamespace) : tree.Names path := by
  induction path generalizing tree with
  | nil =>
    cases tree with
    | operation leaf => simp [route] at ended
    | group children => exact .here children
  | cons segment rest ih =>
    cases tree with
    | operation leaf => simp [route] at ended
    | group children =>
      rw [route] at ended
      cases found : Table.find? children segment with
      | none => simp [found] at ended
      | some child =>
        simp only [found] at ended
        exact .inside children segment child rest (Table.find_mem children segment child found) (ih child ended)

-- A path that leaves the tree goes from namespace to namespace up to the segment that is reported.
theorem route_missing (tree : Tree α) (wellKeyed : WellKeyed tree) (path : List String) (segment : String)
    (missing : tree.route path = .missing segment) :
    ∃ named rest, path = named ++ segment :: rest ∧ tree.Names named ∧ ¬ tree.Names (named ++ [segment]) := by
  induction path generalizing tree with
  | nil => cases tree <;> simp [route] at missing
  | cons first others ih =>
    cases tree with
    | operation leaf => simp [route] at missing
    | group children =>
      cases wellKeyed with
      | group _ ascending _ inner =>
        rw [route] at missing
        cases found : Table.find? children first with
        | none =>
          simp only [found] at missing
          obtain rfl := Route.missing.inj missing
          refine ⟨[], others, rfl, .here children, fun named => ?_⟩
          cases named with
          | inside _ _ child _ listed _ => simp [Table.find_of_mem children first child ascending listed] at found
        | some child =>
          simp only [found] at missing
          have listed := Table.find_mem children first child found
          obtain ⟨named, rest, rfl, names, stops⟩ := ih child (inner first child listed) missing
          refine ⟨first :: named, rest, rfl, .inside children first child named listed names, fun longer => stops ?_⟩
          exact names_child children ascending first child _ found longer

-- No operation stands below another one.
theorem held_on_path (tree : Tree α) (wellKeyed : WellKeyed tree) (path keys others : List String) (leaf another : α)
    (held : tree.Holds keys leaf) (again : tree.Holds others another) (leads : keys <+: path) (leadsAgain : others <+: path) :
    others = keys ∧ another = leaf := by
  induction held generalizing path others with
  | here leaf =>
    cases again
    exact ⟨rfl, rfl⟩
  | inside children key child keys leaf listed held ih =>
    cases again with
    | inside _ other sibling more _ siblingListed siblingHeld =>
      cases wellKeyed with
      | group _ ascending _ inner =>
        obtain ⟨rest, rfl⟩ := leads
        obtain ⟨rfl, below⟩ := List.cons_prefix_cons.mp leadsAgain
        have found := Table.find_of_mem children other child ascending listed
        rw [Table.find_of_mem children other sibling ascending siblingListed] at found
        obtain rfl := Option.some.inj found
        obtain ⟨rfl, same⟩ := ih (inner _ _ listed) (keys ++ rest) more siblingHeld (List.prefix_append keys rest) below
        exact ⟨rfl, same⟩

theorem longest_named (tree : Tree α) (named rest : List String) (segment : String) (stops : ¬ tree.Names (named ++ [segment]))
    (longer : List String) (leads : longer <+: named ++ segment :: rest) (names : tree.Names longer) :
    longer.length ≤ named.length := by
  by_contra beyond
  have next : named ++ [segment] <+: longer := by
    refine List.prefix_of_prefix_length_le ⟨rest, by simp⟩ leads ?_
    simp only [List.length_append, List.length_singleton]
    omega
  obtain ⟨more, rfl⟩ := next
  exact stops (names_above tree _ more names)

-- Where a path leads decides how a call of it ends, and it leads to one place only: to an operation,
-- whatever follows; to a namespace; or out of the tree.
theorem every_path_has_one_ending (children : List (String × Outline Operation)) (tree : Tree Operation)
    (built : ofChildren children = .ok tree) (path : List String) (arguments : List Value) :
    (∃ keys operation, (tree.Holds keys operation ∧ keys <+: path ∧
        ∀ others another, tree.Holds others another → others <+: path → others = keys ∧ another = operation) ∧
      ¬ tree.Names path ∧ ∀ world, operation.Ends arguments world ((tree.dispatch path arguments).run world)) ∨
    (tree.Names path ∧ (∀ keys operation, tree.Holds keys operation → ¬ keys <+: path) ∧
      ∀ world, (tree.dispatch path arguments).run world = (.error (.methodNotFound (Command.joinPath path)), world)) ∨
    (¬ tree.Names path ∧ (∀ keys operation, tree.Holds keys operation → ¬ keys <+: path) ∧
      ∃ named segment rest, path = named ++ segment :: rest ∧ tree.Names named ∧
        (∀ longer, longer <+: path → tree.Names longer → longer.length ≤ named.length) ∧
        ∀ world, (tree.dispatch path arguments).run world =
          (.error (.namespaceNotFound segment (Command.joinPath path)), world)) := by
  have wellKeyed : WellKeyed tree := build_well_keyed "" (.group children) tree built
  have reaches (keys : List String) (operation : Operation) (held : tree.Holds keys operation) (leads : keys <+: path) :
      tree.route path = .reached operation := by
    obtain ⟨rest, rfl⟩ := leads
    exact route_held tree wellKeyed keys rest operation held
  have unnamed (own : Route Operation) (routed : tree.route path = own) (other : own ≠ .onNamespace) : ¬ tree.Names path :=
    fun named => other (routed.symm.trans (route_named tree wellKeyed path named))
  simp only [dispatch, dispatchFrom, List.drop_zero]
  cases routed : tree.route path with
  | reached operation =>
    obtain ⟨keys, held, leads⟩ := route_reached tree path operation routed
    refine .inl ⟨keys, operation, ⟨held, leads, fun others another again leadsAgain => ?_⟩, unnamed _ routed nofun, ?_⟩
    · exact held_on_path tree wellKeyed path keys others operation another held again leads leadsAgain
    · exact operation.invoke_ends arguments
  | onNamespace =>
    refine .inr (.inl ⟨route_on_namespace tree path routed, fun keys operation held leads => ?_, fun world => rfl⟩)
    cases routed.symm.trans (reaches keys operation held leads)
  | missing segment =>
    obtain ⟨named, rest, written, names, stops⟩ := route_missing tree wellKeyed path segment routed
    refine .inr (.inr ⟨unnamed _ routed nofun, fun keys operation held leads => ?_, named, segment, rest, written, names, ?_,
      fun world => rfl⟩)
    · cases routed.symm.trans (reaches keys operation held leads)
    · exact written ▸ longest_named tree named rest segment stops

def jam : Operation :=
  ⟨fun _ => throw (.crash (some "jammed"))⟩

def workshop : List (String × Outline Operation) :=
  [("Press", .operation jam), ("Bench", .group [])]

def workshopTree : Tree Operation :=
  .group [("Bench", .group []), ("Press", .operation jam)]

theorem press_runs_whatever_follows :
    ofChildren workshop = .ok workshopTree ∧ ∃ keys operation, workshopTree.Holds keys operation ∧
      keys <+: ["Press", "Lid"] ∧ ∀ world,
        operation.Ends [.null] world ((workshopTree.dispatch ["Press", "Lid"] [.null]).run world) := by
  have crashes : ((workshopTree.dispatch ["Press", "Lid"] [.null]).run World.initial).1 =
      .error (.runtime (.crashed "jammed")) := rfl
  refine ⟨rfl, ?_⟩
  rcases every_path_has_one_ending workshop workshopTree rfl ["Press", "Lid"] [.null] with
    ⟨keys, operation, ⟨held, leads, _⟩, _, ends⟩ | ⟨_, _, ends⟩ | ⟨_, _, _, _, _, _, _, _, ends⟩
  · exact ⟨keys, operation, held, leads, ends⟩
  · rw [ends] at crashes
    cases crashes
  · rw [ends] at crashes
    cases crashes

end Tree

end CommandScript
