import CommandScript.Proofs.Table
import CommandScript.Tree

set_option autoImplicit false

namespace CommandScript

namespace Tree

variable {α : Type}

-- What stands at the end of a path of keys.
inductive Holds : Tree α → List String → α → Prop where
  | here (leaf : α) : Holds (.operation leaf) [] leaf
  | inside (children : List (String × Tree α)) (key : String) (child : Tree α) (keys : List String) (leaf : α)
      (listed : (key, child) ∈ children) (held : Holds child keys leaf) : Holds (.group children) (key :: keys) leaf

end Tree

namespace Outline

variable {α : Type}

-- What was registered under a path of keys.
inductive Registers : Outline α → List String → α → Prop where
  | here (leaf : α) : Registers (.operation leaf) [] leaf
  | inside (entries : List (String × Outline α)) (key : String) (inner : Outline α) (keys : List String) (leaf : α)
      (listed : (key, inner) ∈ entries) (registered : Registers inner keys leaf) : Registers (.group entries) (key :: keys) leaf

theorem registers_group (entries : List (String × Outline α)) (keys : List String) (leaf : α) :
    Registers (.group entries) keys leaf ↔
      ∃ key inner rest, (key, inner) ∈ entries ∧ keys = key :: rest ∧ inner.Registers rest leaf := by
  constructor
  · rintro ⟨⟩
    rename_i key inner rest listed registered
    exact ⟨key, inner, rest, listed, rfl, registered⟩
  · rintro ⟨key, inner, rest, listed, rfl, registered⟩
    exact .inside entries key inner rest leaf listed registered

end Outline

namespace Tree

variable {α : Type}

-- In every namespace the keys are identifiers and come in ascending order.
inductive WellKeyed : Tree α → Prop where
  | operation (leaf : α) : WellKeyed (.operation leaf)
  | group (children : List (String × Tree α)) (ascending : Table.Ascending children)
      (keys : ∀ key child, (key, child) ∈ children → Text.isIdentifier key.toList = true)
      (inner : ∀ key child, (key, child) ∈ children → WellKeyed child) : WellKeyed (.group children)

theorem empty_well_keyed : WellKeyed (.group [] : Tree α) :=
  .group [] List.Pairwise.nil (fun _ _ listed => by simp at listed) (fun _ _ listed => by simp at listed)

theorem put_well_keyed (children : List (String × Tree α)) (key : String) (child : Tree α)
    (wellKeyed : WellKeyed (.group children)) (identifier : Text.isIdentifier key.toList = true)
    (childWellKeyed : WellKeyed child) : WellKeyed (.group (Table.put children key child)) := by
  cases wellKeyed with
  | group _ ascending keys inner =>
    refine .group _ (Table.put_ascending children key child ascending) ?_ ?_
    · intro other tree listed
      rcases Table.mem_put children key child (other, tree) listed with new | old
      · obtain ⟨rfl, rfl⟩ := Prod.mk.inj new
        exact identifier
      · exact keys other tree old
    · intro other tree listed
      rcases Table.mem_put children key child (other, tree) listed with new | old
      · obtain ⟨rfl, rfl⟩ := Prod.mk.inj new
        exact childWellKeyed
      · exact inner other tree old

end Tree

namespace Builder

variable {α : Type}

theorem node_failed (builder : Builder α) (key : String) (tree : Tree α) (error : BuildError)
    (failed : builder.error = some error) : builder.node key tree = builder := by
  rw [node, failed]
  rfl

theorem take_failed (builder : Builder α) (key : String) (built : Except BuildError (Tree α)) (error : BuildError)
    (failed : builder.error = some error) : (builder.take key built).error = some error := by
  cases built with
  | ok tree => rw [take, node_failed builder key tree error failed, failed]
  | error other => rw [take, failed, Option.some_or]

-- A child that leaves no error has been put among the others.
theorem take_clean (builder : Builder α) (key : String) (built : Except BuildError (Tree α))
    (clean : (builder.take key built).error = none) :
    builder.error = none ∧ ∃ child, built = .ok child ∧ Text.isIdentifier key.toList = true ∧
      Table.has builder.children key = false ∧ (builder.take key built).children = Table.put builder.children key child := by
  cases before : builder.error with
  | some error => simp [take_failed builder key built error before] at clean
  | none =>
    cases built with
    | error other => simp [take, before] at clean
    | ok child =>
      refine ⟨rfl, ?_⟩
      simp only [take, node, before, Option.isSome_none, Bool.false_eq_true, if_false] at clean ⊢
      split_ifs at clean ⊢ with invalid taken
      exact ⟨child, rfl, by simpa using invalid, by simpa using taken, rfl⟩

theorem build_ok (builder : Builder α) (tree : Tree α) (built : builder.build = .ok tree) :
    builder.error = none ∧ tree = .group builder.children := by
  rw [build] at built
  split at built
  · simp at built
  · rename_i clean
    exact ⟨clean, (Except.ok.inj built).symm⟩

end Builder

namespace Outline

variable {α : Type}

-- An error stays, whatever is still collected.
theorem collect_clean (builder : Builder α) (entries : List (String × Outline α))
    (clean : (collect builder entries).error = none) : builder.error = none := by
  induction entries generalizing builder with
  | nil => rwa [collect] at clean
  | cons entry rest ih =>
    rw [collect] at clean
    exact (builder.take_clean entry.1 _ (ih _ clean)).1

end Outline

namespace Tree

variable {α : Type}

theorem build_group (key : String) (entries : List (String × Outline α)) (tree : Tree α)
    (built : (Outline.group entries).build key = .ok tree) :
    (Outline.collect (.named key) entries).error = none ∧ tree = .group (Outline.collect (.named key) entries).children := by
  rw [Outline.build] at built
  exact Builder.build_ok _ tree built

-- Each turn puts one more child among those that are built.
theorem collect_cons (builder : Builder α) (key : String) (outline : Outline α) (rest : List (String × Outline α))
    (clean : (Outline.collect builder ((key, outline) :: rest)).error = none) :
    ∃ child, outline.build key = .ok child ∧ Text.isIdentifier key.toList = true ∧ Table.has builder.children key = false ∧
      (builder.take key (outline.build key)).children = Table.put builder.children key child ∧
      (Outline.collect (builder.take key (outline.build key)) rest).error = none := by
  rw [Outline.collect] at clean
  obtain ⟨_, child, built, identifier, absent, put⟩ := builder.take_clean key _ (Outline.collect_clean _ rest clean)
  exact ⟨child, built, identifier, absent, put, clean⟩

mutual

theorem build_well_keyed (key : String) (outline : Outline α) (tree : Tree α) (built : outline.build key = .ok tree) :
    WellKeyed tree := by
  cases outline with
  | operation leaf =>
    rw [Outline.build] at built
    obtain rfl := Except.ok.inj built
    exact .operation leaf
  | group entries =>
    obtain ⟨clean, rfl⟩ := build_group key entries tree built
    exact collect_well_keyed (.named key) entries empty_well_keyed clean

theorem collect_well_keyed (builder : Builder α) (entries : List (String × Outline α))
    (wellKeyed : WellKeyed (.group builder.children)) (clean : (Outline.collect builder entries).error = none) :
    WellKeyed (.group (Outline.collect builder entries).children) := by
  cases entries with
  | nil =>
    rw [Outline.collect]
    exact wellKeyed
  | cons entry rest =>
    obtain ⟨key, outline⟩ := entry
    obtain ⟨child, inner, identifier, _, put, later⟩ := collect_cons builder key outline rest clean
    rw [Outline.collect]
    refine collect_well_keyed _ rest ?_ later
    rw [put]
    exact put_well_keyed builder.children key child wellKeyed identifier (build_well_keyed key outline child inner)

end

theorem holds_group (children : List (String × Tree α)) (keys : List String) (leaf : α) :
    Holds (.group children) keys leaf ↔ ∃ key child rest, (key, child) ∈ children ∧ keys = key :: rest ∧ child.Holds rest leaf := by
  constructor
  · rintro ⟨⟩
    rename_i key child rest listed held
    exact ⟨key, child, rest, listed, rfl, held⟩
  · rintro ⟨key, child, rest, listed, rfl, held⟩
    exact .inside children key child rest leaf listed held

mutual

-- A tree holds what was registered, where it was registered.
theorem build_holds (key : String) (outline : Outline α) (tree : Tree α) (built : outline.build key = .ok tree)
    (keys : List String) (leaf : α) : tree.Holds keys leaf ↔ outline.Registers keys leaf := by
  cases outline with
  | operation own =>
    rw [Outline.build] at built
    obtain rfl := Except.ok.inj built
    constructor
    · rintro ⟨⟩
      exact .here leaf
    · rintro ⟨⟩
      exact .here leaf
  | group entries =>
    obtain ⟨clean, rfl⟩ := build_group key entries tree built
    rw [collect_holds (.named key) entries clean keys leaf, holds_group]
    simp [Builder.named]

theorem collect_holds (builder : Builder α) (entries : List (String × Outline α))
    (clean : (Outline.collect builder entries).error = none) (keys : List String) (leaf : α) :
    Holds (.group (Outline.collect builder entries).children) keys leaf ↔
      Holds (.group builder.children) keys leaf ∨ (Outline.group entries).Registers keys leaf := by
  cases entries with
  | nil =>
    rw [Outline.collect, Outline.registers_group]
    simp
  | cons entry rest =>
    obtain ⟨key, outline⟩ := entry
    obtain ⟨child, inner, _, absent, put, later⟩ := collect_cons builder key outline rest clean
    rw [Outline.collect, collect_holds _ rest later keys leaf, put, holds_group, holds_group, Outline.registers_group,
      Outline.registers_group]
    have new := build_holds key outline child inner
    simp only [Table.mem_put_new builder.children key child _ absent, List.mem_cons]
    constructor
    · rintro (⟨_, _, keys, here | earlier, rfl, held⟩ | ⟨own, other, keys, listed, rfl, registered⟩)
      · obtain ⟨rfl, rfl⟩ := Prod.mk.inj here
        exact .inr ⟨_, outline, keys, .inl rfl, rfl, (new keys leaf).mp held⟩
      · exact .inl ⟨_, _, keys, earlier, rfl, held⟩
      · exact .inr ⟨own, other, keys, .inr listed, rfl, registered⟩
    · rintro (⟨own, other, keys, earlier, rfl, held⟩ | ⟨_, _, keys, here | listed, rfl, registered⟩)
      · exact .inl ⟨own, other, keys, .inr earlier, rfl, held⟩
      · obtain ⟨rfl, rfl⟩ := Prod.mk.inj here
        exact .inl ⟨_, child, keys, .inl rfl, rfl, (new keys leaf).mpr registered⟩
      · exact .inr ⟨_, _, keys, listed, rfl, registered⟩

end

theorem route_reached (tree : Tree α) (path : List String) (leaf : α) (reached : tree.route path = .reached leaf) :
    ∃ keys, tree.Holds keys leaf ∧ keys <+: path := by
  induction path generalizing tree with
  | nil =>
    cases tree with
    | operation own =>
      obtain rfl : own = leaf := by simpa [route] using reached
      exact ⟨[], .here own, List.nil_prefix⟩
    | group children => simp [route] at reached
  | cons segment rest ih =>
    cases tree with
    | operation own =>
      obtain rfl : own = leaf := by simpa [route] using reached
      exact ⟨[], .here own, List.nil_prefix⟩
    | group children =>
      rw [route] at reached
      cases found : Table.find? children segment with
      | none => simp [found] at reached
      | some child =>
        simp only [found] at reached
        obtain ⟨keys, held, leads⟩ := ih child reached
        refine ⟨segment :: keys, ?_, List.cons_prefix_cons.mpr ⟨rfl, leads⟩⟩
        exact .inside children segment child keys leaf (Table.find_mem children segment child found) held

theorem route_held (tree : Tree α) (wellKeyed : WellKeyed tree) (keys rest : List String) (leaf : α)
    (held : tree.Holds keys leaf) : tree.route (keys ++ rest) = .reached leaf := by
  induction held with
  | here leaf => rw [route]
  | inside children key child keys leaf listed held ih =>
    cases wellKeyed with
    | group _ ascending _ inner =>
      rw [List.cons_append, route, Table.find_of_mem children key child ascending listed]
      exact ih (inner key child listed)

theorem held_once (tree : Tree α) (wellKeyed : WellKeyed tree) (keys : List String) (first second : α)
    (held : tree.Holds keys first) (again : tree.Holds keys second) : first = second := by
  have routed := route_held tree wellKeyed keys [] first held
  rw [route_held tree wellKeyed keys [] second again] at routed
  exact (Route.reached.inj routed).symm

theorem paths_of_children_flat (path : List String) (children : List (String × Tree α)) :
    pathsOfChildren path children = children.flatMap fun entry => entry.2.pathsAt (path ++ [entry.1]) := by
  induction children with
  | nil => rw [pathsOfChildren, List.flatMap_nil]
  | cons entry rest ih => rw [pathsOfChildren, ih, List.flatMap_cons]

theorem mem_paths_at (tree : Tree α) (wellKeyed : WellKeyed tree) (path keys : List String) :
    keys ∈ tree.pathsAt path ↔ ∃ rest leaf, tree.Holds rest leaf ∧ keys = path ++ rest := by
  induction wellKeyed generalizing path with
  | operation leaf =>
    rw [pathsAt, List.mem_singleton]
    constructor
    · rintro rfl
      exact ⟨[], leaf, .here leaf, (List.append_nil keys).symm⟩
    · rintro ⟨_, _, ⟨⟩, rfl⟩
      exact List.append_nil path
  | group children _ _ _ ih =>
    rw [pathsAt, paths_of_children_flat, List.mem_flatMap]
    constructor
    · rintro ⟨⟨key, child⟩, listed, member⟩
      obtain ⟨rest, leaf, held, rfl⟩ := (ih key child listed (path ++ [key])).mp member
      exact ⟨key :: rest, leaf, .inside children key child rest leaf listed held, by simp⟩
    · rintro ⟨_, leaf, ⟨⟩, rfl⟩
      rename_i key child rest listed held
      exact ⟨(key, child), listed, (ih key child listed (path ++ [key])).mpr ⟨rest, leaf, held, by simp⟩⟩

end Tree

end CommandScript
