import CommandScript.Proofs.Tree.Holding
import CommandScript.Proofs.Work

set_option autoImplicit false

namespace CommandScript

-- A check fails with the first of these violations, and passes if there are none.
def FailsFirst {ε α : Type} (check : Except ε α) : List ε → Prop
  | [] => ∃ value, check = .ok value
  | first :: _ => check = .error first

namespace FailsFirst

variable {ε α : Type}

theorem error_iff {check : Except ε α} {violations : List ε} (fails : FailsFirst check violations) (error : ε) :
    check = .error error ↔ violations.head? = some error := by
  cases violations with
  | nil =>
    obtain ⟨value, rfl⟩ := fails
    simp
  | cons first others =>
    obtain rfl : check = .error first := fails
    simp

theorem ok_iff {check : Except ε α} {violations : List ε} (fails : FailsFirst check violations) :
    (∃ value, check = .ok value) ↔ violations = [] := by
  cases violations with
  | nil => exact ⟨fun _ => rfl, fun _ => fails⟩
  | cons first others =>
    obtain rfl : check = .error first := fails
    simp

end FailsFirst

namespace Outline

variable {α : Type}

-- At every level the keys are identifiers and no two of them are equal.
inductive Proper : Outline α → Prop where
  | operation (leaf : α) : Proper (.operation leaf)
  | group (entries : List (String × Outline α))
      (keys : ∀ key inner, (key, inner) ∈ entries → Text.isIdentifier key.toList = true)
      (distinct : (entries.map Prod.fst).Nodup) (inner : ∀ key inner, (key, inner) ∈ entries → Proper inner) :
      Proper (.group entries)

def keyViolations (parent : String) (earlier : List String) (key : String) : List BuildError :=
  (if Text.isIdentifier key.toList then [] else [.invalidKey key]) ++
    if key ∈ earlier then [.duplicateKey parent key] else []

mutual

-- All that is wrong with an outline: child by child as they are listed, what is wrong inside of a
-- child before what is wrong with its key.
def violations (name : String) : Outline α → List BuildError
  | .operation _ => []
  | .group entries => violationsFrom name [] entries

def violationsFrom (parent : String) (earlier : List String) : List (String × Outline α) → List BuildError
  | [] => []
  | (key, inner) :: rest =>
    inner.violations key ++ (keyViolations parent earlier key ++ violationsFrom parent (key :: earlier) rest)

end

theorem key_violations_nil_iff (parent key : String) (earlier : List String) :
    keyViolations parent earlier key = [] ↔ Text.isIdentifier key.toList = true ∧ key ∉ earlier := by
  simp [keyViolations]

mutual

theorem violations_nil_iff (name : String) (outline : Outline α) : outline.violations name = [] ↔ outline.Proper := by
  cases outline with
  | operation leaf =>
    rw [violations]
    exact iff_of_true rfl (.operation leaf)
  | group entries =>
    rw [violations, violations_from_nil_iff name [] entries]
    constructor
    · rintro ⟨keys, distinct, _, inner⟩
      exact .group entries keys distinct inner
    · intro proper
      cases proper with
      | group _ keys distinct inner => exact ⟨keys, distinct, fun _ _ => List.not_mem_nil, inner⟩

theorem violations_from_nil_iff (parent : String) (earlier : List String) (entries : List (String × Outline α)) :
    violationsFrom parent earlier entries = [] ↔
      (∀ key inner, (key, inner) ∈ entries → Text.isIdentifier key.toList = true) ∧ (entries.map Prod.fst).Nodup ∧
        (∀ key ∈ entries.map Prod.fst, key ∉ earlier) ∧ ∀ key inner, (key, inner) ∈ entries → Proper inner := by
  cases entries with
  | nil =>
    rw [violationsFrom]
    simp
  | cons entry rest =>
    obtain ⟨key, inner⟩ := entry
    rw [violationsFrom, List.append_eq_nil_iff, List.append_eq_nil_iff, violations_nil_iff key inner, key_violations_nil_iff,
      violations_from_nil_iff parent (key :: earlier) rest]
    have every (holds : String → Outline α → Prop) : (∀ other child, (other, child) ∈ (key, inner) :: rest → holds other child) ↔
        holds key inner ∧ ∀ other child, (other, child) ∈ rest → holds other child := by
      simp only [← Prod.forall', List.forall_mem_cons]
    rw [every fun other _ => Text.isIdentifier other.toList = true, every fun _ child => child.Proper, List.map_cons,
      List.nodup_cons, List.forall_mem_cons]
    constructor
    · rintro ⟨proper, ⟨identifier, fresh⟩, keys, distinct, apart, others⟩
      refine ⟨⟨identifier, keys⟩, ⟨fun again => ?_, distinct⟩, ⟨fresh, fun other listed old => ?_⟩, proper, others⟩
      · exact apart key again List.mem_cons_self
      · exact apart other listed (List.mem_cons_of_mem key old)
    · rintro ⟨⟨identifier, keys⟩, ⟨once, distinct⟩, ⟨fresh, apart⟩, proper, others⟩
      refine ⟨proper, ⟨identifier, fresh⟩, keys, distinct, fun other listed old => ?_, others⟩
      rcases List.mem_cons.mp old with rfl | old
      · exact once listed
      · exact apart other listed old

end

end Outline

namespace Builder

variable {α : Type}

open Outline

-- While there is no error, the keys of the children are those that came earlier.
def Knows (builder : Builder α) (earlier : List String) : Prop :=
  builder.error = none → ∀ key, Table.has builder.children key = true ↔ key ∈ earlier

theorem named_knows (name : String) : (named name : Builder α).Knows [] := by
  intro _ key
  simp [named, Table.has, Table.find?]

theorem node_name (builder : Builder α) (key : String) (tree : Tree α) : (builder.node key tree).name = builder.name := by
  unfold node
  split_ifs <;> rfl

theorem take_name (builder : Builder α) (key : String) (built : Except BuildError (Tree α)) :
    (builder.take key built).name = builder.name := by
  cases built with
  | ok tree => rw [take, node_name]
  | error error => rfl

theorem take_knows (builder : Builder α) (earlier : List String) (key : String) (built : Except BuildError (Tree α))
    (knows : builder.Knows earlier) : (builder.take key built).Knows (key :: earlier) := by
  intro clean query
  obtain ⟨before, child, _, _, _, put⟩ := builder.take_clean key built clean
  rw [put, Table.has_put, List.mem_cons, ← knows before query]
  simp

theorem node_error (builder : Builder α) (earlier : List String) (key : String) (tree : Tree α)
    (knows : builder.Knows earlier) :
    (builder.node key tree).error = builder.error.or (keyViolations builder.name earlier key).head? := by
  cases before : builder.error with
  | some error => rw [node_failed builder key tree error before, before, Option.some_or]
  | none =>
    rw [node, keyViolations, before, Option.none_or]
    cases identifier : Text.isIdentifier key.toList with
    | false => simp
    | true =>
      by_cases taken : key ∈ earlier
      · simp [(knows before key).mpr taken, taken]
      · have absent : Table.has builder.children key = false :=
          Bool.eq_false_iff.mpr fun present => taken ((knows before key).mp present)
        simp [absent, taken]

-- The first violation is reported unless there was an error before, and what is wrong inside of the
-- child comes before what is wrong with its key.
theorem take_error (builder : Builder α) (earlier : List String) (key : String) (built : Except BuildError (Tree α))
    (inner : List BuildError) (knows : builder.Knows earlier) (fails : FailsFirst built inner) :
    (builder.take key built).error = builder.error.or (inner ++ keyViolations builder.name earlier key).head? := by
  cases inner with
  | nil =>
    obtain ⟨tree, rfl⟩ := fails
    exact builder.node_error earlier key tree knows
  | cons first others =>
    obtain rfl : built = .error first := fails
    rfl

theorem build_fails_first (builder : Builder α) (violations : List BuildError) (reported : builder.error = violations.head?) :
    FailsFirst builder.build violations := by
  cases violations with
  | nil => exact ⟨.group builder.children, by rw [build, reported, List.head?_nil]⟩
  | cons first others => rw [FailsFirst, build, reported, List.head?_cons]

end Builder

namespace Tree

variable {α : Type}

open Outline

mutual

theorem build_fails_first (key : String) (outline : Outline α) : FailsFirst (outline.build key) (outline.violations key) := by
  cases outline with
  | operation leaf =>
    rw [build, violations]
    exact ⟨.operation leaf, rfl⟩
  | group entries =>
    rw [build, violations]
    exact Builder.build_fails_first _ _ (collect_error (.named key) [] entries (Builder.named_knows key))

-- An error from before stays; else the first violation is reported.
theorem collect_error (builder : Builder α) (earlier : List String) (entries : List (String × Outline α))
    (knows : builder.Knows earlier) :
    (collect builder entries).error = builder.error.or (violationsFrom builder.name earlier entries).head? := by
  cases entries with
  | nil => rw [collect, violationsFrom, List.head?_nil, Option.or_none]
  | cons entry rest =>
    obtain ⟨key, inner⟩ := entry
    have own := builder.take_error earlier key _ _ knows (build_fails_first key inner)
    have later := collect_error (builder.take key (inner.build key)) (key :: earlier) rest
      (builder.take_knows earlier key _ knows)
    rw [collect, later, own, builder.take_name, violationsFrom]
    simp only [List.head?_append, Option.or_assoc]

end

-- A tree is built from an outline that is in order, and holds what the outline says; from any other
-- outline nothing is built, and the first violation is reported.
theorem outlines_build_unless_violated (children : List (String × Outline α)) :
    ((∃ tree, ofChildren children = .ok tree) ↔ (Outline.group children).Proper) ∧
    (∀ tree, ofChildren children = .ok tree →
      ∀ keys leaf, tree.Holds keys leaf ↔ (Outline.group children).Registers keys leaf) ∧
    ∀ error, ofChildren children = .error error ↔ ((Outline.group children).violations "").head? = some error := by
  have fails := build_fails_first "" (Outline.group children)
  refine ⟨?_, build_holds "" (.group children), fails.error_iff⟩
  exact fails.ok_iff.trans (violations_nil_iff "" (.group children))

def shelf : List (String × Outline Nat) :=
  [("Top", .group [("Pin", .operation 1), ("Cap", .group [])]), ("Pin", .operation 2)]

-- Four violations: a key that is taken inside of the first child, another that is none inside of the
-- second, the key of the second, and that of the third.
def brokenShelf : List (String × Outline Nat) :=
  [("Top", .group [("Pin", .operation 1), ("Pin", .operation 2)]), ("b.c", .group [("", .operation 3)]), ("Top", .operation 4)]

theorem inner_violation_comes_first :
    (∃ tree, ofChildren shelf = .ok tree ∧ tree.Holds ["Top", "Pin"] 1) ∧
      ((Outline.group brokenShelf).violations "").length = 4 ∧
      ofChildren brokenShelf = .error (.duplicateKey "Top" "Pin") ∧ ¬ (Outline.group brokenShelf).Proper := by
  obtain ⟨proper, _, violated⟩ := outlines_build_unless_violated brokenShelf
  have fails : ofChildren brokenShelf = .error (.duplicateKey "Top" "Pin") := (violated _).mpr rfl
  refine ⟨?_, rfl, fails, fun sound => ?_⟩
  · obtain ⟨_, holds, _⟩ := outlines_build_unless_violated shelf
    refine ⟨_, rfl, (holds _ rfl ["Top", "Pin"] 1).mpr ?_⟩
    exact .inside _ "Top" _ _ _ List.mem_cons_self (.inside _ "Pin" _ _ _ List.mem_cons_self (.here 1))
  · obtain ⟨tree, built⟩ := proper.mpr sound
    rw [fails] at built
    cases built

end Tree

end CommandScript
