import CommandScript.Proofs.Registry.Ancestry
import Mathlib.Data.Finset.Card
import Mathlib.Data.Finset.SDiff

set_option autoImplicit false

namespace CommandScript.Registry

def parentsOf (r : Registry) (interface : String) : List String :=
  match r.interfaces.find? interface with
  | some info => info.parents
  | none => []

def Extends (r : Registry) : String → String → Prop :=
  Relation.ReflTransGen fun interface above => above ∈ r.parentsOf interface

-- A depth-first search over pending interfaces that has come to its end, without any bound on its
-- depth. The lists are what was seen before it and what was seen after it.
inductive SearchRun (r : Registry) (target : String) : List String → List String → Bool → List String → Prop where
  | done (seen : List String) : SearchRun r target seen [] false seen
  | found (seen rest : List String) : SearchRun r target seen (target :: rest) true seen
  | skip (seen : List String) (interface : String) (rest : List String) (answer : Bool) (final : List String)
      (other : interface ≠ target) (known : interface ∈ seen) (remaining : SearchRun r target seen rest answer final) :
      SearchRun r target seen (interface :: rest) answer final
  | hit (seen : List String) (interface : String) (rest final : List String)
      (other : interface ≠ target) (new : interface ∉ seen)
      (inside : SearchRun r target (interface :: seen) (r.parentsOf interface) true final) :
      SearchRun r target seen (interface :: rest) true final
  | miss (seen : List String) (interface : String) (rest middle : List String) (answer : Bool) (final : List String)
      (other : interface ≠ target) (new : interface ∉ seen)
      (inside : SearchRun r target (interface :: seen) (r.parentsOf interface) false middle)
      (remaining : SearchRun r target middle rest answer final) :
      SearchRun r target seen (interface :: rest) answer final

-- The loop from a type to the types above it, which searches what each of them declares.
inductive QueryRun (r : Registry) (target : String) : List String → String → Bool → Prop where
  | found (seen : List String) (type : String) (info : TypeInfo) (final : List String)
      (stored : r.types.find? type = some info) (search : SearchRun r target seen info.interfaces true final) :
      QueryRun r target seen type true
  | top (seen : List String) (type : String) (info : TypeInfo) (final : List String)
      (stored : r.types.find? type = some info) (search : SearchRun r target seen info.interfaces false final)
      (root : info.parent = none) : QueryRun r target seen type false
  | lost (seen : List String) (type : String) (info : TypeInfo) (final : List String) (above : String)
      (stored : r.types.find? type = some info) (search : SearchRun r target seen info.interfaces false final)
      (given : info.parent = some above) (missing : r.types.find? above = none) : QueryRun r target seen type false
  | up (seen : List String) (type : String) (info : TypeInfo) (middle : List String) (above : String) (answer : Bool)
      (stored : r.types.find? type = some info) (search : SearchRun r target seen info.interfaces false middle)
      (given : info.parent = some above) (next : QueryRun r target middle above answer) :
      QueryRun r target seen type answer

def unseen (r : Registry) (seen : List String) : Finset String :=
  r.interfaces.keys.toFinset \ seen.toFinset

theorem unseen_mono (r : Registry) (seen more : List String) (grown : seen ⊆ more) :
    (r.unseen more).card ≤ (r.unseen seen).card := by
  apply Finset.card_le_card
  exact Finset.sdiff_subset_sdiff (Finset.Subset.refl _) fun name present =>
    List.mem_toFinset.mpr (grown (List.mem_toFinset.mp present))

theorem unseen_enter (r : Registry) (seen : List String) (interface : String) (present : r.hasInterface interface = true)
    (new : interface ∉ seen) : (r.unseen (interface :: seen)).card < (r.unseen seen).card := by
  have smaller : r.unseen (interface :: seen) = (r.unseen seen).erase interface := by
    ext name
    simp only [unseen, List.toFinset_cons, Finset.mem_sdiff, Finset.mem_insert, Finset.mem_erase]
    tauto
  have member : interface ∈ r.unseen seen := by
    simpa [unseen, new] using Table.mem_keys_of_has r.interfaces interface present
  rw [smaller]
  exact Finset.card_erase_lt_of_mem member

theorem search_grows (r : Registry) (target : String) (seen pending final : List String) (answer : Bool)
    (run : r.SearchRun target seen pending answer final) : seen ⊆ final := by
  induction run with
  | done seen => exact List.Subset.refl seen
  | found seen rest => exact List.Subset.refl seen
  | skip _ _ _ _ _ _ _ _ ih => exact ih
  | hit seen interface rest final _ _ _ ih => exact List.subset_of_cons_subset ih
  | miss seen interface rest middle answer final _ _ _ _ inner outer =>
    exact List.Subset.trans (List.subset_of_cons_subset inner) outer

theorem parents_of_missing (r : Registry) (interface : String) (missing : r.hasInterface interface = false) :
    r.parentsOf interface = [] := by
  rw [parentsOf, Table.find_none_of_not_has r.interfaces interface missing]

theorem reaches_other (r : Registry) (target interface : String) (seen : List String) (depth : Nat)
    (other : interface ≠ target) (new : interface ∉ seen) :
    r.reaches target (depth + 1) seen interface =
      searchAny (r.reaches target depth) (interface :: seen) (r.parentsOf interface) := by
  rw [reaches, if_neg other, if_neg (by simpa using new), parentsOf]
  cases r.interfaces.find? interface <;> rfl

-- The bound on the depth is never met: a search that goes one level down has entered an interface
-- that was not seen before.
theorem search_any_run (r : Registry) (target : String) (depth : Nat) (seen pending : List String)
    (enough : (r.unseen seen).card < depth) :
    r.SearchRun target seen pending (searchAny (r.reaches target depth) seen pending).1
      (searchAny (r.reaches target depth) seen pending).2 := by
  induction depth generalizing seen pending with
  | zero => simp at enough
  | succ depth deeper =>
    induction pending generalizing seen with
    | nil => exact .done seen
    | cons interface rest later =>
      rw [searchAny]
      by_cases here : interface = target
      · subst here
        rw [reaches, if_pos rfl]
        exact .found seen rest
      · by_cases known : interface ∈ seen
        · rw [reaches, if_neg here, if_pos (by simpa using known)]
          exact .skip seen interface rest _ _ here known (later seen enough)
        · have inside : r.SearchRun target (interface :: seen) (r.parentsOf interface)
              (searchAny (r.reaches target depth) (interface :: seen) (r.parentsOf interface)).1
              (searchAny (r.reaches target depth) (interface :: seen) (r.parentsOf interface)).2 := by
            by_cases present : r.hasInterface interface = true
            · have fewer := unseen_enter r seen interface present known
              exact deeper (interface :: seen) (r.parentsOf interface) (by omega)
            · rw [parents_of_missing r interface (by simpa using present)]
              exact .done (interface :: seen)
          rw [reaches_other r target interface seen depth here known]
          generalize searchAny (r.reaches target depth) (interface :: seen) (r.parentsOf interface) = result at inside
          obtain ⟨answer, middle⟩ := result
          cases answer with
          | true => exact .hit seen interface rest middle here known inside
          | false =>
            have grown := List.subset_of_cons_subset (search_grows r target _ _ _ _ inside)
            have still := Nat.lt_of_le_of_lt (unseen_mono r seen middle grown) enough
            exact .miss seen interface rest middle _ _ here known inside (later middle still)

theorem search_true (r : Registry) (target : String) (seen pending final : List String) (answer : Bool)
    (run : r.SearchRun target seen pending answer final) (positive : answer = true) :
    ∃ interface ∈ pending, r.Extends interface target := by
  induction run with
  | done seen => simp at positive
  | found seen rest => exact ⟨target, List.mem_cons_self, .refl⟩
  | skip seen interface rest answer final other known remaining ih =>
    obtain ⟨later, member, path⟩ := ih positive
    exact ⟨later, List.mem_cons_of_mem _ member, path⟩
  | hit seen interface rest final other new inside ih =>
    obtain ⟨above, member, path⟩ := ih rfl
    exact ⟨interface, List.mem_cons_self, .head member path⟩
  | miss seen interface rest middle answer final other new inside remaining inner outer =>
    obtain ⟨later, member, path⟩ := outer positive
    exact ⟨later, List.mem_cons_of_mem _ member, path⟩

-- What a search without success has gone through: everything that it was to look at, nothing that
-- is the target, and of each interface that it entered all the parents.
structure Explored (r : Registry) (target : String) (seen pending final : List String) : Prop where
  looked : pending ⊆ final
  missed : target ∉ seen → target ∉ final
  closed : ∀ interface ∈ final, interface ∈ seen ∨ r.parentsOf interface ⊆ final

theorem search_false (r : Registry) (target : String) (seen pending final : List String) (answer : Bool)
    (run : r.SearchRun target seen pending answer final) (negative : answer = false) :
    r.Explored target seen pending final := by
  induction run with
  | done seen => exact ⟨List.nil_subset seen, id, fun _ => .inl⟩
  | found seen rest => simp at negative
  | skip seen interface rest answer final other known remaining ih =>
    have grown := search_grows r target seen rest final answer remaining
    obtain ⟨looked, missed, closed⟩ := ih negative
    exact ⟨List.cons_subset.mpr ⟨grown known, looked⟩, missed, closed⟩
  | hit seen interface rest final other new inside ih => simp at negative
  | miss seen interface rest middle answer final other new inside remaining inner outer =>
    have entered := search_grows r target _ _ _ _ inside
    have grown := search_grows r target middle rest final answer remaining
    obtain ⟨lookedInside, missedInside, closedInside⟩ := inner rfl
    obtain ⟨lookedAfter, missedAfter, closedAfter⟩ := outer negative
    refine ⟨List.cons_subset.mpr ⟨grown (entered List.mem_cons_self), lookedAfter⟩, ?_, ?_⟩
    · intro absent
      exact missedAfter (missedInside (by simpa [absent] using Ne.symm other))
    · intro query member
      rcases closedAfter query member with early | parents
      · rcases closedInside query early with before | parents
        · rcases List.mem_cons.mp before with here | old
          · subst here
            exact .inr (List.Subset.trans lookedInside grown)
          · exact .inl old
        · exact .inr (List.Subset.trans parents grown)
      · exact .inr parents

theorem explored_unreachable (r : Registry) (target : String) (pending final : List String)
    (explored : r.Explored target [] pending final) (interface : String) (member : interface ∈ pending) :
    ¬ r.Extends interface target := by
  intro path
  have inside : ∀ query, r.Extends interface query → query ∈ final := by
    intro query walk
    induction walk with
    | refl => exact explored.looked member
    | tail _ step ih => exact ((explored.closed _ ih).resolve_left List.not_mem_nil) step
  exact explored.missed List.not_mem_nil (inside target path)

theorem unseen_initial (r : Registry) : (r.unseen []).card < r.interfaces.length + 1 := by
  have keys : r.interfaces.keys.toFinset.card ≤ r.interfaces.length := by
    simpa [Table.keys] using List.toFinset_card_le r.interfaces.keys
  simpa [unseen] using Nat.lt_succ_of_le keys

theorem search_any_iff (r : Registry) (target : String) (pending : List String) :
    (searchAny (r.reaches target (r.interfaces.length + 1)) [] pending).1 = true ↔
      ∃ interface ∈ pending, r.Extends interface target := by
  have run := search_any_run r target (r.interfaces.length + 1) [] pending (unseen_initial r)
  generalize searchAny (r.reaches target (r.interfaces.length + 1)) [] pending = result at run
  obtain ⟨answer, final⟩ := result
  cases answer with
  | true => exact ⟨fun _ => search_true r target [] pending final true run rfl, fun _ => rfl⟩
  | false =>
    refine ⟨fun never => by simp at never, ?_⟩
    rintro ⟨interface, member, path⟩
    have explored := search_false r target [] pending final false run rfl
    exact absurd path (explored_unreachable r target pending final explored interface member)

theorem reaches_iff (r : Registry) (target interface : String) :
    (r.reaches target (r.interfaces.length + 1) [] interface).1 = true ↔ r.Extends interface target := by
  have alone : (searchAny (r.reaches target (r.interfaces.length + 1)) [] [interface]).1 =
      (r.reaches target (r.interfaces.length + 1) [] interface).1 := by
    rw [searchAny]
    generalize r.reaches target (r.interfaces.length + 1) [] interface = result
    obtain ⟨answer, final⟩ := result
    cases answer <;> rfl
  rw [← alone, search_any_iff]
  simp

theorem search_split (r : Registry) (target : String) (seen first second final : List String) (answer : Bool)
    (run : r.SearchRun target seen (first ++ second) answer final) :
    (answer = true ∧ ∃ middle, r.SearchRun target seen first true middle) ∨
      ∃ middle, r.SearchRun target seen first false middle ∧ r.SearchRun target middle second answer final := by
  induction first generalizing seen with
  | nil => exact .inr ⟨seen, .done seen, run⟩
  | cons interface rest ih =>
    cases run with
    | found => exact .inl ⟨rfl, _, .found _ rest⟩
    | skip _ _ _ _ _ other known remaining =>
      rcases ih seen remaining with ⟨positive, middle, early⟩ | ⟨middle, early, late⟩
      · exact .inl ⟨positive, middle, .skip seen interface rest true middle other known early⟩
      · exact .inr ⟨middle, .skip seen interface rest false middle other known early, late⟩
    | hit _ _ _ _ other new inside => exact .inl ⟨rfl, final, .hit seen interface rest final other new inside⟩
    | miss _ _ _ between _ _ other new inside remaining =>
      rcases ih between remaining with ⟨positive, middle, early⟩ | ⟨middle, early, late⟩
      · exact .inl ⟨positive, middle, .miss seen interface rest between true middle other new inside early⟩
      · exact .inr ⟨middle, .miss seen interface rest between false middle other new inside early, late⟩

theorem query_run (r : Registry) (target type : String) (chain : List String) (walk : r.ParentChain type chain)
    (seen : List String) (answer : Bool) (final : List String) (present : ∀ above ∈ type :: chain, r.hasType above = true)
    (run : r.SearchRun target seen ((type :: chain).flatMap r.declared) answer final) :
    r.QueryRun target seen type answer := by
  induction walk generalizing seen with
  | root type root =>
    obtain ⟨info, stored⟩ := (Table.has_iff _ _).mp (present type List.mem_cons_self)
    have parent : info.parent = none := by simpa [parent?, stored] using root
    have declares : [type].flatMap r.declared = info.interfaces := by simp [declared, stored]
    rw [declares] at run
    cases answer with
    | true => exact .found seen type info final stored run
    | false => exact .top seen type info final stored run parent
  | up type above rest given _ ih =>
    obtain ⟨info, stored⟩ := (Table.has_iff _ _).mp (present type List.mem_cons_self)
    have parent : info.parent = some above := by simpa [parent?, stored] using given
    have declares : (type :: above :: rest).flatMap r.declared =
        info.interfaces ++ (above :: rest).flatMap r.declared := by simp [declared, stored]
    rw [declares] at run
    rcases search_split r target seen _ _ final answer run with ⟨positive, middle, early⟩ | ⟨middle, early, late⟩
    · subst positive
      exact .found seen type info middle stored early
    · exact .up seen type info middle above answer stored early parent
        (ih middle (fun query member => present query (List.mem_cons_of_mem _ member)) late)

theorem mem_declared_above (r : Registry) (consistent : r.Consistent) (type interface : String) :
    interface ∈ r.declaredAbove type ↔ ∃ above, r.Derives type above ∧ interface ∈ r.declared above := by
  simp only [declaredAbove, List.mem_flatMap, mem_chain_iff r type _ _ (ancestors_chain r consistent type)]

theorem derived_has_type (r : Registry) (consistent : r.Consistent) (type : String) (present : r.hasType type = true) :
    ∀ above ∈ type :: r.ancestors type, r.hasType above = true := by
  obtain ⟨rank, ranked⟩ := consistent.ranked
  intro above member
  rcases List.mem_cons.mp member with here | higher
  · exact here ▸ present
  · exact (chain_ranks r rank ranked type _ (ancestors_chain r consistent type) above higher).1

-- The query comes to its end with its answer; the answer is what the two graphs say; and the set
-- of seen interfaces, which all declared ones share, takes nothing away from it.
theorem implements_interface_iff_declared_above (r : Registry) (reachable : r.Reachable) (type interface : String) :
    (r.hasType type = true → r.hasInterface interface = true →
      r.QueryRun interface [] type (r.implementsInterface type interface)) ∧
    (r.implementsInterface type interface = true ↔ r.hasType type = true ∧ r.hasInterface interface = true ∧
      ∃ above declared, r.Derives type above ∧ declared ∈ r.declared above ∧ r.Extends declared interface) ∧
    r.implementsInterface type interface = (r.hasType type && r.hasInterface interface &&
      (r.declaredAbove type).any fun declared => (r.reaches interface (r.interfaces.length + 1) [] declared).1) := by
  have consistent := reachable_consistent r reachable
  refine ⟨fun typePresent interfacePresent => ?_, ?_, ?_⟩
  · have run := search_any_run r interface (r.interfaces.length + 1) [] (r.declaredAbove type) (unseen_initial r)
    rw [implementsInterface, typePresent, interfacePresent, Bool.true_and, Bool.true_and]
    exact query_run r interface type (r.ancestors type) (ancestors_chain r consistent type) [] _ _
      (derived_has_type r consistent type typePresent) run
  · simp only [implementsInterface, Bool.and_eq_true, search_any_iff, mem_declared_above r consistent, and_assoc]
    refine and_congr_right fun _ => and_congr_right fun _ => ?_
    constructor
    · rintro ⟨declared, ⟨above, derives, member⟩, path⟩
      exact ⟨above, declared, derives, member, path⟩
    · rintro ⟨above, declared, derives, member, path⟩
      exact ⟨declared, ⟨above, derives, member⟩, path⟩
  · have shared : (searchAny (r.reaches interface (r.interfaces.length + 1)) [] (r.declaredAbove type)).1 =
        (r.declaredAbove type).any fun declared => (r.reaches interface (r.interfaces.length + 1) [] declared).1 := by
      rw [Bool.eq_iff_iff, search_any_iff, List.any_eq_true]
      simp only [reaches_iff]
    rw [implementsInterface, shared]

theorem diamond_implements_top :
    (initial.afterAll diamond).hasType "Boss" = true ∧ (initial.afterAll diamond).hasInterface "Shown" = true ∧
      (initial.afterAll diamond).QueryRun "Shown" [] "Boss" true := by
  have type : (initial.afterAll diamond).hasType "Boss" = true := by decide +kernel
  have interface : (initial.afterAll diamond).hasInterface "Shown" = true := by decide +kernel
  have answer : (initial.afterAll diamond).implementsInterface "Boss" "Shown" = true := by decide +kernel
  have query := (implements_interface_iff_declared_above (initial.afterAll diamond) ⟨diamond, rfl⟩ "Boss" "Shown").1
    type interface
  exact ⟨type, interface, answer ▸ query⟩

end CommandScript.Registry
