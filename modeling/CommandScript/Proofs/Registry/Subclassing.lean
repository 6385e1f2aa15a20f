import CommandScript.Proofs.Registry.Assignability

set_option autoImplicit false

namespace CommandScript.Registry

-- The walk from a type upwards that stops at the base, without any bound on its length: the types
-- that it visits, and whether it met the base.
inductive Climb (r : Registry) (base : String) : String → List String → Bool → Prop where
  | top (type : String) (root : r.parent? type = none) : Climb r base type [] false
  | found (type : String) (given : r.parent? type = some base) : Climb r base type [base] true
  | up (type above : String) (rest : List String) (answer : Bool) (given : r.parent? type = some above)
      (other : above ≠ base) (next : Climb r base above rest answer) : Climb r base type (above :: rest) answer

-- The base is above the type, not the type itself.
def ProperlyDerives (r : Registry) : String → String → Prop :=
  Relation.TransGen fun type above => r.parent? type = some above

theorem climb_exists (r : Registry) (base type : String) (chain : List String) (walk : r.ParentChain type chain) :
    ∃ visited, r.Climb base type visited (chain.contains base) ∧ visited <+: chain := by
  induction walk with
  | root type top => exact ⟨[], .top type top, List.prefix_rfl⟩
  | up type above rest given _ ih =>
    by_cases here : above = base
    · subst here
      refine ⟨[above], ?_, List.prefix_append [above] rest⟩
      rw [List.contains_cons, beq_self_eq_true, Bool.true_or]
      exact .found type given
    · obtain ⟨visited, climb, start⟩ := ih
      refine ⟨above :: visited, ?_, List.cons_prefix_cons.mpr ⟨rfl, start⟩⟩
      rw [List.contains_cons, beq_false_of_ne (Ne.symm here), Bool.false_or]
      exact .up type above visited _ given here climb

theorem line_nodup (r : Registry) (consistent : r.Consistent) (type : String) (chain : List String)
    (walk : r.ParentChain type chain) : (type :: chain).Nodup := by
  obtain ⟨rank, ranked⟩ := consistent.ranked
  refine List.nodup_cons.mpr ⟨fun again => ?_, chain_nodup r rank ranked type chain walk⟩
  exact Nat.lt_irrefl _ (chain_ranks r rank ranked type chain walk type again).2

theorem properly_derives_ranks (r : Registry) (rank : String → Nat) (ranked : r.Ranked rank) (type above : String)
    (derives : r.ProperlyDerives type above) : rank above < rank type := by
  induction derives with
  | single given => exact (parent_sound r rank ranked _ _ given).2
  | tail _ given ih => exact Nat.lt_trans (parent_sound r rank ranked _ _ given).2 ih

theorem derives_antisymm (r : Registry) (consistent : r.Consistent) (first second : String)
    (lower : r.Derives first second) (upper : r.Derives second first) : first = second := by
  obtain ⟨rank, ranked⟩ := consistent.ranked
  rcases Relation.reflTransGen_iff_eq_or_transGen.mp lower with same | above
  · exact same.symm
  · have around := properly_derives_ranks r rank ranked first first (above.trans_left upper)
    exact absurd around (Nat.lt_irrefl _)

theorem subclasses_are_partially_ordered (r : Registry) (reachable : r.Reachable) :
    (∀ derived base, ∃ visited met, r.Climb base derived visited met ∧ (derived :: visited).Nodup ∧
      r.isSubclassOf derived base = (derived == base || met)) ∧
    (∀ derived base, r.isSubclassOf derived base = true ↔ derived = base ∨ r.ProperlyDerives derived base) ∧
    IsPartialOrder String fun derived base => r.isSubclassOf derived base = true := by
  have consistent := reachable_consistent r reachable
  have subclass := is_subclass_iff r consistent
  refine ⟨fun derived base => ?_, fun derived base => ?_, ?_⟩
  · have walk := ancestors_chain r consistent derived
    obtain ⟨visited, climb, start⟩ := climb_exists r base derived _ walk
    have part : derived :: visited <+: derived :: r.ancestors derived := List.cons_prefix_cons.mpr ⟨rfl, start⟩
    exact ⟨visited, _, climb, (line_nodup r consistent derived _ walk).sublist part.sublist, rfl⟩
  · rw [subclass, Derives, Relation.reflTransGen_iff_eq_or_transGen, ProperlyDerives, @eq_comm _ base]
  · simp only [subclass]
    exact { refl := fun _ => .refl, trans := fun _ _ _ => .trans, antisymm := derives_antisymm r consistent }

theorem diamond_boss_below_enemy :
    (initial.afterAll diamond).ProperlyDerives "Boss" "Enemy" ∧
      (initial.afterAll diamond).isSubclassOf "Boss" "Component" = true ∧
      (initial.afterAll diamond).isSubclassOf "Nobody" "Nobody" = true := by
  obtain ⟨_, subclass, order⟩ := subclasses_are_partially_ordered (initial.afterAll diamond) ⟨diamond, rfl⟩
  have boss : (initial.afterAll diamond).isSubclassOf "Boss" "Enemy" = true := by decide +kernel
  have enemy : (initial.afterAll diamond).isSubclassOf "Enemy" "Component" = true := by decide +kernel
  refine ⟨((subclass "Boss" "Enemy").mp boss).resolve_left (by decide), order.trans _ _ _ boss enemy, order.refl _⟩

end CommandScript.Registry
