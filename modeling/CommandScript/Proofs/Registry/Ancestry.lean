import CommandScript.Proofs.Registry.Consistency
import Mathlib.Logic.Relation

set_option autoImplicit false

namespace CommandScript.Registry

def Derives (r : Registry) : String → String → Prop :=
  Relation.ReflTransGen fun type above => r.parent? type = some above

-- A walk over the parents of a type that has come to its end.
inductive ParentChain (r : Registry) : String → List String → Prop where
  | root (type : String) (top : r.parent? type = none) : ParentChain r type []
  | up (type above : String) (rest : List String) (given : r.parent? type = some above)
      (chain : ParentChain r above rest) : ParentChain r type (above :: rest)

theorem parent_stored (r : Registry) (type above : String) (given : r.parent? type = some above) :
    ∃ info, r.types.find? type = some info ∧ info.parent = some above :=
  Option.bind_eq_some_iff.mp given

theorem parent_sound (r : Registry) (rank : String → Nat) (ranked : r.Ranked rank) (type above : String)
    (given : r.parent? type = some above) : r.hasType above = true ∧ rank above < rank type := by
  obtain ⟨info, found, parent⟩ := parent_stored r type above given
  exact (ranked.1 type info found).parent above parent

theorem parent_chain_exists (r : Registry) (consistent : r.Consistent) (type : String) :
    ∃ chain, r.ParentChain type chain := by
  obtain ⟨rank, ranked⟩ := consistent.ranked
  -- The rank falls with every step upwards, so the walk comes to an end.
  induction bound : rank type using Nat.strong_induction_on generalizing type with
  | _ n ih =>
    cases given : r.parent? type with
    | none => exact ⟨[], .root type given⟩
    | some above =>
      have below := (parent_sound r rank ranked type above given).2
      obtain ⟨rest, chain⟩ := ih (rank above) (bound ▸ below) above rfl
      exact ⟨above :: rest, .up type above rest given chain⟩

theorem parents_within_chain (r : Registry) (type : String) (chain : List String) (walk : r.ParentChain type chain)
    (steps : Nat) (enough : chain.length ≤ steps) : r.parentsWithin steps type = chain := by
  induction walk generalizing steps with
  | root type top =>
    cases steps with
    | zero => rfl
    | succ steps => rw [parentsWithin, top]
  | up type above rest given _ ih =>
    cases steps with
    | zero => simp at enough
    | succ steps =>
      rw [parentsWithin, given]
      simp only [ih steps (by simpa using enough)]

theorem chain_ranks (r : Registry) (rank : String → Nat) (ranked : r.Ranked rank) (type : String)
    (chain : List String) (walk : r.ParentChain type chain) :
    ∀ above ∈ chain, r.hasType above = true ∧ rank above < rank type := by
  induction walk with
  | root type top => simp
  | up type above rest given _ ih =>
    obtain ⟨present, below⟩ := parent_sound r rank ranked type above given
    intro query member
    rcases List.mem_cons.mp member with here | later
    · exact here ▸ ⟨present, below⟩
    · exact ⟨(ih query later).1, Nat.lt_trans (ih query later).2 below⟩

theorem chain_nodup (r : Registry) (rank : String → Nat) (ranked : r.Ranked rank) (type : String)
    (chain : List String) (walk : r.ParentChain type chain) : chain.Nodup := by
  induction walk with
  | root type top => exact List.nodup_nil
  | up type above rest given walk ih =>
    refine List.nodup_cons.mpr ⟨fun again => ?_, ih⟩
    exact Nat.lt_irrefl _ (chain_ranks r rank ranked above rest walk above again).2

theorem chain_length (r : Registry) (consistent : r.Consistent) (type : String) (chain : List String)
    (walk : r.ParentChain type chain) : chain.length ≤ r.types.length := by
  obtain ⟨rank, ranked⟩ := consistent.ranked
  have registered : chain ⊆ r.types.keys := fun above member =>
    Table.mem_keys_of_has r.types above (chain_ranks r rank ranked type chain walk above member).1
  have bound := (List.subperm_of_subset (chain_nodup r rank ranked type chain walk) registered).length_le
  simpa [Table.keys] using bound

theorem ancestors_chain (r : Registry) (consistent : r.Consistent) (type : String) :
    r.ParentChain type (r.ancestors type) := by
  obtain ⟨chain, walk⟩ := parent_chain_exists r consistent type
  have reached := parents_within_chain r type chain walk r.types.length (chain_length r consistent type chain walk)
  rw [ancestors, reached]
  exact walk

theorem derives_iff (r : Registry) (type query : String) :
    r.Derives type query ↔ query = type ∨ ∃ above, r.parent? type = some above ∧ r.Derives above query := by
  rw [Derives, Relation.ReflTransGen.cases_head_iff, eq_comm]

theorem mem_chain_iff (r : Registry) (type query : String) (chain : List String) (walk : r.ParentChain type chain) :
    query ∈ type :: chain ↔ r.Derives type query := by
  induction walk with
  | root type top =>
    rw [derives_iff r type query]
    simp [top]
  | up type above rest given _ ih =>
    rw [List.mem_cons, ih, derives_iff r type query]
    simp only [given, Option.some.injEq, exists_eq_left']

end CommandScript.Registry
