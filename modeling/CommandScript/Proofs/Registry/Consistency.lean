import CommandScript.Proofs.Registry.Requests
import Mathlib.Algebra.GroupWithZero.Nat
import Mathlib.Algebra.Order.BigOperators.Group.List

set_option autoImplicit false

namespace CommandScript.Registry

-- One turn of `withoutRepeats`.
def keepNew (kept : List String) (name : String) : List String :=
  if kept.contains name then kept else kept ++ [name]

theorem mem_keep_new (kept : List String) (name query : String) :
    query ∈ keepNew kept name ↔ query ∈ kept ∨ query = name := by
  unfold keepNew
  split
  · rename_i present
    have member : name ∈ kept := by simpa using present
    exact ⟨.inl, fun either => either.elim id fun same => same ▸ member⟩
  · simp

theorem keep_new_nodup (kept : List String) (name : String) (distinct : kept.Nodup) : (keepNew kept name).Nodup := by
  unfold keepNew
  split
  · exact distinct
  · rename_i absent
    refine List.nodup_append.mpr ⟨distinct, by simp, ?_⟩
    intro first inKept second isName same
    rw [List.mem_singleton.mp isName] at same
    exact absent (by simpa [same] using inKept)

theorem without_repeats_nodup (names : List String) : (withoutRepeats names).Nodup := by
  change (names.foldl keepNew []).Nodup
  exact List.foldlRecOn names keepNew List.nodup_nil fun kept distinct name _ => keep_new_nodup kept name distinct

theorem mem_fold_keep_new (names kept : List String) (query : String) :
    query ∈ names.foldl keepNew kept ↔ query ∈ kept ∨ query ∈ names := by
  induction names generalizing kept with
  | nil => simp
  | cons first rest ih =>
    rw [List.foldl_cons, ih, mem_keep_new, List.mem_cons, or_assoc]

theorem mem_without_repeats (names : List String) (query : String) : query ∈ withoutRepeats names ↔ query ∈ names := by
  change query ∈ names.foldl keepNew [] ↔ query ∈ names
  simp [mem_fold_keep_new]

-- A type record as it has to stand under its key. The rank makes the parents acyclic.
structure SoundType (r : Registry) (rank : String → Nat) (key : String) (info : TypeInfo) : Prop where
  stored : info.name = key
  named : key ≠ ""
  parent : ∀ above, info.parent = some above → r.hasType above = true ∧ rank above < rank key
  interfaces : ∀ interface ∈ info.interfaces, r.hasInterface interface = true
  distinct : info.interfaces.Nodup
  builtin : info.builtin = true ↔ ∃ kind : Builtin, key = kind.name

structure SoundInterface (r : Registry) (rank : String → Nat) (key : String) (info : InterfaceInfo) : Prop where
  stored : info.name = key
  named : key ≠ ""
  parents : ∀ above ∈ info.parents, r.hasInterface above = true ∧ rank above < rank key
  distinct : info.parents.Nodup

def Ranked (r : Registry) (rank : String → Nat) : Prop :=
  (∀ key info, r.types.find? key = some info → SoundType r rank key info) ∧
    ∀ key info, r.interfaces.find? key = some info → SoundInterface r rank key info

structure Consistent (r : Registry) : Prop where
  typeKeys : r.types.Ascending
  interfaceKeys : r.interfaces.Ascending
  apart : ∀ name, r.hasType name = true → r.hasInterface name = false
  ranked : ∃ rank, r.Ranked rank
  builtins : ∀ kind : Builtin, ∃ info, r.types.find? kind.name = some info ∧
    info.parent = (builtinInfo kind).parent ∧ info.defaults = kind.fields

theorem builtin_names_distinct (first second : Builtin) (same : first.name = second.name) : first = second := by
  cases first <;> cases second <;> first | rfl | (revert same; decide)

theorem initial_find (key : String) (info : TypeInfo) :
    initial.types.find? key = some info ↔ ∃ kind : Builtin, key = kind.name ∧ info = builtinInfo kind := by
  simp only [initial, Table.ofEntries, Builtin.all, List.map_cons, List.map_nil, List.foldl_cons,
    List.foldl_nil, Table.find_put]
  constructor
  · intro found
    split_ifs at found with renderer image text component
    · exact ⟨.spriteRenderer, renderer, (Option.some.inj found).symm⟩
    · exact ⟨.image, image, (Option.some.inj found).symm⟩
    · exact ⟨.text, text, (Option.some.inj found).symm⟩
    · exact ⟨.component, component, (Option.some.inj found).symm⟩
    · simp [Table.find?] at found
  · rintro ⟨kind, rfl, rfl⟩
    cases kind <;> simp [Builtin.name]

theorem initial_consistent : initial.Consistent where
  typeKeys := by
    simp only [initial, Table.ofEntries, Builtin.all, List.map_cons, List.map_nil, List.foldl_cons, List.foldl_nil]
    exact Table.put_ascending _ _ _ (Table.put_ascending _ _ _ (Table.put_ascending _ _ _
      (Table.put_ascending _ _ _ List.Pairwise.nil)))
  interfaceKeys := List.Pairwise.nil
  apart := fun _ _ => rfl
  ranked := by
    refine ⟨fun name => if name = Builtin.component.name then 0 else 1, ?_, ?_⟩
    · intro key info found
      obtain ⟨kind, rfl, rfl⟩ := (initial_find key info).mp found
      refine ⟨rfl, by cases kind <;> decide, ?_, by simp [builtinInfo], by simp [builtinInfo],
        fun _ => ⟨kind, rfl⟩, fun _ => rfl⟩
      intro above given
      by_cases root : kind = .component
      · simp [builtinInfo, root] at given
      · simp only [builtinInfo, if_neg root, Option.some.injEq] at given
        subst given
        refine ⟨(Table.has_iff _ _).mpr ⟨builtinInfo .component, (initial_find _ _).mpr ⟨_, rfl, rfl⟩⟩, ?_⟩
        rw [if_pos rfl, if_neg fun same => root (builtin_names_distinct _ _ same)]
        exact Nat.zero_lt_one
    · intro key info found
      simp [initial, Table.find?] at found
  builtins := fun kind => ⟨builtinInfo kind, (initial_find _ _).mpr ⟨kind, rfl, rfl⟩, rfl, rfl⟩

-- Ranks for one more name: it comes above all that it refers to.
def rankAbove (rank : String → Nat) (name : String) (references : List String) : String → Nat :=
  Function.update rank name ((references.map rank).sum + 1)

theorem rank_above_reference (rank : String → Nat) (name reference : String) (references : List String)
    (member : reference ∈ references) (other : reference ≠ name) :
    rankAbove rank name references reference < rankAbove rank name references name := by
  have bound : rank reference ≤ (references.map rank).sum := List.le_sum_of_mem (List.mem_map_of_mem member)
  simpa [rankAbove, Function.update_of_ne other] using Nat.lt_succ_of_le bound

theorem rank_above_other (rank : String → Nat) (name query : String) (references : List String)
    (other : query ≠ name) : rankAbove rank name references query = rank query :=
  Function.update_of_ne other _ rank

theorem SoundType.grow {r next : Registry} {rank nextRank : String → Nat} {key : String} {info : TypeInfo}
    (sound : SoundType r rank key info) (present : r.hasType key = true)
    (types : ∀ name, r.hasType name = true → next.hasType name = true ∧ nextRank name = rank name)
    (interfaces : ∀ name, r.hasInterface name = true → next.hasInterface name = true) :
    SoundType next nextRank key info where
  stored := sound.stored
  named := sound.named
  parent := by
    intro above given
    obtain ⟨known, below⟩ := sound.parent above given
    rw [(types key present).2, (types above known).2]
    exact ⟨(types above known).1, below⟩
  interfaces := fun interface member => interfaces interface (sound.interfaces interface member)
  distinct := sound.distinct
  builtin := sound.builtin

theorem SoundInterface.grow {r next : Registry} {rank nextRank : String → Nat} {key : String} {info : InterfaceInfo}
    (sound : SoundInterface r rank key info) (present : r.hasInterface key = true)
    (interfaces : ∀ name, r.hasInterface name = true → next.hasInterface name = true ∧ nextRank name = rank name) :
    SoundInterface next nextRank key info where
  stored := sound.stored
  named := sound.named
  parents := by
    intro above member
    obtain ⟨known, below⟩ := sound.parents above member
    rw [(interfaces key present).2, (interfaces above known).2]
    exact ⟨(interfaces above known).1, below⟩
  distinct := sound.distinct

theorem has_type_of_find (r : Registry) (key : String) (info : TypeInfo) (found : r.types.find? key = some info) :
    r.hasType key = true := (Table.has_iff _ _).mpr ⟨info, found⟩

theorem has_interface_of_find (r : Registry) (key : String) (info : InterfaceInfo)
    (found : r.interfaces.find? key = some info) : r.hasInterface key = true := (Table.has_iff _ _).mpr ⟨info, found⟩

theorem has_type_with_type (r : Registry) (key query : String) (info : TypeInfo) :
    (r.withType key info).hasType query = (decide (query = key) || r.hasType query) := Table.has_put _ _ _ _

theorem has_interface_with_interface (r : Registry) (query : String) (info : InterfaceInfo) :
    (r.withInterface info).hasInterface query = (decide (query = info.name) || r.hasInterface query) :=
  Table.has_put _ _ _ _

theorem ne_of_fresh_type {r : Registry} {name query : String} (fresh : r.Fresh name)
    (present : r.hasType query = true) : query ≠ name := by
  rintro rfl
  simp [fresh.noType] at present

theorem ne_of_fresh_interface {r : Registry} {name query : String} (fresh : r.Fresh name)
    (present : r.hasInterface query = true) : query ≠ name := by
  rintro rfl
  simp [fresh.noInterface] at present

-- Names that are registered already keep their ranks, so only the new record needs a look.
theorem with_interface_ranked {r : Registry} {rank nextRank : String → Nat} {info : InterfaceInfo}
    (ranked : r.Ranked rank)
    (kept : ∀ name, r.hasType name = true ∨ r.hasInterface name = true → nextRank name = rank name)
    (sound : SoundInterface (r.withInterface info) nextRank info.name info) :
    (r.withInterface info).Ranked nextRank := by
  have grown : ∀ name, r.hasInterface name = true → (r.withInterface info).hasInterface name = true :=
    fun name present => by simp [has_interface_with_interface, present]
  refine ⟨fun key stored found => ?_, fun key stored found => ?_⟩
  · exact (ranked.1 key stored found).grow (has_type_of_find r key stored found)
      (fun name present => ⟨present, kept name (.inl present)⟩) grown
  · rw [withInterface, Table.find_put] at found
    by_cases new : key = info.name
    · rw [if_pos new, Option.some.injEq] at found
      rw [← found, new]
      exact sound
    · rw [if_neg new] at found
      exact (ranked.2 key stored found).grow (has_interface_of_find r key stored found)
        fun name present => ⟨grown name present, kept name (.inr present)⟩

theorem with_type_ranked {r : Registry} {rank nextRank : String → Nat} {key : String} {info : TypeInfo}
    (ranked : r.Ranked rank)
    (kept : ∀ name, r.hasType name = true ∨ r.hasInterface name = true → nextRank name = rank name)
    (sound : SoundType (r.withType key info) nextRank key info) : (r.withType key info).Ranked nextRank := by
  refine ⟨fun query stored found => ?_, fun query stored found => ?_⟩
  · rw [withType, Table.find_put] at found
    by_cases new : query = key
    · rw [if_pos new, Option.some.injEq] at found
      rw [← found, new]
      exact sound
    · rw [if_neg new] at found
      refine (ranked.1 query stored found).grow (has_type_of_find r query stored found) (fun name present => ?_)
        fun name present => present
      exact ⟨by simp [has_type_with_type, present], kept name (.inl present)⟩
  · exact (ranked.2 query stored found).grow (has_interface_of_find r query stored found)
      fun name present => ⟨present, kept name (.inr present)⟩

theorem rank_above_kept {r : Registry} {name : String} (fresh : r.Fresh name) (rank : String → Nat)
    (references : List String) (query : String) (present : r.hasType query = true ∨ r.hasInterface query = true) :
    rankAbove rank name references query = rank query :=
  rank_above_other rank name query references
    (present.elim (ne_of_fresh_type fresh) (ne_of_fresh_interface fresh))

theorem new_interface_consistent (r : Registry) (name : String) (parents : List String) (consistent : r.Consistent)
    (fresh : r.Fresh name) (known : ∀ parent ∈ parents, r.hasInterface parent = true) :
    (r.withInterface ⟨name, withoutRepeats parents⟩).Consistent where
  typeKeys := consistent.typeKeys
  interfaceKeys := Table.put_ascending _ _ _ consistent.interfaceKeys
  apart := by
    intro query present
    rw [has_interface_with_interface, consistent.apart query present]
    simp [ne_of_fresh_type fresh present]
  ranked := by
    obtain ⟨rank, ranked⟩ := consistent.ranked
    refine ⟨rankAbove rank name parents, with_interface_ranked ranked (rank_above_kept fresh rank parents) ?_⟩
    refine ⟨rfl, fresh.named, fun above repeated => ?_, without_repeats_nodup parents⟩
    have member := (mem_without_repeats parents above).mp repeated
    have present := known above member
    exact ⟨by simp [has_interface_with_interface, present],
      rank_above_reference rank name above parents member (ne_of_fresh_interface fresh present)⟩
  builtins := consistent.builtins

theorem builtin_has_type (r : Registry) (consistent : r.Consistent) (kind : Builtin) : r.hasType kind.name = true := by
  obtain ⟨info, found, _⟩ := consistent.builtins kind
  exact has_type_of_find r kind.name info found

theorem new_type_consistent (r : Registry) (name : String) (parent : Option String) (interfaces : List String)
    (consistent : r.Consistent) (fresh : r.Fresh name)
    (parentKnown : ∀ above, parent = some above → r.hasType above = true)
    (known : ∀ interface ∈ interfaces, r.hasInterface interface = true) :
    (r.withType name ⟨name, parent, withoutRepeats interfaces, [], false⟩).Consistent where
  typeKeys := Table.put_ascending _ _ _ consistent.typeKeys
  interfaceKeys := consistent.interfaceKeys
  apart := by
    intro query present
    rw [has_type_with_type, Bool.or_eq_true, decide_eq_true_eq] at present
    rcases present with new | old
    · exact new ▸ fresh.noInterface
    · exact consistent.apart query old
  ranked := by
    obtain ⟨rank, ranked⟩ := consistent.ranked
    refine ⟨rankAbove rank name parent.toList,
      with_type_ranked ranked (rank_above_kept fresh rank parent.toList) ?_⟩
    refine ⟨rfl, fresh.named, fun above given => ?_, fun interface repeated => ?_,
      without_repeats_nodup interfaces, ?_⟩
    · have present := parentKnown above given
      exact ⟨by simp [has_type_with_type, present],
        rank_above_reference rank name above parent.toList (Option.mem_toList.mpr given) (ne_of_fresh_type fresh present)⟩
    · exact known interface ((mem_without_repeats interfaces interface).mp repeated)
    · refine ⟨fun never => by simp at never, fun ⟨kind, same⟩ => ?_⟩
      exact absurd same.symm (ne_of_fresh_type fresh (builtin_has_type r consistent kind))
  builtins := by
    intro kind
    obtain ⟨info, found, kept⟩ := consistent.builtins kind
    refine ⟨info, ?_, kept⟩
    rw [withType, Table.find_put_other _ _ _ _ (ne_of_fresh_type fresh (builtin_has_type r consistent kind))]
    exact found

-- A record may take the place of another if others can still rely on it.
theorem changed_type_consistent (r : Registry) (type : String) (old info : TypeInfo) (consistent : r.Consistent)
    (found : r.types.find? type = some old) (sameName : info.name = old.name) (sameParent : info.parent = old.parent)
    (sameKind : info.builtin = old.builtin) (defaults : old.builtin = true → info.defaults = old.defaults)
    (known : ∀ interface ∈ info.interfaces, r.hasInterface interface = true) (distinct : info.interfaces.Nodup) :
    (r.withType type info).Consistent where
  typeKeys := Table.put_ascending _ _ _ consistent.typeKeys
  interfaceKeys := consistent.interfaceKeys
  apart := by
    intro query present
    rw [has_type_with_type, Bool.or_eq_true, decide_eq_true_eq] at present
    rcases present with same | other
    · exact same ▸ consistent.apart type (has_type_of_find r type old found)
    · exact consistent.apart query other
  ranked := by
    obtain ⟨rank, ranked⟩ := consistent.ranked
    have sound := ranked.1 type old found
    refine ⟨rank, with_type_ranked ranked (fun _ _ => rfl) ?_⟩
    refine ⟨sameName.trans sound.stored, sound.named, fun above given => ?_, known, distinct, ?_⟩
    · obtain ⟨present, below⟩ := sound.parent above (sameParent ▸ given)
      exact ⟨by simp [has_type_with_type, present], below⟩
    · rw [sameKind]
      exact sound.builtin
  builtins := by
    intro kind
    obtain ⟨stored, storedFound, parent, fields⟩ := consistent.builtins kind
    by_cases same : kind.name = type
    · obtain ⟨rank, ranked⟩ := consistent.ranked
      have builtin : old.builtin = true := (ranked.1 type old found).builtin.mpr ⟨kind, same.symm⟩
      have stays : stored = old := Option.some.inj (storedFound.symm.trans (same ▸ found))
      refine ⟨info, by rw [withType, same, Table.find_put_same], ?_, ?_⟩
      · rw [sameParent, ← stays, parent]
      · rw [defaults builtin, ← stays, fields]
    · refine ⟨stored, ?_, parent, fields⟩
      rw [withType, Table.find_put_other _ _ _ _ same]
      exact storedFound

theorem accepted_consistent (r : Registry) (request : Request) (next : Registry) (consistent : r.Consistent)
    (accepted : Accepted r request next) : next.Consistent := by
  obtain ⟨rank, ranked⟩ := consistent.ranked
  cases accepted with
  | interface name parents fresh known => exact new_interface_consistent r name parents consistent fresh known
  | type name parent interfaces fresh parentKnown known =>
    exact new_type_consistent r name parent interfaces consistent fresh parentKnown known
  | property type property value info named found custom =>
    have sound := ranked.1 type info found
    refine changed_type_consistent r type info _ consistent found rfl rfl rfl ?_ sound.interfaces sound.distinct
    intro builtin
    simp [custom] at builtin
  | declared type interface info known found absent =>
    have sound := ranked.1 type info found
    refine changed_type_consistent r type info _ consistent found rfl rfl rfl (fun _ => rfl) ?_ ?_
    · intro query member
      rcases List.mem_append.mp member with old | new
      · exact sound.interfaces query old
      · exact List.mem_singleton.mp new ▸ known
    · refine List.nodup_append.mpr ⟨sound.distinct, by simp, ?_⟩
      intro query old other new same
      exact absent (List.mem_singleton.mp new ▸ same ▸ old)
  | declaredBefore => exact consistent

theorem reachable_consistent (r : Registry) (reachable : r.Reachable) : r.Consistent :=
  reachable_preserves Consistent initial_consistent accepted_consistent r reachable

theorem registry_stays_consistent (r : Registry) (reachable : r.Reachable) :
    r.Consistent ∧ ∀ (request : Request) (error : RegistrationError) (next : Registry),
      request.work.run r = (.error error, next) → next = r :=
  ⟨reachable_consistent r reachable, fun request _ _ run => (request_settles r request).stopped run⟩

-- Two interfaces above one and below another, a type that declares the lowest, one more type below
-- it, and at the end a request that is refused.
def diamond : List Request :=
  [.defineInterface "Shown" [], .defineInterface "Colored" ["Shown"], .defineInterface "Moved" ["Shown", "Shown"],
    .defineInterface "Sprite" ["Moved", "Colored"], .defineType "Enemy" (some "Component") ["Sprite"],
    .defineType "Boss" (some "Enemy") [], .defineProperty "Boss" "health" (.int 100),
    .addInterface "Image" "Shown", .defineInterface "Enemy" []]

theorem diamond_refuses_name_again :
    (initial.afterAll diamond).Consistent ∧
      (initial.afterAll diamond).after (.defineInterface "Enemy" ["Moved"]) = initial.afterAll diamond := by
  have stays := registry_stays_consistent (initial.afterAll diamond) ⟨diamond, rfl⟩
  have refused : ((Request.defineInterface "Enemy" ["Moved"]).work.run (initial.afterAll diamond)).1 =
      .error (.alreadyType "Enemy") := by decide +kernel
  exact ⟨stays.1, stays.2 (.defineInterface "Enemy" ["Moved"]) (.alreadyType "Enemy") _ (Prod.ext refused rfl)⟩

end CommandScript.Registry
