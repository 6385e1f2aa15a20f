import CommandScript.Proofs.Registry.Implementation

set_option autoImplicit false

namespace CommandScript.Registry

-- A type or one above it declares an interface that is or extends the target.
def Provides (r : Registry) (type target : String) : Prop :=
  ∃ above interface, r.Derives type above ∧ interface ∈ r.declared above ∧ r.Extends interface target

theorem is_subclass_iff (r : Registry) (consistent : r.Consistent) (derived base : String) :
    r.isSubclassOf derived base = true ↔ r.Derives derived base := by
  rw [← mem_chain_iff r derived base _ (ancestors_chain r consistent derived), List.mem_cons]
  simp [isSubclassOf, @eq_comm _ base]

theorem implements_iff (r : Registry) (consistent : r.Consistent) (type interface : String) :
    r.implementsInterface type interface = true ↔
      r.hasType type = true ∧ r.hasInterface interface = true ∧ r.Provides type interface := by
  simp only [implementsInterface, Bool.and_eq_true, search_any_iff, mem_declared_above r consistent, and_assoc, Provides]
  refine and_congr_right fun _ => and_congr_right fun _ => ⟨?_, ?_⟩
  · rintro ⟨declared, ⟨above, derives, member⟩, path⟩
    exact ⟨above, declared, derives, member, path⟩
  · rintro ⟨above, declared, derives, member, path⟩
    exact ⟨declared, ⟨above, derives, member⟩, path⟩

theorem derives_registered (r : Registry) (consistent : r.Consistent) (type above : String)
    (present : r.hasType type = true) (derives : r.Derives type above) : r.hasType above = true :=
  derived_has_type r consistent type present above
    ((mem_chain_iff r type above _ (ancestors_chain r consistent type)).mpr derives)

theorem parent_missing (r : Registry) (type : String) (absent : r.hasType type = false) : r.parent? type = none := by
  rw [parent?, Table.find_none_of_not_has r.types type absent, Option.bind_none]

-- A name that is no type has nothing above it.
theorem derives_unregistered (r : Registry) (type above : String) (absent : r.hasType type = false) :
    r.Derives type above ↔ above = type := by
  rw [derives_iff]
  simp [parent_missing r type absent]

theorem declared_registered (r : Registry) (consistent : r.Consistent) (type interface : String)
    (member : interface ∈ r.declared type) : r.hasInterface interface = true := by
  obtain ⟨rank, ranked⟩ := consistent.ranked
  cases found : r.types.find? type with
  | none => simp [declared, found] at member
  | some info =>
    simp only [declared, found] at member
    exact (ranked.1 type info found).interfaces interface member

theorem parents_registered (r : Registry) (consistent : r.Consistent) (interface above : String)
    (member : above ∈ r.parentsOf interface) : r.hasInterface above = true := by
  obtain ⟨rank, ranked⟩ := consistent.ranked
  cases found : r.interfaces.find? interface with
  | none => simp [parentsOf, found] at member
  | some info =>
    simp only [parentsOf, found] at member
    exact ((ranked.2 interface info found).parents above member).1

theorem extends_registered (r : Registry) (consistent : r.Consistent) (interface above : String)
    (present : r.hasInterface interface = true) (path : r.Extends interface above) : r.hasInterface above = true := by
  cases path with
  | refl => exact present
  | tail _ step => exact parents_registered r consistent _ above step

theorem provides_registered (r : Registry) (consistent : r.Consistent) (type target : String)
    (provides : r.Provides type target) : r.hasInterface target = true := by
  obtain ⟨above, interface, _, member, path⟩ := provides
  exact extends_registered r consistent interface target (declared_registered r consistent above interface member) path

theorem provides_of_derives (r : Registry) (type above target : String) (derives : r.Derives type above)
    (provides : r.Provides above target) : r.Provides type target := by
  obtain ⟨higher, interface, further, member, path⟩ := provides
  exact ⟨higher, interface, derives.trans further, member, path⟩

theorem provides_extended (r : Registry) (type interface above : String) (provides : r.Provides type interface)
    (path : r.Extends interface above) : r.Provides type above := by
  obtain ⟨higher, declared, derives, member, start⟩ := provides
  exact ⟨higher, declared, derives, member, start.trans path⟩

-- Types and interfaces share one space of names, so for a registered type it does not matter which
-- of the two tests the target calls for.
theorem assignable_registered (r : Registry) (consistent : r.Consistent) (type target : String)
    (present : r.hasType type = true) :
    r.isAssignableTo type target = true ↔ r.Derives type target ∨ r.Provides type target := by
  rw [isAssignableTo]
  cases interface : r.hasInterface target with
  | true =>
    have apart : ¬ r.Derives type target := fun derives => by
      simp [consistent.apart target (derives_registered r consistent type target present derives)] at interface
    simp [implements_iff r consistent, present, interface, apart]
  | false =>
    have apart : ¬ r.Provides type target := fun provides => by
      simp [provides_registered r consistent type target provides] at interface
    simp [is_subclass_iff r consistent, apart]

theorem assignable_unregistered (r : Registry) (consistent : r.Consistent) (type target : String)
    (absent : r.hasType type = false) :
    r.isAssignableTo type target = true ↔ target = type ∧ r.hasInterface target = false := by
  rw [isAssignableTo]
  cases interface : r.hasInterface target with
  | true => simp [implements_iff r consistent, absent]
  | false => simp [is_subclass_iff r consistent, derives_unregistered r type target absent]

theorem assignable_of_derives (r : Registry) (consistent : r.Consistent) (type above target : String)
    (derives : r.Derives type above) (assignable : r.isAssignableTo above target = true) :
    r.isAssignableTo type target = true := by
  cases present : r.hasType type with
  | true =>
    have registered := derives_registered r consistent type above present derives
    rw [assignable_registered r consistent above target registered] at assignable
    rw [assignable_registered r consistent type target present]
    exact assignable.imp derives.trans (provides_of_derives r type above target derives)
  | false =>
    rw [(derives_unregistered r type above present).mp derives] at assignable
    exact assignable

-- Nothing but a type can be assigned to an interface, and an interface itself to nothing.
theorem assignable_to_interface (r : Registry) (consistent : r.Consistent) (type interface : String)
    (present : r.hasInterface interface = true) (assignable : r.isAssignableTo type interface = true) :
    r.hasType type = true ∧ r.Provides type interface := by
  rw [isAssignableTo, if_pos present, implements_iff r consistent] at assignable
  exact ⟨assignable.1, assignable.2.2⟩

theorem interface_not_assignable (r : Registry) (consistent : r.Consistent) (interface target : String)
    (present : r.hasInterface interface = true) : r.isAssignableTo interface target = false := by
  have absent : r.hasType interface = false := by
    rw [Bool.eq_false_iff]
    intro type
    simp [consistent.apart interface type] at present
  rw [Bool.eq_false_iff, ne_eq, assignable_unregistered r consistent interface target absent]
  rintro ⟨rfl, free⟩
  simp [present] at free

theorem assignable_trans (r : Registry) (consistent : r.Consistent) (first second third : String)
    (lower : r.isAssignableTo first second = true) (upper : r.isAssignableTo second third = true) :
    r.isAssignableTo first third = true := by
  cases interface : r.hasInterface second with
  | true => simp [interface_not_assignable r consistent second third interface] at upper
  | false =>
    rw [isAssignableTo, interface, if_neg Bool.false_ne_true, is_subclass_iff r consistent] at lower
    exact assignable_of_derives r consistent first second third lower upper

theorem assignability_is_transitive (r : Registry) (reachable : r.Reachable) :
    (∀ first second third, r.isAssignableTo first second = true → r.isAssignableTo second third = true →
      r.isAssignableTo first third = true) ∧
    (∀ type interface above, r.hasInterface interface = true → r.isAssignableTo type interface = true →
      r.Extends interface above → r.isAssignableTo type above = true) ∧
    ∀ derived base target, r.isSubclassOf derived base = true → r.isAssignableTo base target = true →
      r.isAssignableTo derived target = true := by
  have consistent := reachable_consistent r reachable
  refine ⟨assignable_trans r consistent, fun type interface above present assignable path => ?_,
    fun derived base target subclass assignable => ?_⟩
  · obtain ⟨registered, provides⟩ := assignable_to_interface r consistent type interface present assignable
    rw [assignable_registered r consistent type above registered]
    exact .inr (provides_extended r type interface above provides path)
  · exact assignable_of_derives r consistent derived base target ((is_subclass_iff r consistent derived base).mp subclass)
      assignable

theorem diamond_boss_passes :
    (initial.afterAll diamond).isAssignableTo "Boss" "Sprite" = true ∧
      (initial.afterAll diamond).isAssignableTo "Boss" "Shown" = true ∧
      (initial.afterAll diamond).isAssignableTo "Boss" "Component" = true := by
  obtain ⟨transitive, upwards, inherited⟩ := assignability_is_transitive (initial.afterAll diamond) ⟨diamond, rfl⟩
  have boss : (initial.afterAll diamond).isAssignableTo "Boss" "Enemy" = true := by decide +kernel
  have enemy : (initial.afterAll diamond).isAssignableTo "Enemy" "Sprite" = true := by decide +kernel
  have passes := transitive "Boss" "Enemy" "Sprite" boss enemy
  have colored : "Colored" ∈ (initial.afterAll diamond).parentsOf "Sprite" := by decide +kernel
  have shown : "Shown" ∈ (initial.afterAll diamond).parentsOf "Colored" := by decide +kernel
  refine ⟨passes, upwards "Boss" "Sprite" "Shown" (by decide +kernel) passes (.head colored (.single shown)), ?_⟩
  exact inherited "Boss" "Enemy" "Component" (by decide +kernel) (by decide +kernel)

end CommandScript.Registry
