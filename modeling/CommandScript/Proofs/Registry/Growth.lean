import CommandScript.Proofs.Registry.Facts

set_option autoImplicit false

namespace CommandScript.Registry

structure SameAnswers (r other : Registry) : Prop where
  types : ∀ name, r.hasType name = other.hasType name
  interfaces : ∀ name, r.hasInterface name = other.hasInterface name
  subclasses : ∀ derived base, r.isSubclassOf derived base = other.isSubclassOf derived base
  implementations : ∀ type interface, r.implementsInterface type interface = other.implementsInterface type interface
  assignments : ∀ type target, r.isAssignableTo type target = other.isAssignableTo type target

-- The order in which a registry came to know its facts shows in no answer.
theorem same_answers_of_grown (r other : Registry) (consistent : r.Consistent) (otherConsistent : other.Consistent)
    (grown : Grown r other) (back : Grown other r) : SameAnswers r other := by
  have types : ∀ name, r.hasType name = other.hasType name := fun name =>
    Bool.eq_iff_iff.mpr ⟨grown (.type name), back (.type name)⟩
  have interfaces : ∀ name, r.hasInterface name = other.hasInterface name := fun name =>
    Bool.eq_iff_iff.mpr ⟨grown (.interface name), back (.interface name)⟩
  have subclasses : ∀ derived base, r.isSubclassOf derived base = other.isSubclassOf derived base := by
    intro derived base
    rw [Bool.eq_iff_iff, is_subclass_iff r consistent, is_subclass_iff other otherConsistent]
    exact ⟨derives_grown grown, derives_grown back⟩
  have implementations : ∀ type interface, r.implementsInterface type interface = other.implementsInterface type interface := by
    intro type interface
    rw [Bool.eq_iff_iff, implements_iff r consistent, implements_iff other otherConsistent, types, interfaces]
    exact and_congr_right fun _ => and_congr_right fun _ => ⟨provides_grown grown, provides_grown back⟩
  refine ⟨types, interfaces, subclasses, implementations, fun type target => ?_⟩
  rw [isAssignableTo, isAssignableTo, interfaces, implementations, subclasses]

theorem registration_order_does_not_matter (first second : List Request) (reordered : first.Perm second)
    (firstGranted : initial.granted first = first) (secondGranted : initial.granted second = second) :
    SameAnswers (initial.afterAll first) (initial.afterAll second) := by
  have same : ∀ fact, (initial.afterAll first).Knows fact ↔ (initial.afterAll second).Knows fact := by
    intro fact
    rw [after_all_knows, after_all_knows, firstGranted, secondGranted]
    simp only [reordered.mem_iff]
  exact same_answers_of_grown _ _ (reachable_consistent _ ⟨first, rfl⟩) (reachable_consistent _ ⟨second, rfl⟩)
    (fun fact => (same fact).mp) fun fact => (same fact).mpr

def worn : List Request :=
  [.defineInterface "Worn" [], .addInterface "Image" "Worn"]

def dyed : List Request :=
  [.defineInterface "Dyed" [], .defineType "Cloak" (some "Component") ["Dyed"], .addInterface "Image" "Dyed",
    .defineProperty "Cloak" "size" (.int 4)]

theorem worn_and_dyed_commute :
    (initial.afterAll (worn ++ dyed)).declared "Image" ≠ (initial.afterAll (dyed ++ worn)).declared "Image" ∧
      SameAnswers (initial.afterAll (worn ++ dyed)) (initial.afterAll (dyed ++ worn)) :=
  ⟨by decide +kernel, registration_order_does_not_matter (worn ++ dyed) (dyed ++ worn) List.perm_append_comm (by rfl) (by rfl)⟩

def Fact.subject : Fact → String
  | .type name => name
  | .interface name => name
  | .parent name _ => name
  | .declaration name _ => name
  | .extension name _ => name

def Request.newName? : Request → Option String
  | .defineInterface name _ => some name
  | .defineType name _ _ => some name
  | .defineProperty _ _ _ => none
  | .addInterface _ _ => none

theorem accepted_new_name (r : Registry) (request : Request) (next : Registry) (accepted : Accepted r request next)
    (name : String) (given : request.newName? = some name) : r.Fresh name := by
  cases accepted with
  | interface own _ fresh _ => exact Option.some.inj given ▸ fresh
  | type own _ _ fresh _ _ => exact Option.some.inj given ▸ fresh
  | property | declared | declaredBefore => simp [Request.newName?] at given

theorem fresh_before {r later : Registry} (grown : Grown r later) {name : String} (fresh : later.Fresh name) :
    r.Fresh name := by
  refine ⟨fresh.named, Bool.eq_false_iff.mpr fun known => ?_, Bool.eq_false_iff.mpr fun known => ?_⟩
  · exact Bool.eq_false_iff.mp fresh.noType (grown (.type name) known)
  · exact Bool.eq_false_iff.mp fresh.noInterface (grown (.interface name) known)

theorem granted_new_name (requests : List Request) (r : Registry) (request : Request)
    (member : request ∈ r.granted requests) (name : String) (given : request.newName? = some name) : r.Fresh name := by
  induction requests generalizing r with
  | nil => simp [granted] at member
  | cons first rest ih =>
    rw [granted] at member
    cases passed : r.grants first with
    | true =>
      have accepted := after_grants r first passed
      rw [passed, if_pos rfl, List.mem_cons] at member
      rcases member with rfl | later
      · exact accepted_new_name r request _ accepted name given
      · exact fresh_before (after_all_grown r [first]) (ih (r.after first) later)
    | false =>
      rw [passed, if_neg Bool.false_ne_true, after_refuses r first passed] at member
      exact ih r member

-- A request speaks of the name that it defines, or adds one interface to a type.
theorem stated_subject (request : Request) (fact : Fact) (stated : request.States fact) :
    request.newName? = some fact.subject ∨
      ∃ interface, fact = .declaration fact.subject interface ∧ request = .addInterface fact.subject interface := by
  cases request with
  | defineInterface name parents =>
    cases fact with
    | interface query => exact .inl (congrArg some (Eq.symm stated))
    | extension query above => exact .inl (congrArg some stated.1.symm)
    | type | parent | declaration => exact stated.elim
  | defineType name parent interfaces =>
    cases fact with
    | type query => exact .inl (congrArg some (Eq.symm stated))
    | parent query above => exact .inl (congrArg some stated.1.symm)
    | declaration query interface => exact .inl (congrArg some stated.1.symm)
    | interface | extension => exact stated.elim
  | defineProperty type property value => cases fact <;> exact stated.elim
  | addInterface type interface =>
    cases fact with
    | declaration query added =>
      obtain ⟨rfl, rfl⟩ := stated
      exact .inr ⟨added, rfl, rfl⟩
    | type | interface | parent | extension => exact stated.elim

-- All that can come to be known later about a registered name is that it declares one more interface.
theorem later_fact (r : Registry) (requests : List Request) (fact : Fact) (registered : ¬ r.Fresh fact.subject)
    (known : (r.afterAll requests).Knows fact) :
    r.Knows fact ∨ ∃ interface, fact = .declaration fact.subject interface ∧
      .addInterface fact.subject interface ∈ r.granted requests := by
  rcases (after_all_knows requests r fact).mp known with before | ⟨request, member, stated⟩
  · exact .inl before
  · rcases stated_subject request fact stated with defines | ⟨interface, shape, rfl⟩
    · exact absurd (granted_new_name requests r request member fact.subject defines) registered
    · exact .inr ⟨interface, shape, member⟩

theorem type_not_fresh {r : Registry} {name : String} (present : r.hasType name = true) : ¬ r.Fresh name :=
  fun fresh => Bool.eq_false_iff.mp fresh.noType present

theorem interface_not_fresh {r : Registry} {name : String} (present : r.hasInterface name = true) : ¬ r.Fresh name :=
  fun fresh => Bool.eq_false_iff.mp fresh.noInterface present

-- A path that starts inside stays inside, where every later step was there before.
theorem path_before (inside : String → Prop) {step later : String → String → Prop}
    (closed : ∀ lower upper, inside lower → step lower upper → inside upper)
    (before : ∀ lower upper, inside lower → later lower upper → step lower upper) {first last : String}
    (start : inside first) (path : Relation.ReflTransGen later first last) : Relation.ReflTransGen step first last := by
  have kept : Relation.ReflTransGen step first last ∧ inside last := by
    induction path with
    | refl => exact ⟨.refl, start⟩
    | tail _ next ih =>
      have same := before _ _ ih.2 next
      exact ⟨ih.1.tail same, closed _ _ ih.2 same⟩
  exact kept.1

theorem derives_before (r : Registry) (consistent : r.Consistent) (requests : List Request) (type above : String)
    (present : r.hasType type = true) (derives : (r.afterAll requests).Derives type above) : r.Derives type above := by
  refine path_before (fun name => r.hasType name = true) (fun lower upper known given => ?_)
    (fun lower upper known given => ?_) present derives
  · exact derives_registered r consistent lower upper known (.single given)
  · rcases later_fact r requests (.parent lower upper) (type_not_fresh known) given with before | ⟨_, never, _⟩
    · exact before
    · cases never

theorem extends_before (r : Registry) (consistent : r.Consistent) (requests : List Request) (interface above : String)
    (present : r.hasInterface interface = true) (path : (r.afterAll requests).Extends interface above) :
    r.Extends interface above := by
  refine path_before (fun name => r.hasInterface name = true) (fun lower upper known given => ?_)
    (fun lower upper known given => ?_) present path
  · exact parents_registered r consistent lower upper given
  · rcases later_fact r requests (.extension lower upper) (interface_not_fresh known) given with before | ⟨_, never, _⟩
    · exact before
    · cases never

-- Without a new declaration at or above the type, it provides later what it provided before.
theorem provides_before (r : Registry) (consistent : r.Consistent) (requests : List Request) (type target : String)
    (present : r.hasType type = true)
    (silent : ∀ above interface, r.Derives type above → .addInterface above interface ∉ r.granted requests)
    (provides : (r.afterAll requests).Provides type target) : r.Provides type target := by
  obtain ⟨above, interface, derives, member, path⟩ := provides
  have derived := derives_before r consistent requests type above present derives
  have registered := derives_registered r consistent type above present derived
  rcases later_fact r requests (.declaration above interface) (type_not_fresh registered) member with before | ⟨added, _, new⟩
  · have known := declared_registered r consistent above interface before
    exact ⟨above, interface, derived, before, extends_before r consistent requests interface target known path⟩
  · exact absurd new (silent above added derived)

theorem assignability_never_regresses (r : Registry) (reachable : r.Reachable) (requests : List Request)
    (type target : String) (present : r.hasType type = true) :
    (r.afterAll requests).isSubclassOf type target = r.isSubclassOf type target ∧
    (r.isAssignableTo type target = true → (r.afterAll requests).isAssignableTo type target = true) ∧
    ((∀ above interface, r.isSubclassOf type above = true → .addInterface above interface ∉ r.granted requests) →
      (r.afterAll requests).isAssignableTo type target = r.isAssignableTo type target) := by
  have consistent := reachable_consistent r reachable
  have later : (r.afterAll requests).Consistent := after_all_preserves Consistent accepted_consistent requests r consistent
  have grown := after_all_grown r requests
  have derives : (r.afterAll requests).Derives type target ↔ r.Derives type target :=
    ⟨derives_before r consistent requests type target present, derives_grown grown⟩
  have still : (r.afterAll requests).hasType type = true := grown (.type type) present
  refine ⟨?_, fun assignable => ?_, fun silent => ?_⟩
  · rw [Bool.eq_iff_iff, is_subclass_iff _ later, is_subclass_iff r consistent, derives]
  · rw [assignable_registered r consistent type target present] at assignable
    rw [assignable_registered _ later type target still]
    exact assignable.imp (derives_grown grown) (provides_grown grown)
  · rw [Bool.eq_iff_iff, assignable_registered _ later type target still,
      assignable_registered r consistent type target present, derives]
    refine or_congr_right ⟨provides_before r consistent requests type target present ?_, provides_grown grown⟩
    exact fun above interface derived => silent above interface ((is_subclass_iff r consistent type above).mpr derived)

-- The first request is refused, and no other adds anything to the types from "Boss" upwards.
def sequel : List Request :=
  [.addInterface "Boss" "Missing", .addInterface "Image" "Colored", .defineInterface "Glowing" ["Colored"],
    .defineType "Villain" (some "Boss") ["Glowing"]]

theorem sequel_granted : (initial.afterAll diamond).granted sequel = sequel.tail := by rfl

theorem sequel_leaves_boss :
    ((initial.afterAll diamond).afterAll sequel).isSubclassOf "Boss" "Enemy" = true ∧
      ((initial.afterAll diamond).afterAll sequel).isAssignableTo "Boss" "Shown" = true ∧
      ((initial.afterAll diamond).afterAll sequel).isAssignableTo "Boss" "Glowing" = false := by
  have boss : (initial.afterAll diamond).hasType "Boss" = true := by decide +kernel
  have regresses := fun target => assignability_never_regresses (initial.afterAll diamond) ⟨diamond, rfl⟩ sequel "Boss" target boss
  have silent : ∀ above interface, (initial.afterAll diamond).isSubclassOf "Boss" above = true →
      .addInterface above interface ∉ (initial.afterAll diamond).granted sequel := by
    intro above interface subclass member
    rw [sequel_granted] at member
    obtain ⟨rfl, _⟩ : above = "Image" ∧ interface = "Colored" := by simpa [sequel] using member
    exact absurd subclass (by decide +kernel)
  refine ⟨?_, (regresses "Shown").2.1 (by decide +kernel), ?_⟩
  · rw [(regresses "Enemy").1]
    decide +kernel
  · rw [(regresses "Glowing").2.2 silent]
    decide +kernel

end CommandScript.Registry
