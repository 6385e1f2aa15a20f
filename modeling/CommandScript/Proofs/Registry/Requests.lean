import CommandScript.Proofs.Table
import CommandScript.Proofs.Work
import CommandScript.Registry

set_option autoImplicit false

namespace CommandScript.Registry

inductive Request where
  | defineInterface (name : String) (parents : List String)
  | defineType (name : String) (parent : Option String) (interfaces : List String)
  | defineProperty (type property : String) (value : Value)
  | addInterface (type interface : String)

def Request.work : Request → Registration Unit
  | .defineInterface name parents => Registry.defineInterface name parents
  | .defineType name parent interfaces => Registry.defineType name parent interfaces
  | .defineProperty type property value => Registry.defineProperty type property value
  | .addInterface type interface => Registry.addInterface type interface

-- What a request leaves behind counts whether it was accepted or refused.
def after (r : Registry) (request : Request) : Registry :=
  (request.work.run r).2

def afterAll (r : Registry) (requests : List Request) : Registry :=
  requests.foldl after r

def Reachable (r : Registry) : Prop :=
  ∃ requests, r = initial.afterAll requests

def withInterface (r : Registry) (info : InterfaceInfo) : Registry :=
  { r with interfaces := r.interfaces.put info.name info }

def withType (r : Registry) (key : String) (info : TypeInfo) : Registry :=
  { r with types := r.types.put key info }

structure Fresh (r : Registry) (name : String) : Prop where
  named : name ≠ ""
  noType : r.hasType name = false
  noInterface : r.hasInterface name = false

-- The registries that an accepted request can leave, with all that was checked on the way.
inductive Accepted (r : Registry) : Request → Registry → Prop where
  | interface (name : String) (parents : List String) (fresh : r.Fresh name)
      (known : ∀ parent ∈ parents, r.hasInterface parent = true) :
      Accepted r (.defineInterface name parents) (r.withInterface ⟨name, withoutRepeats parents⟩)
  | type (name : String) (parent : Option String) (interfaces : List String) (fresh : r.Fresh name)
      (parentKnown : ∀ above, parent = some above → r.hasType above = true)
      (known : ∀ interface ∈ interfaces, r.hasInterface interface = true) :
      Accepted r (.defineType name parent interfaces)
        (r.withType name ⟨name, parent, withoutRepeats interfaces, [], false⟩)
  | property (type property : String) (value : Value) (info : TypeInfo) (named : property ≠ "")
      (found : r.types.find? type = some info) (custom : info.builtin = false) :
      Accepted r (.defineProperty type property value)
        (r.withType type { info with defaults := info.defaults.put property value })
  | declared (type interface : String) (info : TypeInfo) (known : r.hasInterface interface = true)
      (found : r.types.find? type = some info) (absent : interface ∉ info.interfaces) :
      Accepted r (.addInterface type interface)
        (r.withType type { info with interfaces := info.interfaces ++ [interface] })
  | declaredBefore (type interface : String) (info : TypeInfo) (known : r.hasInterface interface = true)
      (found : r.types.find? type = some info) (present : interface ∈ info.interfaces) :
      Accepted r (.addInterface type interface) r

theorem check_new_name_ok (r : Registry) (name : String) (passed : r.checkNewName name = .ok ()) :
    r.Fresh name := by
  unfold checkNewName at passed
  by_cases empty : name.isEmpty = true
  · simp [empty] at passed
  · by_cases type : r.hasType name = true
    · simp [empty, type] at passed
    · by_cases interface : r.hasInterface name = true
      · simp [empty, type, interface] at passed
      · exact ⟨by simpa using empty, by simpa using type, by simpa using interface⟩

theorem check_interfaces_ok (r : Registry) (refusal : String → RegistrationError) (names : List String)
    (passed : r.checkInterfaces refusal names = .ok ()) : ∀ name ∈ names, r.hasInterface name = true := by
  unfold checkInterfaces at passed
  cases missing : names.find? fun name => !r.hasInterface name with
  | some name => simp [missing] at passed
  | none => simpa using missing

theorem check_parent_ok (r : Registry) (name : String) (parent : Option String)
    (passed : r.checkParent name parent = .ok ()) : ∀ above, parent = some above → r.hasType above = true := by
  intro above given
  subst given
  by_cases present : r.hasType above = true
  · exact present
  · simp [checkParent, present] at passed

theorem type_named_ok (r : Registry) (name : String) (info : TypeInfo) (passed : r.typeNamed name = .ok info) :
    r.types.find? name = some info := by
  unfold typeNamed at passed
  cases found : r.types.find? name with
  | none => simp [found] at passed
  | some stored => simpa [found] using passed

theorem define_interface_settles (r : Registry) (name : String) (parents : List String) :
    Settles (defineInterface name parents) r fun _ => Accepted r (.defineInterface name parents) := by
  apply Settles.get_bind
  apply Settles.check_bind
  intro _ nameChecked
  apply Settles.check_bind
  intro _ parentsChecked
  apply Settles.of_set
  exact .interface name parents (check_new_name_ok r name nameChecked)
    (check_interfaces_ok r _ parents parentsChecked)

theorem define_type_settles (r : Registry) (name : String) (parent : Option String) (interfaces : List String) :
    Settles (defineType name parent interfaces) r fun _ => Accepted r (.defineType name parent interfaces) := by
  apply Settles.get_bind
  apply Settles.check_bind
  intro _ nameChecked
  apply Settles.check_bind
  intro _ parentChecked
  apply Settles.check_bind
  intro _ interfacesChecked
  apply Settles.of_set
  exact .type name parent interfaces (check_new_name_ok r name nameChecked)
    (check_parent_ok r name parent parentChecked) (check_interfaces_ok r _ interfaces interfacesChecked)

theorem define_property_settles (r : Registry) (type property : String) (value : Value) :
    Settles (defineProperty type property value) r fun _ => Accepted r (.defineProperty type property value) := by
  unfold defineProperty
  by_cases empty : property.isEmpty = true
  · rw [if_pos empty]
    apply Settles.throw_bind
  · rw [if_neg empty]
    apply Settles.get_bind
    apply Settles.check_bind
    intro info checked
    by_cases builtin : info.builtin = true
    · rw [if_pos builtin]
      apply Settles.throw_bind
    · rw [if_neg builtin]
      apply Settles.of_set
      exact .property type property value info (by simpa using empty) (type_named_ok r type info checked)
        (by simpa using builtin)

theorem add_interface_settles (r : Registry) (type interface : String) :
    Settles (addInterface type interface) r fun _ => Accepted r (.addInterface type interface) := by
  unfold addInterface
  apply Settles.get_bind
  by_cases known : r.hasInterface interface = true
  · rw [if_neg (by simp [known])]
    apply Settles.check_bind
    intro info checked
    have found := type_named_ok r type info checked
    by_cases present : interface ∈ info.interfaces
    · rw [if_pos (by simpa using present)]
      apply Settles.of_pure
      exact .declaredBefore type interface info known found present
    · rw [if_neg (by simpa using present)]
      apply Settles.of_set
      exact .declared type interface info known found present
  · rw [if_pos (by simpa using known)]
    apply Settles.throw_bind

theorem request_settles (r : Registry) (request : Request) :
    Settles request.work r fun _ => Accepted r request := by
  cases request with
  | defineInterface name parents => exact define_interface_settles r name parents
  | defineType name parent interfaces => exact define_type_settles r name parent interfaces
  | defineProperty type property value => exact define_property_settles r type property value
  | addInterface type interface => exact add_interface_settles r type interface

theorem after_cases (r : Registry) (request : Request) :
    r.after request = r ∨ Accepted r request (r.after request) := by
  have settles := request_settles r request
  unfold after
  match run : request.work.run r with
  | (.ok (), next) => exact .inr (settles.finished run)
  | (.error error, next) => exact .inl (settles.stopped run)

theorem after_all_preserves (holds : Registry → Prop)
    (step : ∀ r request next, holds r → Accepted r request next → holds next)
    (requests : List Request) (r : Registry) (start : holds r) : holds (r.afterAll requests) := by
  induction requests generalizing r with
  | nil => exact start
  | cons request rest ih =>
    apply ih (r.after request)
    rcases after_cases r request with same | accepted
    · rw [same]
      exact start
    · exact step r request (r.after request) start accepted

theorem reachable_preserves (holds : Registry → Prop) (start : holds initial)
    (step : ∀ r request next, holds r → Accepted r request next → holds next)
    (r : Registry) (reachable : r.Reachable) : holds r := by
  obtain ⟨requests, rfl⟩ := reachable
  exact after_all_preserves holds step requests initial start

end CommandScript.Registry
