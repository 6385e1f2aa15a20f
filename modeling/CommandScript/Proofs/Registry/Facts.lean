import CommandScript.Proofs.Registry.Assignability

set_option autoImplicit false

namespace CommandScript.Registry

def grants (r : Registry) (request : Request) : Bool :=
  match (request.work.run r).1 with
  | .ok _ => true
  | .error _ => false

-- Those of the requests, made one after the other, that are not refused.
def granted : Registry → List Request → List Request
  | _, [] => []
  | r, request :: rest =>
    if r.grants request then request :: (r.after request).granted rest else (r.after request).granted rest

-- The facts that all answers about types and interfaces come from.
inductive Fact where
  | type (name : String)
  | interface (name : String)
  | parent (type above : String)
  | declaration (type interface : String)
  | extension (interface above : String)

def Knows (r : Registry) : Fact → Prop
  | .type name => r.hasType name = true
  | .interface name => r.hasInterface name = true
  | .parent type above => r.parent? type = some above
  | .declaration type interface => interface ∈ r.declared type
  | .extension interface above => above ∈ r.parentsOf interface

def Request.States : Request → Fact → Prop
  | .defineInterface name _, .interface query => query = name
  | .defineInterface name parents, .extension query above => query = name ∧ above ∈ parents
  | .defineType name _ _, .type query => query = name
  | .defineType name parent _, .parent query above => query = name ∧ parent = some above
  | .defineType name _ interfaces, .declaration query interface => query = name ∧ interface ∈ interfaces
  | .addInterface type interface, .declaration query added => query = type ∧ added = interface
  | _, _ => False

theorem parents_with_interface (r : Registry) (query : String) (info : InterfaceInfo) :
    (r.withInterface info).parentsOf query = if query = info.name then info.parents else r.parentsOf query := by
  rw [parentsOf, withInterface, Table.find_put]
  by_cases new : query = info.name
  · rw [if_pos new, if_pos new]
  · rw [if_neg new, if_neg new, parentsOf]

theorem parent_with_type (r : Registry) (key query : String) (info : TypeInfo) :
    (r.withType key info).parent? query = if query = key then info.parent else r.parent? query := by
  rw [parent?, withType, Table.find_put]
  by_cases new : query = key
  · rw [if_pos new, if_pos new, Option.bind_some]
  · rw [if_neg new, if_neg new, parent?]

theorem declared_with_type (r : Registry) (key query : String) (info : TypeInfo) :
    (r.withType key info).declared query = if query = key then info.interfaces else r.declared query := by
  rw [declared, withType, Table.find_put]
  by_cases new : query = key
  · rw [if_pos new, if_pos new]
  · rw [if_neg new, if_neg new, declared]

theorem parent_found (r : Registry) (type : String) (info : TypeInfo) (found : r.types.find? type = some info) :
    r.parent? type = info.parent := by
  rw [parent?, found, Option.bind_some]

theorem declared_found (r : Registry) (type : String) (info : TypeInfo) (found : r.types.find? type = some info) :
    r.declared type = info.interfaces := by
  rw [declared, found]

theorem declared_missing (r : Registry) (type : String) (absent : r.hasType type = false) : r.declared type = [] := by
  rw [declared, Table.find_none_of_not_has r.types type absent]

theorem new_interface_knows (r : Registry) (name : String) (parents : List String) (fresh : r.Fresh name) (fact : Fact) :
    (r.withInterface ⟨name, withoutRepeats parents⟩).Knows fact ↔
      r.Knows fact ∨ (Request.defineInterface name parents).States fact := by
  cases fact with
  | type | parent | declaration => exact (or_iff_left id).symm
  | interface query => simp [Knows, Request.States, has_interface_with_interface, or_comm]
  | extension query above =>
    simp only [Knows, Request.States, parents_with_interface]
    by_cases new : query = name
    · simp [new, mem_without_repeats, parents_of_missing r name fresh.noInterface]
    · simp [new]

theorem new_type_knows (r : Registry) (name : String) (parent : Option String) (interfaces : List String)
    (fresh : r.Fresh name) (fact : Fact) :
    (r.withType name ⟨name, parent, withoutRepeats interfaces, [], false⟩).Knows fact ↔
      r.Knows fact ∨ (Request.defineType name parent interfaces).States fact := by
  cases fact with
  | interface | extension => exact (or_iff_left id).symm
  | type query => simp [Knows, Request.States, has_type_with_type, or_comm]
  | parent query above =>
    simp only [Knows, Request.States, parent_with_type]
    by_cases new : query = name
    · simp [new, parent_missing r name fresh.noType]
    · simp [new]
  | declaration query interface =>
    simp only [Knows, Request.States, declared_with_type]
    by_cases new : query = name
    · simp [new, mem_without_repeats, declared_missing r name fresh.noType]
    · simp [new]

-- A record in the place of another: only what the type declares can be new.
theorem changed_type_knows (r : Registry) (type : String) (old info : TypeInfo) (added : List String)
    (found : r.types.find? type = some old) (sameParent : info.parent = old.parent)
    (declares : info.interfaces = old.interfaces ++ added) (fact : Fact) :
    (r.withType type info).Knows fact ↔ r.Knows fact ∨ ∃ interface ∈ added, fact = .declaration type interface := by
  cases fact with
  | interface | extension => simp [Knows, withType, hasInterface, parentsOf]
  | type query =>
    have present := has_type_of_find r type old found
    by_cases same : query = type
    · simp [Knows, has_type_with_type, same, present]
    · simp [Knows, has_type_with_type, same]
  | parent query above =>
    simp only [Knows, parent_with_type]
    by_cases same : query = type
    · simp [same, sameParent, parent_found r type old found]
    · simp [same]
  | declaration query interface =>
    simp only [Knows, declared_with_type]
    by_cases same : query = type
    · simp [same, declares, declared_found r type old found]
    · simp [same]

-- A granted request adds what it states and takes nothing away.
theorem accepted_knows (r : Registry) (request : Request) (next : Registry) (accepted : Accepted r request next)
    (fact : Fact) : next.Knows fact ↔ r.Knows fact ∨ request.States fact := by
  cases accepted with
  | interface name parents fresh known => exact new_interface_knows r name parents fresh fact
  | type name parent interfaces fresh parentKnown known => exact new_type_knows r name parent interfaces fresh fact
  | property type property value info named found custom =>
    have changed := changed_type_knows r type info { info with defaults := info.defaults.put property value } []
      found rfl (List.append_nil _).symm fact
    cases fact <;> simpa [Request.States] using changed
  | declared type interface info known found absent =>
    have changed := changed_type_knows r type info { info with interfaces := info.interfaces ++ [interface] } [interface]
      found rfl rfl fact
    cases fact <;> simpa [Request.States] using changed
  | declaredBefore type interface info known found present =>
    refine ⟨.inl, fun either => either.elim id fun stated => ?_⟩
    cases fact with
    | type | interface | parent | extension => exact stated.elim
    | declaration query added =>
      obtain ⟨rfl, rfl⟩ := stated
      rw [Knows, declared_found r query info found]
      exact present

theorem after_grants (r : Registry) (request : Request) (passed : r.grants request = true) :
    Accepted r request (r.after request) := by
  have settles := request_settles r request
  unfold grants at passed
  unfold after
  rcases run : request.work.run r with ⟨result, next⟩
  cases result with
  | ok value => exact settles.finished run
  | error error => simp [run] at passed

theorem after_refuses (r : Registry) (request : Request) (refused : r.grants request = false) : r.after request = r := by
  have settles := request_settles r request
  unfold grants at refused
  unfold after
  rcases run : request.work.run r with ⟨result, next⟩
  cases result with
  | ok value => simp [run] at refused
  | error error => exact settles.stopped run

-- After any run the registry knows what it knew before and what the granted requests stated.
theorem after_all_knows (requests : List Request) (r : Registry) (fact : Fact) :
    (r.afterAll requests).Knows fact ↔ r.Knows fact ∨ ∃ request ∈ r.granted requests, request.States fact := by
  induction requests generalizing r with
  | nil => simp [afterAll, granted]
  | cons request rest ih =>
    change ((r.after request).afterAll rest).Knows fact ↔ _
    rw [ih, granted]
    cases passed : r.grants request with
    | true =>
      rw [accepted_knows r request _ (after_grants r request passed)]
      simp [or_assoc]
    | false =>
      rw [after_refuses r request passed]
      simp

def Grown (r later : Registry) : Prop :=
  ∀ fact, r.Knows fact → later.Knows fact

theorem after_all_grown (r : Registry) (requests : List Request) : Grown r (r.afterAll requests) :=
  fun fact known => (after_all_knows requests r fact).mpr (.inl known)

theorem derives_grown {r later : Registry} (grown : Grown r later) {type above : String} (derives : r.Derives type above) :
    later.Derives type above :=
  Relation.ReflTransGen.mono (fun lower upper given => grown (.parent lower upper) given) type above derives

theorem extends_grown {r later : Registry} (grown : Grown r later) {interface above : String}
    (path : r.Extends interface above) : later.Extends interface above :=
  Relation.ReflTransGen.mono (fun lower upper member => grown (.extension lower upper) member) interface above path

theorem provides_grown {r later : Registry} (grown : Grown r later) {type target : String}
    (provides : r.Provides type target) : later.Provides type target := by
  obtain ⟨above, interface, derives, member, path⟩ := provides
  exact ⟨above, interface, derives_grown grown derives, grown (.declaration above interface) member, extends_grown grown path⟩

end CommandScript.Registry
