import CommandScript.Proofs.Component.Store
import CommandScript.Proofs.Execution

set_option autoImplicit false

namespace CommandScript

variable {fits : Value → Prop}

namespace Table

def Every (fits : Value → Prop) (table : Table Value) : Prop :=
  ∀ entry ∈ table, fits entry.2

variable {table : Table Value}

theorem empty_every : Every fits [] := by
  intro entry member
  cases member

theorem Every.mono {weaker : Value → Prop} (every : table.Every fits) (implies : ∀ value, fits value → weaker value) :
    table.Every weaker :=
  fun entry member => implies entry.2 (every entry member)

theorem Every.find (every : table.Every fits) (null : fits .null) (key : String) : fits ((table.find? key).getD .null) := by
  cases found : table.find? key with
  | none => exact null
  | some value => exact every (key, value) (find_mem table key value found)

theorem Every.put (every : table.Every fits) (key : String) (value : Value) (own : fits value) : (table.put key value).Every fits := by
  intro entry member
  rcases mem_put table key value entry member with rfl | before
  · exact own
  · exact every entry before

end Table

theorem Builtin.fields_every (kind : Builtin) (computed : ∀ value : Value, value.Computed → fits value) : kind.fields.Every fits := by
  have shade (c : Value.Channels) : fits (Value.ofChannels c) := computed _ (Value.of_channels_computed c)
  cases kind with
  | component => exact Table.empty_every
  | text =>
    simp only [Table.Every, fields, List.forall_mem_cons]
    exact ⟨shade _, computed _ (.int 14), computed _ (.text ""), Table.empty_every⟩
  | image =>
    simp only [Table.Every, fields, List.forall_mem_cons]
    exact ⟨shade _, computed _ (.float 1.0), computed _ .null, Table.empty_every⟩
  | spriteRenderer =>
    simp only [Table.Every, fields, List.forall_mem_cons]
    exact ⟨shade _, computed _ (.bool false), computed _ (.bool false), computed _ (.int 0), computed _ .null, Table.empty_every⟩

namespace Registry

def Every (fits : Value → Prop) (r : Registry) : Prop :=
  ∀ entry ∈ r.types, entry.2.defaults.Every fits

theorem initial_every (computed : ∀ value : Value, value.Computed → fits value) : initial.Every fits := by
  have builtin (kinds : List Builtin) (table : Table TypeInfo) (every : ∀ entry ∈ table, entry.2.defaults.Every fits) :
      ∀ entry ∈ (kinds.map fun kind => (kind.name, builtinInfo kind)).foldl (fun table entry => Table.put table entry.1 entry.2) table,
        entry.2.defaults.Every fits := by
    induction kinds generalizing table with
    | nil => exact every
    | cons kind rest ih =>
      apply ih
      intro entry member
      rcases Table.mem_put table kind.name (builtinInfo kind) entry member with rfl | before
      · exact kind.fields_every computed
      · exact every entry before
  exact builtin Builtin.all [] (by simp)

variable {r : Registry}

theorem Every.with_type (every : r.Every fits) (key : String) (info : TypeInfo) (own : info.defaults.Every fits) :
    (r.withType key info).Every fits := by
  intro entry member
  rcases Table.mem_put r.types key info entry member with rfl | before
  · exact own
  · exact every entry before

theorem Every.found (every : r.Every fits) (key : String) (info : TypeInfo) (found : r.types.find? key = some info) :
    info.defaults.Every fits :=
  every (key, info) (Table.find_mem r.types key info found)

-- The value that a request brings into the registry.
def Request.brings : Request → Option Value
  | .defineProperty _ _ value => some value
  | .defineInterface _ _ | .defineType _ _ _ | .addInterface _ _ => none

theorem Every.after (every : r.Every fits) (request : Request) (own : ∀ value, request.brings = some value → fits value) :
    (r.after request).Every fits := by
  rcases after_cases r request with same | accepted
  · rw [same]
    exact every
  · generalize r.after request = next at accepted
    cases accepted with
    | interface | declaredBefore => exact every
    | type name parent interfaces => exact every.with_type name _ Table.empty_every
    | property type property value info named found custom =>
      exact every.with_type type _ ((every.found type info found).put property value (own value rfl))
    | declared type interface info known found absent => exact every.with_type type _ (every.found type info found)

theorem Every.new_component (every : r.Every fits) (computed : ∀ value : Value, value.Computed → fits value) (type : String)
    (component : Component) (made : r.newComponent type = .ok component) : component.fields.Every fits := by
  unfold newComponent at made
  cases found : r.types.find? type with
  | none => simp [found] at made
  | some info =>
    simp only [found] at made
    split at made
    · obtain rfl := Except.ok.inj made
      exact Builtin.fields_every _ computed
    · obtain rfl := Except.ok.inj made
      exact every.found type info found

end Registry

namespace Store

def Every (fits : Value → Prop) (store : Store) : Prop :=
  ∀ component ∈ store.components, component.fields.Every fits

variable {store : Store}

theorem Every.get (every : store.Every fits) (id : ComponentId) : (store.get id).fields.Every fits := by
  unfold Store.get
  cases found : store.components[id]? with
  | none => exact Table.empty_every
  | some component => exact every component (List.mem_of_getElem? found)

theorem Every.create (every : store.Every fits) (component : Component) (own : component.fields.Every fits) :
    (store.create component).Every fits := by
  intro other member
  rcases List.mem_append.mp member with before | new
  · exact every other before
  · exact List.mem_singleton.mp new ▸ own

theorem Every.write (every : store.Every fits) (id : ComponentId) (field : String) (value : Value) (own : fits value) :
    (store.write id field value).Every fits := by
  intro other member
  obtain ⟨place, found⟩ := List.mem_iff_getElem?.mp member
  rw [Store.write, List.getElem?_modify] at found
  obtain ⟨before, present, changed⟩ := Option.map_eq_some_iff.mp found
  have kept := every before (List.mem_of_getElem? present)
  split at changed
  · rw [← changed]
    exact kept.put field value own
  · rw [← changed]
    exact kept

end Store

-- Every value that is kept for later: in the fields of components and in the defaults of types.
structure World.Every (fits : Value → Prop) (world : World) : Prop where
  fields : world.store.Every fits
  defaults : world.registry.Every fits

theorem World.Every.mono {weaker : Value → Prop} {world : World} (every : world.Every fits)
    (implies : ∀ value, fits value → weaker value) : world.Every weaker :=
  ⟨fun component member => (every.fields component member).mono implies, fun entry member => (every.defaults entry member).mono implies⟩

-- Operations make values of their own, or take them from their arguments and from components.
theorem StandardOperation.makes_every (operation : StandardOperation) (arguments : List Value) (world : World) (change : Change)
    (value : Value) (makes : Makes arguments world operation change value) (every : world.Every fits)
    (given : ∀ argument ∈ arguments, fits argument) (computed : ∀ value : Value, value.Computed → fits value)
    (fresh : ∀ component, change = .create component → fits (.component world.store.next)) :
    fits value ∧ (world.apply change).Every fits := by
  cases makes with
  | definedType | declared | definedInterface =>
    refine ⟨computed _ (.bool true), every.fields, every.defaults.after _ fun value brought => ?_⟩
    cases brought
  | definedProperty type property content passed =>
    refine ⟨computed _ (.bool true), every.fields, every.defaults.after _ fun value brought => ?_⟩
    obtain rfl := Option.some.inj brought
    exact given content (List.mem_of_getElem? passed)
  | created type component made =>
    exact ⟨fresh component rfl, every.fields.create component (every.defaults.new_component computed type component made), every.defaults⟩
  | assigned id property content target passed =>
    exact ⟨given _ (List.mem_of_getElem? target),
      every.fields.write id property content (given content (List.mem_of_getElem? passed)), every.defaults⟩
  | styled _ setter id field content target accepted own =>
    exact ⟨given _ (List.mem_of_getElem? target), every.fields.write id field content (computed content own), every.defaults⟩
  | printed _ printer text => exact ⟨computed _ .null, every.fields, every.defaults⟩
  | fetched _ id field target => exact ⟨(every.fields.get id).find (computed _ .null) field, every⟩
  | answered _ _ own => exact ⟨computed value own, every⟩

theorem State.bound_every (context : Context) (target : Option String) (value : Value) (every : context.bindings.Every fits)
    (own : fits value) : (bound context target value).bindings.Every fits := by
  cases target with
  | none => exact every
  | some name => exact every.put name value own

end CommandScript
