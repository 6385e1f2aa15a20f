import CommandScript.Component.Basic

/-!
# The type registry

Scripts define component types and interfaces while they run. A type has at most one parent type and
declares any number of interfaces; an interface has any number of parent interfaces. Whatever a
definition refers to must be registered already, and a name is a type or an interface, never both.
A type's default fields are its own: a derived type does not inherit those of its parent.

Registrations change the registry in place. One that is refused may stop anywhere on its way, and
whatever it had changed by then would stay.
-/

set_option autoImplicit false

namespace CommandScript

structure TypeInfo where
  name : String
  parent : Option String
  interfaces : List String
  defaults : Table Value
  builtin : Bool
deriving Repr

structure InterfaceInfo where
  name : String
  parents : List String
deriving DecidableEq, Repr

structure Registry where
  types : Table TypeInfo
  interfaces : Table InterfaceInfo
deriving Repr

-- Work on the registry: it ends with a value or is refused, and keeps what it changed either way.
abbrev Registration (α : Type) := ExceptT RegistrationError (StateM Registry) α

namespace Registry

-- The record of a builtin type: all but the root derive from the root.
def builtinInfo (kind : Builtin) : TypeInfo where
  name := kind.name
  parent := if kind = .component then none else some Builtin.component.name
  interfaces := []
  defaults := kind.fields
  builtin := true

def initial : Registry where
  types := Table.ofEntries (Builtin.all.map fun kind => (kind.name, builtinInfo kind))
  interfaces := []

def hasType (r : Registry) (name : String) : Bool :=
  r.types.has name

def hasInterface (r : Registry) (name : String) : Bool :=
  r.interfaces.has name

def withoutRepeats (names : List String) : List String :=
  names.foldl (fun kept name => if kept.contains name then kept else kept ++ [name]) []

def checkNewName (r : Registry) (name : String) : Except RegistrationError Unit :=
  if name.isEmpty then .error .emptyName
  else if r.hasType name then .error (.alreadyType name)
  else if r.hasInterface name then .error (.alreadyInterface name)
  else .ok ()

def checkInterfaces (r : Registry) (refusal : String → RegistrationError) (names : List String) :
    Except RegistrationError Unit :=
  match names.find? fun name => !r.hasInterface name with
  | some missing => .error (refusal missing)
  | none => .ok ()

def checkParent (r : Registry) (name : String) (parent : Option String) :
    Except RegistrationError Unit :=
  match parent with
  | none => .ok ()
  | some parent =>
    if r.hasType parent then .ok () else .error (.missingParentType name parent)

def typeNamed (r : Registry) (name : String) : Except RegistrationError TypeInfo :=
  match r.types.find? name with
  | some info => .ok info
  | none => .error (.unknownType name)

def defineInterface (name : String) (parents : List String) : Registration Unit := do
  let r ← get
  r.checkNewName name
  r.checkInterfaces (.missingParentInterface name) parents
  set { r with interfaces := r.interfaces.put name ⟨name, withoutRepeats parents⟩ }

def defineType (name : String) (parent : Option String) (interfaces : List String) :
    Registration Unit := do
  let r ← get
  r.checkNewName name
  r.checkParent name parent
  r.checkInterfaces (.missingInterface name) interfaces
  let info : TypeInfo :=
    { name, parent, interfaces := withoutRepeats interfaces, defaults := [], builtin := false }
  set { r with types := r.types.put name info }

def defineProperty (type property : String) (value : Value) : Registration Unit := do
  if property.isEmpty then throw .emptyProperty
  let r ← get
  let info ← r.typeNamed type
  if info.builtin then throw (.builtinType type)
  let info := { info with defaults := info.defaults.put property value }
  set { r with types := r.types.put type info }

-- Declares that a type implements an interface; a second declaration changes nothing.
def addInterface (type interface : String) : Registration Unit := do
  let r ← get
  if !r.hasInterface interface then throw (.unknownInterface interface)
  let info ← r.typeNamed type
  if info.interfaces.contains interface then return
  let info := { info with interfaces := info.interfaces ++ [interface] }
  set { r with types := r.types.put type info }

def parent? (r : Registry) (name : String) : Option String :=
  (r.types.find? name).bind TypeInfo.parent

def parentsWithin (r : Registry) : (steps : Nat) → String → List String
  | 0, _ => []
  | steps + 1, name =>
    match r.parent? name with
    | none => []
    | some parent => parent :: r.parentsWithin steps parent

-- The chain of parents above a type, nearest first. It is no longer than the list of types.
def ancestors (r : Registry) (name : String) : List String :=
  r.parentsWithin r.types.length name

def isSubclassOf (r : Registry) (derived base : String) : Bool :=
  derived == base || (r.ancestors derived).contains base

-- Visits the members of a list in turn, until a visit finds what it looks for. What was seen in one
-- visit is known in the next.
def searchAny (visit : List String → String → Bool × List String) :
    (seen : List String) → List String → Bool × List String
  | seen, [] => (false, seen)
  | seen, name :: rest =>
    match visit seen name with
    | (true, seen) => (true, seen)
    | (false, seen) => searchAny visit seen rest

-- Depth-first search for an interface among those that an interface extends. An interface that was
-- seen before is not entered again.
def reaches (r : Registry) (target : String) :
    (depth : Nat) → (seen : List String) → String → Bool × List String
  | 0, seen, _ => (false, seen)
  | depth + 1, seen, interface =>
    if interface = target then (true, seen)
    else if seen.contains interface then (false, seen)
    else
      match r.interfaces.find? interface with
      | none => (false, interface :: seen)
      | some info => searchAny (r.reaches target depth) (interface :: seen) info.parents

def declared (r : Registry) (type : String) : List String :=
  match r.types.find? type with
  | some info => info.interfaces
  | none => []

def declaredAbove (r : Registry) (type : String) : List String :=
  (type :: r.ancestors type).flatMap r.declared

-- Whether a type or one above it declares an interface that is or extends the given one. Each step
-- down enters an interface that was not entered before, so their number bounds the depth.
def implementsInterface (r : Registry) (type interface : String) : Bool :=
  r.hasType type && r.hasInterface interface &&
    (searchAny (r.reaches interface (r.interfaces.length + 1)) [] (r.declaredAbove type)).1

-- Whether a component of a type passes for a target: an interface has to be implemented, any other
-- target has to be the type itself or above it.
def isAssignableTo (r : Registry) (type target : String) : Bool :=
  if r.hasInterface target then r.implementsInterface type target else r.isSubclassOf type target

def newComponent (r : Registry) (type : String) : Except ArgumentError Component :=
  match r.types.find? type with
  | none => .error (.unknownType type)
  | some info =>
    match if info.builtin then Builtin.ofName? type else none with
    | some kind => .ok (Component.ofBuiltin kind)
    | none => .ok ⟨.custom type, info.defaults⟩

end Registry

end CommandScript
