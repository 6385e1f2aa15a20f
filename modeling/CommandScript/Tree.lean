import CommandScript.Command.Parser
import CommandScript.Table

/-!
# The tree of operations

Operations are found by a path of keys. Inner nodes are namespaces, leaves are operations. A tree is
built from an outline: children in the order in which they are listed, with any keys. Building
checks the keys and puts the children into key order, and ends with the first error if there is one.
An operation is reached as soon as the path arrives at it, whatever segments follow.
-/

set_option autoImplicit false

namespace CommandScript

-- A tree as it is described: children in any order and with any keys.
inductive Outline (α : Type) where
  | operation (leaf : α)
  | group (children : List (String × Outline α))

-- A tree of operations: the children of a namespace are in ascending order of their keys.
inductive Tree (α : Type) where
  | operation (leaf : α)
  | group (children : List (String × Tree α))

inductive BuildError where
  | duplicateKey (parent key : String)
  | invalidKey (key : String)
deriving DecidableEq, Repr

def BuildError.message : BuildError → String
  | .duplicateKey parent key =>
    "duplicate dispatch key '" ++ key ++ "' under '" ++
      (if parent.isEmpty then "<root>" else parent) ++ "'"
  | .invalidKey key => "dispatch key must be a non-empty identifier, got '" ++ key ++ "'"

inductive Route (α : Type) where
  | reached (leaf : α)
  | onNamespace
  | missing (segment : String)
deriving DecidableEq, Repr

variable {α β : Type}

-- The children of one namespace while they are collected. The first error stays: what comes after it
-- is built as well, but changes nothing.
structure Builder (α : Type) where
  name : String
  children : List (String × Tree α)
  error : Option BuildError

namespace Builder

def named (name : String) : Builder α :=
  ⟨name, [], none⟩

def node (builder : Builder α) (key : String) (tree : Tree α) : Builder α :=
  if builder.error.isSome then builder
  else if !Text.isIdentifier key.toList then { builder with error := some (.invalidKey key) }
  else if Table.has builder.children key then { builder with error := some (.duplicateKey builder.name key) }
  else { builder with children := Table.put builder.children key tree }

-- A child that was built, or the reason why it was not.
def take (builder : Builder α) (key : String) : Except BuildError (Tree α) → Builder α
  | .ok tree => builder.node key tree
  | .error error => { builder with error := builder.error.or (some error) }

def build (builder : Builder α) : Except BuildError (Tree α) :=
  match builder.error with
  | some error => .error error
  | none => .ok (.group builder.children)

end Builder

namespace Outline

mutual

def map (f : α → β) : Outline α → Outline β
  | .operation leaf => .operation (f leaf)
  | .group children => .group (mapChildren f children)

def mapChildren (f : α → β) : List (String × Outline α) → List (String × Outline β)
  | [] => []
  | (key, child) :: rest => (key, map f child) :: mapChildren f rest

end

mutual

def build (key : String) : Outline α → Except BuildError (Tree α)
  | .operation leaf => .ok (.operation leaf)
  | .group children => (collect (.named key) children).build

-- The children of a namespace, one after the other. A child is built before its key is looked at.
def collect (builder : Builder α) : List (String × Outline α) → Builder α
  | [] => builder
  | (key, child) :: rest => collect (builder.take key (child.build key)) rest

end

end Outline

namespace Tree

def ofChildren (children : List (String × Outline α)) : Except BuildError (Tree α) :=
  (Outline.group children).build ""

mutual

def map (f : α → β) : Tree α → Tree β
  | .operation leaf => .operation (f leaf)
  | .group children => .group (mapChildren f children)

def mapChildren (f : α → β) : List (String × Tree α) → List (String × Tree β)
  | [] => []
  | (key, child) :: rest => (key, map f child) :: mapChildren f rest

end

def route : Tree α → List String → Route α
  | .operation leaf, _ => .reached leaf
  | .group _, [] => .onNamespace
  | .group children, segment :: rest =>
    match Table.find? children segment with
    | some child => child.route rest
    | none => .missing segment

mutual

def pathsAt (path : List String) : Tree α → List (List String)
  | .operation _ => [path]
  | .group children => pathsOfChildren path children

def pathsOfChildren (path : List String) : List (String × Tree α) → List (List String)
  | [] => []
  | (key, child) :: rest => pathsAt (path ++ [key]) child ++ pathsOfChildren path rest

end

def paths (tree : Tree α) : List String :=
  (tree.pathsAt []).map Command.joinPath

end Tree

end CommandScript
