import CommandScript.Program.Path
import CommandScript.Table

/-!
# Files

The files that a run of the program can see: a tree of directories, with the path of the working
directory from the root. Walking a path follows the tree part by part; `..` goes up, and at the root
it stays. The walk ends at the first part that cannot be followed, which decides what is wrong.
-/

set_option autoImplicit false

namespace CommandScript

inductive FileTree where
  | file (bytes : List UInt8)
  | directory (entries : List (String × FileTree))

inductive Lookup where
  | found (tree : FileTree)
  | missing
  | notDirectory
  | tooLong

namespace FileTree

def empty : FileTree :=
  .directory []

def at? (tree : FileTree) : List String → Option FileTree
  | [] => some tree
  | name :: rest =>
    match tree with
    | .file _ => none
    | .directory entries =>
      match Table.find? entries name with
      | some entry => entry.at? rest
      | none => none

-- The tree with a file or directory put at a path of names. Directories on the way are made where
-- they are missing.
def insert (tree : FileTree) (item : FileTree) : List String → FileTree
  | [] => item
  | name :: rest =>
    let entries := match tree with
      | .directory entries => entries
      | .file _ => []
    let below := (Table.find? entries name).getD empty
    .directory (Table.put entries name (below.insert item rest))

-- The walk from a place, along the parts of a path. Each part has to be looked up in a directory,
-- where no name is longer than `Path.maxNameSize`.
def walk (root : FileTree) (place : List String) : List String → Lookup
  | [] =>
    match root.at? place with
    | some tree => .found tree
    | none => .missing
  | part :: rest =>
    match root.at? place with
    | none => .missing
    | some (.file _) => .notDirectory
    | some (.directory entries) =>
      if part = "" ∨ part = "." then root.walk place rest
      else if part = ".." then root.walk place.dropLast rest
      else if Path.maxNameSize < part.utf8ByteSize then .tooLong
      else if Table.has entries part then root.walk (place ++ [part]) rest
      else .missing

end FileTree

structure Disk where
  root : FileTree
  workingDirectory : List String

namespace Disk

-- What a path names. The empty path names nothing.
def find (disk : Disk) (path : String) : Lookup :=
  let parts := (Text.pieces '/' path.toList).map String.ofList
  if path.isEmpty then .missing
  else if Path.maxSize < path.utf8ByteSize then .tooLong
  else if path.toList.head? = some '/' then disk.root.walk [] parts
  else disk.root.walk disk.workingDirectory parts

end Disk

end CommandScript
