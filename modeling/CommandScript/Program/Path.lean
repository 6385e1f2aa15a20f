import CommandScript.Text.Split

/-!
# File paths

The name of a script is the last part of its path without the extension. Empty parts and single dots
in a path do not count, and a dot at the beginning of a name starts no extension.

The system refuses a path above `maxSize` bytes as a whole, and a part above `maxNameSize` bytes where
it would look the part up.
-/

set_option autoImplicit false

namespace CommandScript.Path

def maxSize : Nat := 4095

def maxNameSize : Nat := 255

def parts (path : String) : List (List Char) :=
  (Text.pieces '/' path.toList).filter fun part => part != [] && part != ['.']

-- The last part of a path; none if it leads upwards or nowhere.
def fileName? (path : String) : Option (List Char) :=
  match (parts path).getLast? with
  | none => none
  | some name => if name = ['.', '.'] then none else some name

-- A file name cut at its last dot; one that only begins with a dot is not cut.
def splitExtension (name : List Char) : List Char × Option (List Char) :=
  let extension := (name.reverse.takeWhile (· != '.')).reverse
  let stem := name.take (name.length - extension.length - 1)
  if stem.isEmpty then (name, none) else (stem, some extension)

def extension? (path : String) : Option (List Char) :=
  (fileName? path).bind fun name => (splitExtension name).2

-- The name of the script at a path: the file name without its extension, or the whole path if it
-- names no file.
def scriptName (path : String) : String :=
  match fileName? path with
  | some name => String.ofList (splitExtension name).1
  | none => path

def join (directory name : String) : String :=
  if directory.toList.getLast? = some '/' then directory ++ name else directory ++ "/" ++ name

end CommandScript.Path
