/-!
# Words

Operation paths, variables and constructors are named by identifiers: one or more ASCII letters,
digits and underscores.
-/

set_option autoImplicit false

namespace CommandScript.Text

def isWordChar (c : Char) : Bool :=
  c.isAlphanum || c == '_'

def isIdentifier (s : List Char) : Bool :=
  !s.isEmpty && s.all isWordChar

def isKeyword (word : String) (s : List Char) : Bool :=
  s.map Char.toLower == word.toList

end CommandScript.Text
