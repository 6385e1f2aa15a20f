import CommandScript.Number.Reading
import CommandScript.Text.Blank
import CommandScript.Text.WordTable
import CommandScript.Value.Basic

/-!
# Field markers

A comment of the form `// @field:<type> <name> = <value>` gives a variable its first value. The type
says how to read the value: `int`, `float` or `double`, `bool`, `string`, in any case. A value that
cannot be read so counts as zero or `false`; under any other type the text itself is the value.
-/

set_option autoImplicit false

namespace CommandScript.Field

def marker : String :=
  "// @field:"

def withoutQuotes (text : List Char) : List Char :=
  match text with
  | first :: rest =>
    if (first = '"' ∨ first = '\'') ∧ rest.getLast? = some first then rest.dropLast else text
  | [] => []

def convert (type : List Char) (text : List Char) : Value :=
  if Text.isKeyword "int" type then .int ((Number.readInt64 text).getD 0)
  else if Text.isKeyword "float" type || Text.isKeyword "double" type then
    .ofFloat ((Number.readFinite text).getD 0.0)
  else if Text.isKeyword "bool" type then .bool (Text.isKeyword "true" text)
  else if Text.isKeyword "string" type then .text (String.ofList (withoutQuotes text))
  else .text (String.ofList text)

-- The parts of a declaration `<type> <name> = <value>`: two words with blanks between them, an
-- equals sign, and a value that is not blank.
structure Declaration where
  type : List Char
  name : List Char
  value : List Char
deriving DecidableEq, Repr

def Declaration.ofChars? (text : List Char) : Option Declaration :=
  let type := text.takeWhile Text.isUnicodeWordChar
  let afterType := text.dropWhile Text.isUnicodeWordChar
  let named := Text.trimStart afterType
  let name := named.takeWhile Text.isUnicodeWordChar
  match Text.trimStart (named.dropWhile Text.isUnicodeWordChar) with
  | '=' :: rest =>
    let value := Text.trimStart rest
    if type.isEmpty ∨ named.length = afterType.length ∨ name.isEmpty ∨ value.isEmpty then none
    else some ⟨type, name, value⟩
  | _ => none

end CommandScript.Field
