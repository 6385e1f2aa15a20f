import CommandScript.Script.Field
import CommandScript.Text.Split

/-!
# Scripts

A script is a text of lines. Blank lines and comments do nothing, a field marker is a comment that
declares a variable, and every other line is a command. A marker that cannot be read is reported and
the script is used all the same.
-/

set_option autoImplicit false

namespace CommandScript

structure FieldMarker where
  line : Nat
  name : String
  value : Value
deriving Repr

structure MarkerError where
  line : Nat
  declaration : String
deriving DecidableEq, Repr

namespace MarkerError

def message (error : MarkerError) : String :=
  "expected '<type> <name> = <value>', got '" ++ error.declaration ++ "'"

def display (error : MarkerError) : String :=
  "line " ++ Number.integerText error.line ++ ": " ++ error.message

end MarkerError

inductive Line where
  | blank
  | comment
  | field (name : String) (value : Value)
  | malformed (declaration : String)
  | command (text : String)
deriving Repr

namespace Line

def isComment (text : List Char) : Bool :=
  "//".toList.isPrefixOf text || "/*".toList.isPrefixOf text

def marked? (text : List Char) : Option (List Char) :=
  if Field.marker.toList.isPrefixOf text then some (text.drop Field.marker.length) else none

def ofDeclaration (text : List Char) : Line :=
  let declaration := Text.trim text
  match Field.Declaration.ofChars? declaration with
  | some d => .field (String.ofList d.name) (Field.convert d.type d.value)
  | none => .malformed (String.ofList declaration)

def classify (text : List Char) : Line :=
  let line := Text.trim text
  if line.isEmpty then .blank
  else
    match marked? line with
    | some declaration => ofDeclaration declaration
    | none => if isComment line then .comment else .command (String.ofList line)

end Line

-- A script: its commands and the variables that it declares, in the order of the lines.
structure Script where
  name : String
  commands : List String
  fields : List FieldMarker
deriving Repr

namespace Script

def numberedLines (text : String) : List (Nat × Line) :=
  (Text.lines text.toList).mapIdx fun index line => (index + 1, Line.classify line)

def commandsOf (lines : List (Nat × Line)) : List String :=
  lines.filterMap fun
    | (_, .command text) => some text
    | _ => none

def fieldsOf (lines : List (Nat × Line)) : List FieldMarker :=
  lines.filterMap fun
    | (line, .field name value) => some ⟨line, name, value⟩
    | _ => none

def errorsOf (lines : List (Nat × Line)) : List MarkerError :=
  lines.filterMap fun
    | (line, .malformed declaration) => some ⟨line, declaration⟩
    | _ => none

def ofText (name text : String) : Script where
  name := name
  commands := commandsOf (numberedLines text)
  fields := fieldsOf (numberedLines text)

def markerErrors (text : String) : List MarkerError :=
  errorsOf (numberedLines text)

end Script

end CommandScript
