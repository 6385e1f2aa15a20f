import CommandScript.Command.Literal

/-!
# Commands

One line of a script is one command: an optional binding `$name =`, a path of identifiers joined by
dots, and an argument list in parentheses.
-/

set_option autoImplicit false

namespace CommandScript

-- A command: the path of an operation, its arguments, and the variable that receives the result.
structure Command where
  path : List String
  arguments : List Value
  binding : Option String
deriving Inhabited, Repr

namespace Command

def joinPath (path : List String) : String :=
  ".".intercalate path

def splitBinding : List Char → Except SyntaxError (Option String × List Char)
  | '$' :: after =>
    let name := after.takeWhile Text.isWordChar
    match Text.trimStart (after.dropWhile Text.isWordChar) with
    | '=' :: rest =>
      if name.isEmpty then .error .unnamedBinding
      else .ok (some (String.ofList name), Text.trimStart rest)
    | _ => .error (.missingEquals (String.ofList name))
  | text => .ok (none, text)

-- The segments of a path; blanks around a segment do not count.
def readPath (text : List Char) : Except SyntaxError (List String) :=
  (Text.pieces '.' text).mapM fun piece =>
    let segment := Text.trim piece
    if Text.isIdentifier segment then .ok (String.ofList segment)
    else
      .error (.invalidSegment (String.ofList segment) (String.ofList (Text.trim text)))

def splitCall (text : List Char) : Except SyntaxError (List Char × List Char) :=
  match Text.cutAt '(' text with
  | none => .error (.missingOpening (String.ofList text))
  | some (path, after) =>
    match Text.withoutLast ')' after with
    | none => .error (.missingClosing (String.ofList text))
    | some inside => .ok (path, inside)

def parseChars (text : List Char) : Except SyntaxError Command := do
  let text := Text.trim text
  if text.isEmpty then throw .emptyCommand
  let (binding, call) ← splitBinding text
  let (path, inside) ← splitCall call
  let path ← readPath path
  let tokens ← Arguments.split inside
  let arguments ← tokens.mapM Literal.read
  return { path, arguments, binding }

def parse (text : String) : Except SyntaxError Command :=
  parseChars text.toList

end Command

end CommandScript
