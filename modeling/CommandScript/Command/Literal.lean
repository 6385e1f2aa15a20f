import CommandScript.Command.Arguments
import CommandScript.Number.Reading
import CommandScript.Text.Split
import CommandScript.Text.Word
import CommandScript.Value.Numeric

/-!
# Values as written in a command

A token is read by the first rule that fits: `null`, a quoted text, `true` or `false`, an integer of
64 bits, a decimal fraction, a composite such as `Vector3(1, 2, 3)`, a variable such as `$name`. A
composite may hold composites, and those hold none.
-/

set_option autoImplicit false

namespace CommandScript.Literal

-- What an escaped character of a quoted text stands for. An unknown escape stands for itself,
-- backslash included.
def unescaped : Char → List Char
  | 'n' => ['\n']
  | 't' => ['\t']
  | '\\' => ['\\']
  | '\'' => ['\'']
  | '"' => ['"']
  | c => ['\\', c]

-- The content of a quoted text between its quotes; none if it holds the bare quote or ends in the
-- middle of an escape.
def unescape (quote : Char) : List Char → Option (List Char)
  | [] => some []
  | ['\\'] => none
  | '\\' :: c :: rest => (unescape quote rest).map (unescaped c ++ ·)
  | c :: rest => if c = quote then none else (unescape quote rest).map (c :: ·)

def unquote : List Char → Option (List Char)
  | [] => none
  | quote :: rest =>
    if Arguments.isQuote quote then (Text.withoutLast quote rest).bind (unescape quote) else none

def atom? (token : List Char) : Option Value :=
  if Text.isKeyword "null" token then some .null
  else if let some content := unquote token then some (.text (String.ofList content))
  else if Text.isKeyword "true" token then some (.bool true)
  else if Text.isKeyword "false" token then some (.bool false)
  else if let some n := Number.readInt64 token then some (.int n)
  else if let some x := Number.readFinite token then some (.ofFloat x)
  else none

def constructor? (token : List Char) : Option (List Char × List Char) := do
  let (before, after) ← Text.cutAt '(' token
  let inside ← Text.withoutLast ')' after
  let name := Text.trim before
  if Text.isIdentifier name then some (name, inside) else none

def reference? : List Char → Option (List Char)
  | '$' :: name => if Text.isIdentifier name then some name else none
  | _ => none

-- A numeric field: integers become floats, and a variable is looked up later.
def numericField (kind : CompositeKind) : Value → Except SyntaxError Value
  | .int n => .ok (.ofFloat (Value.floatOfInt64 n))
  | .float x => .ok (.float x)
  | .reference name => .ok (.reference name)
  | other => .error (.notNumber kind other.typeName)

-- A corner of a `Bounds`: a vector, or a variable that is looked up later.
def vectorField : Value → Except SyntaxError Value
  | .composite .vector3 fields => .ok (.composite .vector3 fields)
  | .reference name => .ok (.reference name)
  | other => .error (.notVector other.typeName)

def normalFields (kind : CompositeKind) (fields : List Value) :
    Except SyntaxError (List Value) :=
  match kind with
  | .vector3 => fields.mapM (numericField .vector3)
  | .color => do
    let channels ← fields.mapM (numericField .color)
    return if channels.length = 3 then channels ++ [.float 1.0] else channels
  | .bounds => fields.mapM vectorField

def assemble (kind : CompositeKind) (fields : List Value) : Except SyntaxError Value := do
  if fields.length ∉ kind.fieldCounts then throw (.wrongFieldCount kind fields.length)
  return .composite kind (← normalFields kind fields)

def kindNamed (name : String) : Except SyntaxError CompositeKind :=
  match CompositeKind.ofName? name with
  | some kind => .ok kind
  | none => .error (.unknownComposite name)

def readWith (composite : String → List Char → Except SyntaxError Value) (text : List Char) :
    Except SyntaxError Value :=
  let token := Text.trim text
  match atom? token with
  | some value => .ok value
  | none =>
    match constructor? token with
    | some (name, inside) => composite (String.ofList name) inside
    | none =>
      match reference? token with
      | some name => .ok (.reference (String.ofList name))
      | none => .error (.unreadableValue (String.ofList token))

def readNested : (levels : Nat) → List Char → Except SyntaxError Value
  | 0 => readWith fun name _ => do
    let _ ← kindNamed name
    throw (.nestedTooDeeply name)
  | levels + 1 => readWith fun name inside => do
    let kind ← kindNamed name
    let tokens ← Arguments.split inside
    assemble kind (← tokens.mapM (readNested levels))

def read (token : List Char) : Except SyntaxError Value :=
  readNested 2 token

end CommandScript.Literal
