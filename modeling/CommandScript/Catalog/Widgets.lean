import CommandScript.Catalog.Math
import CommandScript.Operation.Call

/-!
# Operations on texts and images of the user interface

They read and write the fields of the builtin components `Text` and `Image`. A setter answers with
the component, so that calls can be bound and chained.
-/

set_option autoImplicit false

namespace CommandScript

inductive TextOperation where
  | setText
  | getText
  | setFontSize
  | getFontSize
  | setColor
  | getColor
deriving DecidableEq, Repr

inductive ImageOperation where
  | setColor
  | getColor
  | setFillAmount
  | getFillAmount
deriving DecidableEq, Repr

def builtinArgument (call : Call) (kind : Builtin) : Action ComponentId := do
  let id ← call.component 0
  let component := (← get).store.get id
  if component.type = .builtin kind then return id
  Call.refuse (.wrongComponent call.operation 0 kind.name component.typeName)

-- A getter: the field of the component that is the only argument.
def readField (call : Call) (kind : Builtin) (field : String) : Action Value := do
  call.need 1
  let id ← builtinArgument call kind
  return (((← get).store.get id).get? field).getD .null

-- A setter: the field of the component takes what `value` makes of the second argument.
def writeField (call : Call) (kind : Builtin) (field : String) (value : Action Value) :
    Action Value := do
  call.need 2
  let id ← builtinArgument call kind
  let value ← value
  Action.assign id field value
  return .component id

-- The second argument as a text; `null` clears it.
def textValue (call : Call) : Action Value := do
  match call.value 1 with
  | .null => return .text ""
  | value => return .text ((← get).text value)

def maxFontSize : Float :=
  2147483647.0

-- The second argument as a font size: a whole number of points, halves going up.
def fontSizeValue (call : Call) : Except Stop Value := do
  let size := Number.Rounding.nearestAway.apply (← call.float 1)
  if 0.0 ≤ size ∧ size ≤ maxFontSize then return .int (Int64.ofInt (Number.truncate size))
  Call.refuse (.sizeOutOfRange call.operation size)

def colorValue (call : Call) : Except Stop Value := do
  let channels ← call.channels 1
  return Value.ofChannels channels

def fillValue (call : Call) : Except Stop Value := do
  let amount ← call.number 1
  return .float (clamped amount 0.0 1.0)

namespace TextOperation

def all : List TextOperation :=
  [.setText, .getText, .setFontSize, .getFontSize, .setColor, .getColor]

def key : TextOperation → String
  | .setText => "SetText"
  | .getText => "GetText"
  | .setFontSize => "SetFontSize"
  | .getFontSize => "GetFontSize"
  | .setColor => "SetColor"
  | .getColor => "GetColor"

def run (operation : TextOperation) (arguments : List Value) : Action Value :=
  let call : Call := ⟨"Text." ++ operation.key, arguments⟩
  match operation with
  | .setText => writeField call .text "text" (textValue call)
  | .getText => readField call .text "text"
  | .setFontSize => writeField call .text "fontSize" (fontSizeValue call)
  | .getFontSize => readField call .text "fontSize"
  | .setColor => writeField call .text "color" (colorValue call)
  | .getColor => readField call .text "color"

end TextOperation

namespace ImageOperation

def all : List ImageOperation :=
  [.setColor, .getColor, .setFillAmount, .getFillAmount]

def key : ImageOperation → String
  | .setColor => "SetColor"
  | .getColor => "GetColor"
  | .setFillAmount => "SetFillAmount"
  | .getFillAmount => "GetFillAmount"

def run (operation : ImageOperation) (arguments : List Value) : Action Value :=
  let call : Call := ⟨"Image." ++ operation.key, arguments⟩
  match operation with
  | .setColor => writeField call .image "color" (colorValue call)
  | .getColor => readField call .image "color"
  | .setFillAmount => writeField call .image "fillAmount" (fillValue call)
  | .getFillAmount => readField call .image "fillAmount"

end ImageOperation

end CommandScript
