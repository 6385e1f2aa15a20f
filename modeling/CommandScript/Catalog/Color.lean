import CommandScript.Operation.Call

/-!
# Operations on colours

A colour has three channels and an opacity. `Create` takes them as numbers, missing channels as zero
and a missing opacity as one; the other operations name a colour each.
-/

set_option autoImplicit false

namespace CommandScript

inductive NamedColor where
  | red
  | green
  | blue
  | white
  | black
  | yellow
  | cyan
  | magenta
  | gray
  | clear
deriving DecidableEq, Repr

namespace NamedColor

def all : List NamedColor :=
  [.red, .green, .blue, .white, .black, .yellow, .cyan, .magenta, .gray, .clear]

def name : NamedColor → String
  | .red => "red"
  | .green => "green"
  | .blue => "blue"
  | .white => "white"
  | .black => "black"
  | .yellow => "yellow"
  | .cyan => "cyan"
  | .magenta => "magenta"
  | .gray => "gray"
  | .clear => "clear"

def channels : NamedColor → Value.Channels
  | .red => ⟨1.0, 0.0, 0.0, 1.0⟩
  | .green => ⟨0.0, 1.0, 0.0, 1.0⟩
  | .blue => ⟨0.0, 0.0, 1.0, 1.0⟩
  | .white => ⟨1.0, 1.0, 1.0, 1.0⟩
  | .black => ⟨0.0, 0.0, 0.0, 1.0⟩
  | .yellow => ⟨1.0, 0.92, 0.016, 1.0⟩
  | .cyan => ⟨0.0, 1.0, 1.0, 1.0⟩
  | .magenta => ⟨1.0, 0.0, 1.0, 1.0⟩
  | .gray => ⟨0.5, 0.5, 0.5, 1.0⟩
  | .clear => ⟨0.0, 0.0, 0.0, 0.0⟩

end NamedColor

inductive ColorOperation where
  | create
  | named (color : NamedColor)
deriving DecidableEq, Repr

namespace ColorOperation

def all : List ColorOperation :=
  .create :: NamedColor.all.map .named

def key : ColorOperation → String
  | .create => "Create"
  | .named color => color.name

-- Runs `Create(red, green, blue, alpha)`. The opacity is looked at first.
def runCreate (call : Call) : Except Stop Value := do
  let alpha ← if call.arguments.length ≤ 3 then pure 1.0 else call.number 3
  let red ← call.number 0
  let green ← call.number 1
  let blue ← call.number 2
  return Value.ofChannels ⟨red, green, blue, alpha⟩

def run (operation : ColorOperation) (arguments : List Value) : Except Stop Value :=
  match operation with
  | .create => runCreate ⟨"Color." ++ operation.key, arguments⟩
  | .named color => .ok (Value.ofChannels color.channels)

end ColorOperation

end CommandScript
