import CommandScript.Number.Reading
import CommandScript.Text.Blank
import CommandScript.Value.Basic

/-!
# Values read as numbers

Operations on numbers take integers, floats and texts that hold a number. A vector has three such
fields and a colour four.
-/

set_option autoImplicit false

namespace CommandScript

namespace Value

def floatOfInt64 (n : Int64) : Float :=
  Float.ofInt n.toInt

-- A value read as a number: integers, floats and texts that hold a finite decimal fraction.
def number? : Value → Option Number.Double
  | .int n => some (.ofFloat (floatOfInt64 n))
  | .float x => some x
  | .text s => (Number.readFinite (Text.trim s.toList)).map .ofFloat
  | _ => none

structure Vector where
  x : Float
  y : Float
  z : Float

structure Channels where
  red : Number.Double
  green : Number.Double
  blue : Number.Double
  alpha : Number.Double

def vector? : Value → Option Vector
  | .composite .vector3 [x, y, z] => do
    let x ← x.number?
    let y ← y.number?
    let z ← z.number?
    some ⟨x.toFloat, y.toFloat, z.toFloat⟩
  | _ => none

def channels? : Value → Option Channels
  | .composite .color [red, green, blue, alpha] => do
    let red ← red.number?
    let green ← green.number?
    let blue ← blue.number?
    let alpha ← alpha.number?
    some ⟨red, green, blue, alpha⟩
  | _ => none

def ofVector (v : Vector) : Value :=
  .composite .vector3 [.ofFloat v.x, .ofFloat v.y, .ofFloat v.z]

def ofChannels (c : Channels) : Value :=
  .composite .color [.float c.red, .float c.green, .float c.blue, .float c.alpha]

end Value

end CommandScript
