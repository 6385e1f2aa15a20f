/-!
# The parts of a double

A finite double is `± significand · 2 ^ exponent` with a significand below `2 ^ 53`. Printing and
rounding work on these parts with exact arithmetic on natural numbers.
-/

set_option autoImplicit false

namespace CommandScript.Number

structure Binary where
  negative : Bool
  significand : Nat
  exponent : Int
deriving DecidableEq, Repr

-- The exponent field of a double: eleven bits.
def exponentField (bits : Nat) : Nat :=
  bits / Nat.pow 2 52 % Nat.pow 2 11

-- The fraction field of a double: fifty-two bits.
def fractionField (bits : Nat) : Nat :=
  bits % Nat.pow 2 52

-- The parts of a finite double; infinities and NaN have none.
def Binary.ofFloat? (x : Float) : Option Binary :=
  let bits := x.toBits.toNat
  let field := exponentField bits
  let fraction := fractionField bits
  let negative := bits / Nat.pow 2 63 == 1
  if field = 2047 then none
  else if field = 0 then some ⟨negative, fraction, -1074⟩
  else some ⟨negative, Nat.pow 2 52 + fraction, (field : Int) - 1075⟩

-- The denominator of the parts as a fraction: `1` unless the exponent is negative.
def Binary.denominator (b : Binary) : Nat :=
  Nat.pow 2 (-b.exponent).toNat

def Binary.numerator (b : Binary) : Nat :=
  b.significand * Nat.pow 2 b.exponent.toNat

def isIntegral (x : Float) : Bool :=
  match Binary.ofFloat? x with
  | none => false
  | some b => b.numerator % b.denominator == 0

end CommandScript.Number
