import CommandScript.Number.Binary

/-!
# Rounding to a whole number

One rule decides whether the magnitude left of the point goes up by one; the sign is kept, so a
small negative number may round to negative zero.
-/

set_option autoImplicit false

namespace CommandScript.Number

inductive Rounding where
  | down
  | up
  | nearestEven
  | nearestAway
deriving DecidableEq, Repr

def Rounding.movesAway (rule : Rounding) (negative : Bool) (whole remainder unit : Nat) : Bool :=
  match rule with
  | .down => negative && remainder != 0
  | .up => !negative && remainder != 0
  | .nearestEven => 2 * remainder > unit || (2 * remainder == unit && whole % 2 == 1)
  | .nearestAway => 2 * remainder ≥ unit

def Rounding.magnitude (rule : Rounding) (b : Binary) : Nat :=
  let whole := b.numerator / b.denominator
  let remainder := b.numerator % b.denominator
  if rule.movesAway b.negative whole remainder b.denominator then whole + 1 else whole

-- A double rounded to a whole number. Infinities, NaN and doubles without a fractional part are
-- left as they are.
def Rounding.apply (rule : Rounding) (x : Float) : Float :=
  match Binary.ofFloat? x with
  | none => x
  | some b =>
    if 0 ≤ b.exponent then x
    else
      let magnitude := Float.ofNat (rule.magnitude b)
      if b.negative then -magnitude else magnitude

-- The whole number that a double is, its fractional part dropped; zero for infinities and NaN.
def truncate (x : Float) : Int :=
  match Binary.ofFloat? x with
  | none => 0
  | some b =>
    let whole : Nat := b.numerator / b.denominator
    if b.negative then -(whole : Int) else whole

end CommandScript.Number
