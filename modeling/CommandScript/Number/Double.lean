import CommandScript.Number.Binary

/-!
# Doubles with both kinds of NaN

A `Float` has one NaN, the quiet one. The encoding has another kind, which signals. The two compare
and print alike, and arithmetic turns both into the quiet one, but a power with a base of one or an
exponent of zero passes over a quiet NaN and not over one that signals. Script values hold doubles
in this wider sense, because a value keeps its kind of NaN until something is computed from it.
-/

set_option autoImplicit false

namespace CommandScript.Number

inductive Double where
  | ofFloat (x : Float)
  | signallingNaN
deriving DecidableEq, Repr

namespace Double

instance : OfScientific Double :=
  ⟨fun mantissa sign exponent => .ofFloat (OfScientific.ofScientific mantissa sign exponent)⟩

def toFloat : Double → Float
  | .ofFloat x => x
  | .signallingNaN => 0.0 / 0.0

-- The double of an encoding. A NaN signals if the first bit of its fraction is clear.
def ofBits (bits : UInt64) : Double :=
  let fraction := fractionField bits.toNat
  if exponentField bits.toNat = 2047 ∧ 0 < fraction ∧ fraction < Nat.pow 2 51 then .signallingNaN
  else .ofFloat (Float.ofBits bits)

end Double

end CommandScript.Number
