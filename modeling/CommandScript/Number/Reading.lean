import CommandScript.Number.Integer

/-!
# Reading decimal fractions

A decimal fraction is an optional sign, digits with at most one point among them, and an optional
exponent. It is read to the nearest double; a value that is too large for any finite double is
refused.
-/

set_option autoImplicit false

namespace CommandScript.Number

-- A decimal as written: the digits before and after the point, and the exponent.
structure Written where
  negative : Bool
  whole : List Char
  fraction : List Char
  exponent : Int
deriving DecidableEq, Repr

def splitFraction : List Char → List Char × List Char
  | '.' :: rest => (rest.takeWhile isDigit, rest.dropWhile isDigit)
  | rest => ([], rest)

def readExponent : List Char → Option Int
  | [] => some 0
  | c :: rest => if c = 'e' ∨ c = 'E' then readInteger rest else none

def Written.ofChars? (s : List Char) : Option Written :=
  let (negative, unsigned) := splitSign s
  let whole := unsigned.takeWhile isDigit
  let (fraction, rest) := splitFraction (unsigned.dropWhile isDigit)
  if whole.isEmpty ∧ fraction.isEmpty then none
  else (readExponent rest).map fun exponent => ⟨negative, whole, fraction, exponent⟩

-- The double nearest to `digits · 10 ^ exponent`. A number of `count` digits is below `10 ^ count`,
-- so far outside the range of a double the answer is known without the power.
def scaled (digits count : Nat) (exponent : Int) : Float :=
  if digits = 0 then 0.0
  else if 400 < exponent then 1.0 / 0.0
  else if exponent + count < -400 then 0.0
  else Float.ofScientific digits (exponent < 0) exponent.natAbs

def Written.toFloat (w : Written) : Float :=
  let digits := w.whole ++ w.fraction
  let magnitude := scaled (digitsValue digits) digits.length (w.exponent - w.fraction.length)
  if w.negative then -magnitude else magnitude

def readFinite (s : List Char) : Option Float :=
  match Written.ofChars? s with
  | none => none
  | some w => if w.toFloat.isFinite then some w.toFloat else none

end CommandScript.Number
