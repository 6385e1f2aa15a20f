import CommandScript.Number.Integer
import CommandScript.Number.Shortest

/-!
# Doubles as text

Doubles are written with the fewest digits that read back. Script values are shown without an
exponent and with a point wherever the number is whole and below `10 ^ 15`; messages show the bare
digits; a crash report keeps a point and uses an exponent far from one.
-/

set_option autoImplicit false

namespace CommandScript.Number

def Decimal.positional (d : Decimal) : List Char :=
  let digits := digitsOf d.digits
  if 0 ≤ d.exponent then digits ++ List.replicate d.exponent.toNat '0'
  else
    let point := (digits.length : Int) + d.exponent
    if 0 < point then digits.take point.toNat ++ '.' :: digits.drop point.toNat
    else '0' :: '.' :: (List.replicate (-point).toNat '0' ++ digits)

def Decimal.scientific (d : Decimal) : List Char :=
  let digits := digitsOf d.digits
  let exponent := d.exponent + digits.length - 1
  let mantissa := match digits with
    | first :: second :: rest => first :: '.' :: second :: rest
    | short => short
  mantissa ++ 'e' :: (integerText exponent).toList

def floatText (zero : String) (write : Decimal → List Char) (x : Float) : String :=
  match Binary.ofFloat? x with
  | none => if x.isNaN then "NaN" else if x < 0 then "-inf" else "inf"
  | some b =>
    let sign := if b.negative then "-" else ""
    if b.significand = 0 then sign ++ zero else sign ++ String.ofList (write b.shortest)

-- The digits alone: `5`, `-0`, `0.1`, and never an exponent.
def bareText (x : Float) : String :=
  floatText "0" Decimal.positional x

-- The text of a script value: a whole number below `10 ^ 15` keeps one decimal.
def displayText (x : Float) : String :=
  if isIntegral x && x.abs < 1e15 then bareText x ++ ".0" else bareText x

-- The text of a crash report: always a point or an exponent, the latter from `10 ^ 16` on and below
-- `10 ^ -4`.
def reportText (x : Float) : String :=
  if x != 0 && (x.abs < 1e-4 || 1e16 ≤ x.abs) then floatText "0" Decimal.scientific x
  else if isIntegral x then bareText x ++ ".0"
  else bareText x

end CommandScript.Number
