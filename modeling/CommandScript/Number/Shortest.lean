import CommandScript.Number.Binary

/-!
# The fewest digits that read back

Every double stands for an interval of reals: those that round to it. Its shortest decimal is the
multiple of the largest power of ten that lies in the interval, the nearer of two, and the greater
of two that are equally near.
-/

set_option autoImplicit false

namespace CommandScript.Number

structure Decimal where
  digits : Nat
  exponent : Int
deriving DecidableEq, Repr

-- The reals that round to a double, as three numerators over one denominator: the least, the value
-- itself and the greatest. The ends belong to the interval if `closed` holds.
structure Interval where
  low : Nat
  value : Nat
  high : Nat
  denominator : Nat
  closed : Bool
deriving Repr

-- The interval of a double with a positive significand. Below a power of two the neighbour is only
-- half as far away, unless the exponent is already the least one.
def Binary.interval (b : Binary) : Interval :=
  let scale := Nat.pow 2 (b.exponent - 2).toNat
  let below := if b.significand = Nat.pow 2 52 ∧ b.exponent ≠ -1074 then 1 else 2
  { low := (4 * b.significand - below) * scale
    value := 4 * b.significand * scale
    high := (4 * b.significand + 2) * scale
    denominator := Nat.pow 2 (2 - b.exponent).toNat
    closed := b.significand % 2 == 0 }

def Interval.neighbour? (i : Interval) (exponent : Int) : Option Nat :=
  let up := Nat.pow 10 (-exponent).toNat
  let unit := i.denominator * Nat.pow 10 exponent.toNat
  let floor := i.value * up / unit
  let remainder := i.value * up % unit
  let lowerFits := if i.closed then i.low * up ≤ floor * unit else i.low * up < floor * unit
  let upperFits :=
    if i.closed then (floor + 1) * unit ≤ i.high * up else (floor + 1) * unit < i.high * up
  if lowerFits ∧ upperFits then some (if 2 * remainder < unit then floor else floor + 1)
  else if lowerFits then some floor
  else if upperFits then some (floor + 1)
  else none

def Interval.search (i : Interval) : Nat → Int → Decimal
  | 0, exponent =>
    ⟨i.value * Nat.pow 10 (-exponent).toNat / (i.denominator * Nat.pow 10 exponent.toNat), exponent⟩
  | steps + 1, exponent =>
    match i.neighbour? exponent with
    | some digits => ⟨digits, exponent⟩
    | none => i.search steps (exponent - 1)

def digitCount (n : Nat) : Nat :=
  (Nat.toDigits 10 n).length

-- The shortest decimal of a double with a positive significand. No decimal of more than seventeen
-- digits is needed, and the search starts at most two places too high.
def Binary.shortest (b : Binary) : Decimal :=
  let i := b.interval
  i.search 20 ((digitCount i.value : Int) - digitCount i.denominator + 1)

end CommandScript.Number
