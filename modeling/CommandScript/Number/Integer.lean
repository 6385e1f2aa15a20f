/-!
# Whole numbers in decimal digits

An integer literal is an optional sign and one or more ASCII digits. Its exact value is found first;
whether it fits into 64 bits is a separate question.
-/

set_option autoImplicit false

namespace CommandScript.Number

def isDigit (c : Char) : Bool :=
  c.isDigit

def digitsValue (digits : List Char) : Nat :=
  digits.foldl (fun value c => 10 * value + (c.toNat - '0'.toNat)) 0

def splitSign : List Char → Bool × List Char
  | '-' :: rest => (true, rest)
  | '+' :: rest => (false, rest)
  | rest => (false, rest)

def isDigits (s : List Char) : Bool :=
  !s.isEmpty && s.all isDigit

def readInteger (s : List Char) : Option Int :=
  let (negative, digits) := splitSign s
  if isDigits digits then
    some (if negative then -(digitsValue digits : Int) else digitsValue digits)
  else none

def toInt64? (n : Int) : Option Int64 :=
  if -9223372036854775808 ≤ n ∧ n ≤ 9223372036854775807 then some (Int64.ofInt n) else none

def readInt64 (s : List Char) : Option Int64 :=
  (readInteger s).bind toInt64?

def readUInt64 (s : List Char) : Option UInt64 :=
  let digits := match s with
    | '+' :: rest => rest
    | rest => rest
  if isDigits digits ∧ digitsValue digits < UInt64.size then
    some (UInt64.ofNat (digitsValue digits))
  else none

def digitsOf (n : Nat) : List Char :=
  Nat.toDigits 10 n

def integerText (n : Int) : String :=
  match n with
  | .ofNat k => String.ofList (digitsOf k)
  | .negSucc k => String.ofList ('-' :: digitsOf (k + 1))

end CommandScript.Number
