/-!
# UTF-8

Bytes are read as text one character after the other. Where they are no text, the fault says at
which byte the first bad sequence starts and how long it is, or that the bytes end in the middle of
a character.
-/

set_option autoImplicit false

namespace CommandScript.Text.Utf8

inductive Fault where
  | invalid (index length : Nat)
  | incomplete (index : Nat)
deriving DecidableEq, Repr

def Fault.message : Fault → String
  | .invalid index length =>
    "invalid utf-8 sequence of " ++ toString length ++ " bytes from index " ++ toString index
  | .incomplete index => "incomplete utf-8 byte sequence from index " ++ toString index

def isTail (b : UInt8) : Bool :=
  0x80 ≤ b && b ≤ 0xBF

-- The second byte of a character of three bytes: no character is written longer than needed, and
-- none is a surrogate.
def isSecondOfThree (a b : UInt8) : Bool :=
  (if a = 0xE0 then 0xA0 ≤ b else 0x80 ≤ b) && (if a = 0xED then b ≤ 0x9F else b ≤ 0xBF)

-- The second byte of a character of four bytes: no character is written longer than needed, and
-- none is above the last code point.
def isSecondOfFour (a b : UInt8) : Bool :=
  (if a = 0xF0 then 0x90 ≤ b else 0x80 ≤ b) && (if a = 0xF4 then b ≤ 0x8F else b ≤ 0xBF)

def tailBits (b : UInt8) : Nat :=
  b.toNat % 64

def decodeFrom (index : Nat) : List UInt8 → Except Fault (List Char)
  | [] => .ok []
  | a :: rest =>
    if a < 0x80 then (Char.ofNat a.toNat :: ·) <$> decodeFrom (index + 1) rest
    else if 0xC2 ≤ a && a ≤ 0xDF then
      match rest with
      | [] => .error (.incomplete index)
      | b :: rest =>
        if isTail b then
          (Char.ofNat (a.toNat % 32 * 64 + tailBits b) :: ·) <$> decodeFrom (index + 2) rest
        else .error (.invalid index 1)
    else if 0xE0 ≤ a && a ≤ 0xEF then
      match rest with
      | [] => .error (.incomplete index)
      | b :: rest =>
        if !isSecondOfThree a b then .error (.invalid index 1)
        else
          match rest with
          | [] => .error (.incomplete index)
          | c :: rest =>
            if !isTail c then .error (.invalid index 2)
            else
              (Char.ofNat ((a.toNat % 16 * 64 + tailBits b) * 64 + tailBits c) :: ·) <$>
                decodeFrom (index + 3) rest
    else if 0xF0 ≤ a && a ≤ 0xF4 then
      match rest with
      | [] => .error (.incomplete index)
      | b :: rest =>
        if !isSecondOfFour a b then .error (.invalid index 1)
        else
          match rest with
          | [] => .error (.incomplete index)
          | c :: rest =>
            if !isTail c then .error (.invalid index 2)
            else
              match rest with
              | [] => .error (.incomplete index)
              | d :: rest =>
                if !isTail d then .error (.invalid index 3)
                else
                  (Char.ofNat
                      (((a.toNat % 8 * 64 + tailBits b) * 64 + tailBits c) * 64 + tailBits d) :: ·) <$>
                    decodeFrom (index + 4) rest
    else .error (.invalid index 1)

def decode (bytes : List UInt8) : Except Fault (List Char) :=
  decodeFrom 0 bytes

end CommandScript.Text.Utf8
