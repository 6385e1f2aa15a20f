/-!
# Blank characters and trimming

Script text is read up to the blanks around it. A blank is a character with the Unicode
`White_Space` property, so a no-break space is one and a zero-width space is not.
-/

set_option autoImplicit false

namespace CommandScript.Text

def isBlank (c : Char) : Bool :=
  let n := c.toNat
  (9 ≤ n && n ≤ 13) || n == 0x20 || n == 0x85 || n == 0xA0 || n == 0x1680 ||
    (0x2000 ≤ n && n ≤ 0x200A) || n == 0x2028 || n == 0x2029 || n == 0x202F ||
    n == 0x205F || n == 0x3000

def trimStart (s : List Char) : List Char :=
  s.dropWhile isBlank

def trimEnd (s : List Char) : List Char :=
  (s.reverse.dropWhile isBlank).reverse

def trim (s : List Char) : List Char :=
  trimEnd (trimStart s)

def trimmed (s : String) : String :=
  String.ofList (trim s.toList)

def allBlank (s : List Char) : Bool :=
  s.all isBlank

end CommandScript.Text
