/-!
# Cutting text at a separator

Paths are cut at dots, file paths at slashes and scripts at line feeds. A text with `n` separators
has `n + 1` pieces; joining the pieces with the separator gives the text back.
-/

set_option autoImplicit false

namespace CommandScript.Text

def pieces {α : Type} [DecidableEq α] (separator : α) : List α → List (List α)
  | [] => [[]]
  | c :: rest =>
    if c = separator then [] :: pieces separator rest
    else
      match pieces separator rest with
      | [] => [[c]]
      | piece :: others => (c :: piece) :: others

def dropReturn {α : Type} [DecidableEq α] (carriageReturn : α) (line : List α) : List α :=
  if line.getLast? = some carriageReturn then line.dropLast else line

-- Lines as cut out of the pieces between line feeds: a carriage return before a line feed belongs
-- to the line's end, and an empty rest after the last line feed is no line.
def linesOfPieces {α : Type} [DecidableEq α] (carriageReturn : α) : List (List α) → List (List α)
  | [] => []
  | [last] => if last.isEmpty then [] else [last]
  | piece :: others => dropReturn carriageReturn piece :: linesOfPieces carriageReturn others

def linesWith {α : Type} [DecidableEq α] (lineFeed carriageReturn : α) (s : List α) :
    List (List α) :=
  linesOfPieces carriageReturn (pieces lineFeed s)

def lines (s : List Char) : List (List Char) :=
  linesWith '\n' '\r' s

def byteLines (bytes : List UInt8) : List (List UInt8) :=
  linesWith 10 13 bytes

def cutAt (mark : Char) : List Char → Option (List Char × List Char)
  | [] => none
  | c :: rest =>
    if c = mark then some ([], rest)
    else (cutAt mark rest).map fun (before, after) => (c :: before, after)

def withoutLast (final : Char) (s : List Char) : Option (List Char) :=
  if s.getLast? = some final then some s.dropLast else none

end CommandScript.Text
