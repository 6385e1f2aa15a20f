import CommandScript.Fault
import CommandScript.Text.Blank

/-!
# Cutting an argument list

Arguments are separated by commas. A comma inside parentheses or inside a quoted text separates
nothing, and inside a quoted text a backslash hides the character after it. The scan takes one
character at a time and stops at the first fault it meets.
-/

set_option autoImplicit false

namespace CommandScript.Arguments

-- Where the scan stands: how many parentheses are open, and whether it is inside a quoted text or
-- right after a backslash there.
inductive Place where
  | plain (depth : Nat)
  | quoted (quote : Char) (depth : Nat)
  | escaped (quote : Char) (depth : Nat)
deriving DecidableEq, Repr

def isQuote (c : Char) : Bool :=
  c == '\'' || c == '"'

-- The place after one more character; none for a parenthesis that closes nothing.
def Place.step : Place → Char → Option Place
  | .plain depth, c =>
    if isQuote c then some (.quoted c depth)
    else if c = '(' then some (.plain (depth + 1))
    else if c = ')' then
      match depth with
      | 0 => none
      | outer + 1 => some (.plain outer)
    else some (.plain depth)
  | .quoted quote depth, c =>
    if c = '\\' then some (.escaped quote depth)
    else if c = quote then some (.plain depth)
    else some (.quoted quote depth)
  | .escaped quote depth, _ => some (.quoted quote depth)

-- A collected token without the blanks around it; a blank one is a fault. The characters come in
-- reverse order.
def finish (whole : String) (collected : List Char) : Except SyntaxError (List Char) :=
  let token := Text.trim collected.reverse
  if token.isEmpty then .error (.emptyArgument whole) else .ok token

def scan (whole : String) : Place → List Char → List Char → Except SyntaxError (List (List Char))
  | .plain 0, collected, [] => do
    let token ← finish whole collected
    return [token]
  | .plain (_ + 1), _, [] => .error (.unmatchedOpening whole)
  | .quoted _ _, _, [] => .error (.unterminatedText whole)
  | .escaped _ _, _, [] => .error (.unterminatedText whole)
  | place, collected, c :: rest =>
    if place = .plain 0 ∧ c = ',' then do
      let token ← finish whole collected
      let others ← scan whole (.plain 0) [] rest
      return token :: others
    else
      match place.step c with
      | none => .error (.unmatchedClosing whole)
      | some next => scan whole next (c :: collected) rest

-- The tokens of an argument list, each without the blanks around it. A blank list has none.
def split (s : List Char) : Except SyntaxError (List (List Char)) :=
  if Text.allBlank s then .ok [] else scan (String.ofList s) (.plain 0) [] s

end CommandScript.Arguments
