import CommandScript.Execution

/-!
# Reports

The outcomes of a run are printed one to a line. On a terminal a line is coloured: green for a
command that succeeded, bold red for one that failed.
-/

set_option autoImplicit false

namespace CommandScript.Report

def green : String :=
  "\x1b[38;5;2m"

def red : String :=
  "\x1b[38;5;9m\x1b[1m"

def reset : String :=
  "\x1b[0m"

def line (colored : Bool) (store : Store) (outcome : Outcome) : String :=
  if colored then
    (if outcome.succeeded then green else red) ++ outcome.line store ++ reset ++ "\n"
  else outcome.line store ++ "\n"

def text (colored : Bool) (store : Store) (outcomes : List Outcome) : String :=
  String.join (outcomes.map (line colored store))

def failures (outcomes : List Outcome) : Nat :=
  outcomes.countP fun outcome => !outcome.succeeded

end CommandScript.Report
