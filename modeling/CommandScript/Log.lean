import CommandScript.Script.Basic

/-!
# The log

While it runs, the program tells on the standard error what it does. An event has a level, the part
of the program that tells it, a message and named data. Messages and some of the data are shown as
they are, with the line feeds they hold; other texts are quoted. A crash leaves its report among the
events.

How the log looks is up to a `Writer`, which numbers what it writes; `Writer.standard` writes one line
for each event.
-/

set_option autoImplicit false

namespace CommandScript.Log

inductive Level where
  | error
  | warning
  | info
  | debug
deriving DecidableEq, Repr

inductive Datum where
  | shown (text : String)
  | quoted (text : String)
  | quotedIfAny (text : Option String)
  | quotedAll (texts : List String)
  | flag (b : Bool)
  | count (n : Nat)
deriving DecidableEq, Repr

inductive Event where
  | said (level : Level) (text : String)
  | skippedMarker (session script : String) (error : MarkerError)
  | seeded (session name value : String)
  | loaded (session : String) (scripts : Nat)
  | unresolved (name : String)
  | definedInterface (name : String) (parents : List String)
  | definedType (name : String) (parent : Option String) (interfaces : List String)
  | definedProperty (type property value : String)
  | bound (name : String)
  | finished (succeeded : Bool)
  | failed (session script command fault : String)
deriving DecidableEq, Repr

namespace Event

def level : Event → Level
  | .said level _ => level
  | .skippedMarker .. | .failed .. => .warning
  | .loaded .. => .info
  | _ => .debug

def target : Event → String
  | .said .. => "sfscript::script"
  | .skippedMarker .. | .seeded .. | .loaded .. | .failed .. => "sfscript::session"
  | .unresolved .. => "sfscript::context"
  | .definedInterface .. | .definedType .. | .definedProperty .. => "sfscript::types"
  | .bound .. | .finished .. => "sfscript::script::exec"

def message : Event → String
  | .said _ text => text
  | .skippedMarker _ _ error => "ignoring malformed field marker, " ++ error.display
  | .seeded .. => "seeding field"
  | .loaded .. => "session loaded"
  | .unresolved .. => "unresolved variable reference, using null"
  | .definedInterface .. => "registered interface"
  | .definedType .. => "registered type"
  | .definedProperty .. => "defined property"
  | .bound .. => "binding result"
  | .finished .. => "command finished"
  | .failed .. => "command failed"

def data : Event → List (String × Datum)
  | .said .. => []
  | .skippedMarker session script _ => [("session", .shown session), ("script", .shown script)]
  | .seeded session name value =>
    [("session", .shown session), ("var", .shown name), ("value", .shown value)]
  | .loaded session scripts => [("session", .shown session), ("scripts", .count scripts)]
  | .unresolved name => [("var", .shown name)]
  | .definedInterface name parents => [("interface", .quoted name), ("parents", .quotedAll parents)]
  | .definedType name parent interfaces =>
    [("ty", .quoted name), ("parent", .quotedIfAny parent), ("interfaces", .quotedAll interfaces)]
  | .definedProperty type property value =>
    [("ty", .quoted type), ("prop", .quoted property), ("default", .shown value)]
  | .bound name => [("var", .quoted name)]
  | .finished succeeded => [("ok", .flag succeeded)]
  | .failed session script command fault =>
    [("session", .shown session), ("script", .quoted script), ("command", .shown command),
      ("error", .shown fault)]

end Event

-- What is written to the log: an event, with the command during which it happened, or the report of
-- a crash, be it of an operation or over an argument that is no text.
inductive Notice where
  | event (command : Option String) (told : Event)
  | crash (report : String)
  | unreadable (argument : List UInt8)
deriving DecidableEq, Repr

namespace Notice

-- Warnings and errors are always written, without the command; everything is when debugging.
def written? (debugging : Bool) : Notice → Option Notice
  | .event command told =>
    if debugging then some (.event command told)
    else
      match told.level with
      | .error | .warning => some (.event none told)
      | .info | .debug => none
  | .crash report => some (.crash report)
  | .unreadable argument => some (.unreadable argument)

end Notice

abbrev Writer := Nat → Notice → String

namespace Writer

def text (write : Writer) (notices : List Notice) : String :=
  String.join (notices.mapIdx write)

def paint (code text : String) : String :=
  "\x1b[" ++ code ++ "m" ++ text ++ "\x1b[0m"

def escape (c : Char) : String :=
  if c = '\n' then "\\n"
  else if c = '\r' then "\\r"
  else if c = '\t' then "\\t"
  else if c = '"' then "\\\""
  else if c = '\\' then "\\\\"
  else String.singleton c

def quote (text : String) : String :=
  "\"" ++ String.join (text.toList.map escape) ++ "\""

def levelText : Level → String
  | .error => paint "31" "ERROR"
  | .warning => paint "33" " WARN"
  | .info => paint "32" " INFO"
  | .debug => paint "34" "DEBUG"

def datumText : Datum → String
  | .shown text => text
  | .quoted text => quote text
  | .quotedIfAny none => "None"
  | .quotedIfAny (some text) => "Some(" ++ quote text ++ ")"
  | .quotedAll texts => "[" ++ ", ".intercalate (texts.map quote) ++ "]"
  | .flag true => "true"
  | .flag false => "false"
  | .count n => Number.integerText n

def field (name : String) (datum : Datum) : String :=
  paint "3" name ++ paint "2" "=" ++ datumText datum

def during : Option String → String
  | none => ""
  | some command =>
    paint "1" "execute" ++ paint "1" "\x7b" ++ field "command" (.shown command) ++ paint "1" "\x7d" ++
      paint "2" ":" ++ " "

def hexDigit (n : Nat) : String :=
  String.singleton (Char.ofNat (if n < 10 then 48 + n else 55 + n))

def byteText (b : UInt8) : String :=
  if 0x20 ≤ b ∧ b < 0x7F then escape (Char.ofNat b.toNat)
  else "\\x" ++ hexDigit (b.toNat / 16) ++ hexDigit (b.toNat % 16)

def unreadableReport (argument : List UInt8) : String :=
  "called `Result::unwrap()` on an `Err` value: \"" ++ String.join (argument.map byteText) ++ "\""

def crashText (report : String) : String :=
  "thread panicked:" ++ "\n" ++ report ++ "\n" ++ "note: no backtrace" ++ "\n"

-- One line for each event, with a stamp, and the lines of a report for each crash.
def standard (stamp : Nat → String) : Writer := fun index notice =>
  match notice with
  | .event command told =>
    paint "2" (stamp index) ++ " " ++ levelText told.level ++ " " ++ during command ++
      paint "2" told.target ++ paint "2" ":" ++ " " ++ told.message ++
      String.join (told.data.map fun (name, datum) => " " ++ field name datum) ++ "\n"
  | .crash report => crashText report
  | .unreadable argument => crashText (unreadableReport argument)

end Writer

end CommandScript.Log
