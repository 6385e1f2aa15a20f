import CommandScript.Number.Integer

/-!
# Command-line options

Flags stand in clusters behind one dash. A flag that takes a value is the last of its cluster: what
follows it in the cluster is the value, or else the next argument is, whatever it looks like. Every
other argument is an input, and so is everything after `--`.
-/

set_option autoImplicit false

namespace CommandScript

structure Options where
  scriptDir : Option String := none
  command : Option String := none
  script : Option String := none
  timeout : Option UInt64 := none
  list : Bool := false
  debug : Bool := false
  inputs : List String := []
deriving DecidableEq, Repr

inductive UsageError where
  | missingValue (flag : Char)
  | invalidTimeout (value : String)
  | unknownOption (flag : Char)
deriving DecidableEq, Repr

def UsageError.message : UsageError → String
  | .missingValue flag => "-" ++ flag.toString ++ " requires an argument"
  | .invalidTimeout value => "invalid timeout (milliseconds): " ++ value
  | .unknownOption flag => "unknown option: -" ++ flag.toString

inductive ValueFlag where
  | scriptDir
  | command
  | script
  | timeout
deriving DecidableEq, Repr

namespace ValueFlag

def letter : ValueFlag → Char
  | .scriptDir => 'L'
  | .command => 'c'
  | .script => 's'
  | .timeout => 't'

def ofLetter? : Char → Option ValueFlag
  | 'L' => some .scriptDir
  | 'c' => some .command
  | 's' => some .script
  | 't' => some .timeout
  | _ => none

end ValueFlag

namespace Options

def set (options : Options) (flag : ValueFlag) (value : String) : Except UsageError Options :=
  match flag with
  | .scriptDir => .ok { options with scriptDir := some value }
  | .command => .ok { options with command := some value }
  | .script => .ok { options with script := some value }
  | .timeout =>
    match Number.readUInt64 value.toList with
    | some milliseconds => .ok { options with timeout := some milliseconds }
    | none => .error (.invalidTimeout value)

def readCluster (options : Options) : List Char → Except UsageError (Options × Option ValueFlag)
  | [] => .ok (options, none)
  | c :: rest =>
    if c = 'd' then readCluster { options with debug := true } rest
    else if c = 'l' then readCluster { options with list := true } rest
    else
      match ValueFlag.ofLetter? c with
      | none => .error (.unknownOption c)
      | some flag =>
        if rest.isEmpty then .ok (options, some flag)
        else (·, none) <$> options.set flag (String.ofList rest)

-- The characters behind the dash of an argument that holds flags. A dash alone is an input.
def cluster? (argument : String) : Option (List Char) :=
  match argument.toList with
  | '-' :: c :: rest => some (c :: rest)
  | _ => none

def addInputs (options : Options) (inputs : List String) : Options :=
  { options with inputs := options.inputs ++ inputs }

def readFrom (options : Options) : List String → Except UsageError Options
  | [] => .ok options
  | argument :: rest =>
    if argument = "--" then .ok (options.addInputs rest)
    else
      match cluster? argument with
      | none => (options.addInputs [argument]).readFrom rest
      | some cluster =>
        match options.readCluster cluster with
        | .error error => .error error
        | .ok (options, none) => options.readFrom rest
        | .ok (options, some flag) =>
          match rest with
          | [] => .error (.missingValue flag.letter)
          | value :: rest =>
            match options.set flag value with
            | .error error => .error error
            | .ok options => options.readFrom rest

def parse (arguments : List String) : Except UsageError Options :=
  readFrom {} arguments

end Options

end CommandScript
