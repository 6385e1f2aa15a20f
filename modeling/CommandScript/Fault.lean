import CommandScript.Number.Text
import CommandScript.Value.Basic

/-!
# Why a command fails

Every cause of a failed command is a value here, and `Fault.message` is the one place that words it.
The families follow the stages of a command: its text, its path, the arguments of the operation, the
registration of types, and the work of the operation. An operation of the embedding program states
its own reason in its own words.
-/

set_option autoImplicit false

namespace CommandScript

inductive SyntaxError where
  | emptyCommand
  | missingEquals (name : String)
  | unnamedBinding
  | missingOpening (command : String)
  | missingClosing (command : String)
  | invalidSegment (segment path : String)
  | unmatchedClosing (arguments : String)
  | unmatchedOpening (arguments : String)
  | unterminatedText (arguments : String)
  | emptyArgument (arguments : String)
  | unreadableValue (token : String)
  | unknownComposite (name : String)
  | nestedTooDeeply (name : String)
  | wrongFieldCount (kind : CompositeKind) (count : Nat)
  | notNumber (kind : CompositeKind) (found : String)
  | notVector (found : String)
  | stated (reason : String)
deriving DecidableEq, Repr

def CompositeKind.fieldCounts : CompositeKind → List Nat
  | .vector3 => [3]
  | .color => [3, 4]
  | .bounds => [2]

def SyntaxError.message : SyntaxError → String
  | .emptyCommand => "empty command"
  | .missingEquals name => "expected '=' after $" ++ name
  | .unnamedBinding => "binding needs a variable name"
  | .missingOpening command => "expected '(' after operation path: " ++ command
  | .missingClosing command => "expected ')' at end of command: " ++ command
  | .invalidSegment segment path => "invalid path segment '" ++ segment ++ "' in '" ++ path ++ "'"
  | .unmatchedClosing arguments => "unbalanced ')' in arguments: " ++ arguments
  | .unmatchedOpening arguments => "unbalanced '(' in arguments: " ++ arguments
  | .unterminatedText arguments => "unterminated string in arguments: " ++ arguments
  | .emptyArgument arguments => "empty argument in: " ++ arguments
  | .unreadableValue token => "cannot parse value: " ++ token
  | .unknownComposite name => "unknown composite type '" ++ name ++ "'"
  | .nestedTooDeeply name => name ++ "(..) nested too deeply; composites nest at most one level"
  | .wrongFieldCount kind count =>
    kind.name ++ " takes " ++
      " or ".intercalate (kind.fieldCounts.map fun (n : Nat) => Number.integerText n) ++
      " fields, got " ++ Number.integerText count
  | .notNumber kind found => kind.name ++ " fields must be numbers, got " ++ found
  | .notVector found => "Bounds fields must be Vector3, got " ++ found
  | .stated reason => reason

inductive Expected where
  | text
  | number
  | vector
  | color
  | component
deriving DecidableEq, Repr

def Expected.noun : Expected → String
  | .text => "string"
  | .number => "number"
  | .vector => "Vector3"
  | .color => "Color"
  | .component => "component"

-- Arguments that an operation does not take. Positions count from zero and are shown from one.
inductive ArgumentError where
  | tooFew (operation : String) (needed got : Nat)
  | missing (operation : String) (position : Nat)
  | mismatch (operation : String) (position : Nat) (expected : Expected) (found : String)
  | wrongComponent (operation : String) (position : Nat) (expected found : String)
  | invertedRange (operation : String) (low high : Float)
  | sizeOutOfRange (operation : String) (size : Float)
  | storedInItself (operation : String)
  | noField (component field : String)
  | unknownType (name : String)
  | stated (reason : String)
deriving DecidableEq, Repr

def ArgumentError.message : ArgumentError → String
  | .tooFew operation needed got =>
    operation ++ " requires " ++ Number.integerText needed ++ " argument" ++
      (if needed = 1 then "" else "s") ++ ", got " ++ Number.integerText got
  | .missing operation position =>
    operation ++ ": missing argument " ++ Number.integerText (position + 1)
  | .mismatch operation position expected found =>
    operation ++ ": argument " ++ Number.integerText (position + 1) ++ " must be a " ++
      expected.noun ++ ", got " ++ found
  | .wrongComponent operation position expected found =>
    operation ++ ": argument " ++ Number.integerText (position + 1) ++ " must be a " ++
      expected ++ " component, got " ++ found
  | .invertedRange operation low high =>
    operation ++ ": min " ++ Number.bareText low ++ " is greater than max " ++
      Number.bareText high
  | .sizeOutOfRange operation size =>
    operation ++ ": font size out of range: " ++ Number.bareText size
  | .storedInItself operation => operation ++ ": a component cannot be stored in itself"
  | .noField component field => component ++ " has no field '" ++ field ++ "'"
  | .unknownType name => "unknown type '" ++ name ++ "'"
  | .stated reason => reason

inductive RegistrationError where
  | emptyName
  | alreadyType (name : String)
  | alreadyInterface (name : String)
  | missingParentInterface (name parent : String)
  | missingParentType (name parent : String)
  | missingInterface (name interface : String)
  | emptyProperty
  | unknownType (name : String)
  | builtinType (name : String)
  | unknownInterface (name : String)
  | stated (reason : String)
deriving DecidableEq, Repr

def RegistrationError.message : RegistrationError → String
  | .emptyName => "name cannot be empty"
  | .alreadyType name => "'" ++ name ++ "' is already a type"
  | .alreadyInterface name => "'" ++ name ++ "' is already an interface"
  | .missingParentInterface name parent =>
    "interface '" ++ name ++ "': parent interface '" ++ parent ++ "' is not registered"
  | .missingParentType name parent =>
    "type '" ++ name ++ "': parent type '" ++ parent ++ "' is not registered"
  | .missingInterface name interface =>
    "type '" ++ name ++ "': interface '" ++ interface ++ "' is not registered"
  | .emptyProperty => "property name cannot be empty"
  | .unknownType name => "unknown type '" ++ name ++ "'"
  | .builtinType name => "cannot define properties on builtin type '" ++ name ++ "'"
  | .unknownInterface name => "unknown interface '" ++ name ++ "'"
  | .stated reason => reason

inductive RuntimeError where
  | notFinite (operation : String)
  | crashed (report : String)
  | stated (reason : String)
deriving DecidableEq, Repr

def RuntimeError.message : RuntimeError → String
  | .notFinite operation => operation ++ ": result is not a finite number"
  | .crashed report => "operation panicked: " ++ report
  | .stated reason => reason

inductive Fault where
  | malformed (error : SyntaxError)
  | namespaceNotFound (segment path : String)
  | methodNotFound (path : String)
  | argument (error : ArgumentError)
  | registration (error : RegistrationError)
  | runtime (error : RuntimeError)
deriving DecidableEq, Repr

def Fault.message : Fault → String
  | .malformed error => "syntax error: " ++ error.message
  | .namespaceNotFound segment path =>
    "namespace not found: '" ++ segment ++ "' in '" ++ path ++ "'"
  | .methodNotFound path =>
    "method not found: '" ++ path ++ "' names a namespace, not an operation"
  | .argument error => "argument error: " ++ error.message
  | .registration error => "type registration error: " ++ error.message
  | .runtime error => "runtime error: " ++ error.message

-- The kind of a fault, apart from its details: a program that runs commands tells by it which stage
-- of a command failed.
inductive FaultKind where
  | malformed
  | namespaceNotFound
  | methodNotFound
  | argument
  | registration
  | runtime
deriving DecidableEq, Repr

def Fault.kind : Fault → FaultKind
  | .malformed _ => .malformed
  | .namespaceNotFound _ _ => .namespaceNotFound
  | .methodNotFound _ => .methodNotFound
  | .argument _ => .argument
  | .registration _ => .registration
  | .runtime _ => .runtime

end CommandScript
