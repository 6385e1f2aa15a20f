import CommandScript.Catalog.Color
import CommandScript.Catalog.Console
import CommandScript.Catalog.Math
import CommandScript.Catalog.Types
import CommandScript.Catalog.Widgets

/-!
# The standard catalog

Every operation that comes with the program, and the tree under which scripts find them. A program
that embeds the interpreter may mount any of these namespaces in a tree of its own.
-/

set_option autoImplicit false

namespace CommandScript

inductive StandardOperation where
  | type (operation : TypeOperation)
  | interface (operation : InterfaceOperation)
  | console (operation : ConsoleOperation)
  | debug (operation : DebugOperation)
  | vector (operation : VectorOperation)
  | math (operation : MathOperation)
  | color (operation : ColorOperation)
  | text (operation : TextOperation)
  | image (operation : ImageOperation)
deriving DecidableEq, Repr

def StandardOperation.run (operation : StandardOperation) (arguments : List Value) :
    Action Value :=
  match operation with
  | .type operation => operation.run arguments
  | .interface operation => operation.run arguments
  | .console operation => operation.run arguments
  | .debug operation => operation.run arguments
  | .vector operation => operation.run arguments
  | .math operation => operation.run arguments
  | .color operation => operation.run arguments
  | .text operation => operation.run arguments
  | .image operation => operation.run arguments

def StandardOperation.toOperation (operation : StandardOperation) : Operation :=
  ⟨operation.run⟩

namespace Catalog

def leaves {α : Type} (all : List α) (key : α → String) (operation : α → StandardOperation) :
    List (String × Outline StandardOperation) :=
  all.map fun item => (key item, .operation (operation item))

def types : Outline StandardOperation :=
  .group (leaves TypeOperation.all TypeOperation.key .type)

def interfaces : Outline StandardOperation :=
  .group (leaves InterfaceOperation.all InterfaceOperation.key .interface)

def console : Outline StandardOperation :=
  .group (leaves ConsoleOperation.all ConsoleOperation.key .console)

def debug : Outline StandardOperation :=
  .group (leaves DebugOperation.all DebugOperation.key .debug)

def vector : Outline StandardOperation :=
  .group (leaves VectorOperation.all VectorOperation.key .vector)

def math : Outline StandardOperation :=
  .group (leaves MathOperation.all MathOperation.key .math)

def color : Outline StandardOperation :=
  .group (leaves ColorOperation.all ColorOperation.key .color)

def userInterface : Outline StandardOperation :=
  .group [
    ("Text", .group (leaves TextOperation.all TextOperation.key .text)),
    ("Image", .group (leaves ImageOperation.all ImageOperation.key .image))]

def namespaces : List (String × Outline StandardOperation) :=
  [("Vector3", vector), ("Mathf", math), ("Debug", debug), ("Color", color),
    ("UI", userInterface), ("Type", types), ("Interface", interfaces), ("Console", console)]

def mount? (name : String) : Option (Outline Operation) :=
  (Table.find? namespaces name).map (Outline.map StandardOperation.toOperation)

def outline : List (String × Outline StandardOperation) :=
  [("SFScript", .group [("Type", types), ("Interface", interfaces)]),
    ("System", .group [("Console", console)]),
    ("Engine", .group [("Vector3", vector), ("Mathf", math), ("Debug", debug), ("Color", color),
      ("UI", userInterface)])]

def standard : Tree StandardOperation :=
  match Tree.ofChildren outline with
  | .ok tree => tree
  | .error _ => .group []

theorem ofChildren_outline : Tree.ofChildren outline = .ok standard := by
  have built : (Tree.ofChildren outline).toBool = true := by decide +kernel
  unfold standard
  cases result : Tree.ofChildren outline with
  | ok tree => rfl
  | error error => simp [result, Except.toBool] at built

def tree : Tree Operation :=
  standard.map StandardOperation.toOperation

end Catalog

end CommandScript
