import CommandScript.Operation.Call

/-!
# Operations on types and components

`Type` defines component types and works with components; `Interface` defines interfaces. A
definition answers `true`; a property that was never set reads as `null`; setting a property answers
with the component, so that calls can be bound and chained.
-/

set_option autoImplicit false

namespace CommandScript

inductive TypeOperation where
  | define
  | defineProperty
  | implement
  | create
  | is
  | isSubclassOf
  | implementsInterface
  | getTypeName
  | setProperty
  | getProperty
deriving DecidableEq, Repr

inductive InterfaceOperation where
  | define
  | isDefined
deriving DecidableEq, Repr

namespace TypeOperation

def all : List TypeOperation :=
  [.define, .defineProperty, .implement, .create, .is, .isSubclassOf, .implementsInterface,
    .getTypeName, .setProperty, .getProperty]

def key : TypeOperation → String
  | .define => "Define"
  | .defineProperty => "DefineProperty"
  | .implement => "Implement"
  | .create => "Create"
  | .is => "Is"
  | .isSubclassOf => "IsSubclassOf"
  | .implementsInterface => "ImplementsInterface"
  | .getTypeName => "GetTypeName"
  | .setProperty => "SetProperty"
  | .getProperty => "GetProperty"

-- Runs `Define(name, parent, interface...)`; a `null` parent defines a root.
def runDefine (call : Call) : Action Value := do
  call.need 2
  let name ← call.text 0
  let parent ← call.textOrNull 1
  let interfaces ← call.textsFrom 2
  Action.register (Registry.defineType name parent interfaces)
  return .bool true

def runDefineProperty (call : Call) : Action Value := do
  call.need 3
  let type ← call.text 0
  let property ← call.text 1
  Action.register (Registry.defineProperty type property (call.value 2))
  return .bool true

def runImplement (call : Call) : Action Value := do
  call.need 2
  let type ← call.text 0
  let interface ← call.text 1
  Action.register (Registry.addInterface type interface)
  return .bool true

def runCreate (call : Call) : Action Value := do
  let type ← call.text 0
  match (← get).registry.newComponent type with
  | .ok component => return .component (← Action.create component)
  | .error error => Call.refuse error

-- Runs `Is(component, target)`: whether the component passes for a type or an interface.
def runIs (call : Call) : Action Value := do
  call.need 2
  let id ← call.component 0
  let target ← call.text 1
  let world ← get
  return .bool (world.registry.isAssignableTo (world.store.get id).typeName target)

def runIsSubclassOf (call : Call) : Action Value := do
  call.need 2
  let derived ← call.text 0
  let base ← call.text 1
  return .bool ((← get).registry.isSubclassOf derived base)

def runImplementsInterface (call : Call) : Action Value := do
  call.need 2
  let type ← call.text 0
  let interface ← call.text 1
  return .bool ((← get).registry.implementsInterface type interface)

def runGetTypeName (call : Call) : Action Value := do
  let id ← call.component 0
  return .text ((← get).store.get id).typeName

-- Runs `SetProperty(component, property, value)`. A component cannot be a property of itself.
def runSetProperty (call : Call) : Action Value := do
  call.need 3
  let id ← call.component 0
  let property ← call.text 1
  if (call.value 2).componentId? = some id then Call.refuse (.storedInItself call.operation)
  Action.assign id property (call.value 2)
  return .component id

def runGetProperty (call : Call) : Action Value := do
  call.need 2
  let id ← call.component 0
  let property ← call.text 1
  return (((← get).store.get id).get? property).getD .null

def run (operation : TypeOperation) (arguments : List Value) : Action Value :=
  let call : Call := ⟨"Type." ++ operation.key, arguments⟩
  match operation with
  | .define => runDefine call
  | .defineProperty => runDefineProperty call
  | .implement => runImplement call
  | .create => runCreate call
  | .is => runIs call
  | .isSubclassOf => runIsSubclassOf call
  | .implementsInterface => runImplementsInterface call
  | .getTypeName => runGetTypeName call
  | .setProperty => runSetProperty call
  | .getProperty => runGetProperty call

end TypeOperation

namespace InterfaceOperation

def all : List InterfaceOperation :=
  [.define, .isDefined]

def key : InterfaceOperation → String
  | .define => "Define"
  | .isDefined => "IsDefined"

def runDefine (call : Call) : Action Value := do
  call.need 1
  let name ← call.text 0
  let parents ← call.textsFrom 1
  Action.register (Registry.defineInterface name parents)
  return .bool true

def runIsDefined (call : Call) : Action Value := do
  let name ← call.text 0
  return .bool ((← get).registry.hasInterface name)

def run (operation : InterfaceOperation) (arguments : List Value) : Action Value :=
  let call : Call := ⟨"Interface." ++ operation.key, arguments⟩
  match operation with
  | .define => runDefine call
  | .isDefined => runIsDefined call

end InterfaceOperation

end CommandScript
