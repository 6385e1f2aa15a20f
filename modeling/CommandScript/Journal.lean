import CommandScript.Catalog.Standard
import CommandScript.Log
import CommandScript.Session.Basic

/-!
# What goes into the log

The notices of commands, operations and sessions, in the order in which they come. They follow from
the texts that are run and the states in which they are run, and nothing that runs reads them.
-/

set_option autoImplicit false

namespace CommandScript

namespace Context

mutual

-- The names in a value that no variable is bound to, from left to right.
def unbound (context : Context) : Value → List String
  | .reference name => if context.contains name then [] else [name]
  | .composite _ fields => unboundAll context fields
  | .null | .bool _ | .int _ | .float _ | .text _ | .component _ => []

def unboundAll (context : Context) : List Value → List String
  | [] => []
  | value :: rest => unbound context value ++ unboundAll context rest

end

end Context

def DebugOperation.level : DebugOperation → Log.Level
  | .log => .info
  | .logWarning => .warning
  | .logError => .error

def TypeOperation.event? (operation : TypeOperation) (call : Call) (world : World) :
    Except Stop (Option Log.Event) := do
  match operation with
  | .define =>
    let name ← call.text 0
    let parent ← call.textOrNull 1
    let interfaces ← call.textsFrom 2
    return some (.definedType name parent (Registry.withoutRepeats interfaces))
  | .defineProperty =>
    let type ← call.text 0
    let property ← call.text 1
    return some (.definedProperty type property (world.text (call.value 2)))
  | _ => return none

def InterfaceOperation.event? (operation : InterfaceOperation) (call : Call) :
    Except Stop (Option Log.Event) := do
  match operation with
  | .define =>
    let name ← call.text 0
    let parents ← call.textsFrom 1
    return some (.definedInterface name (Registry.withoutRepeats parents))
  | .isDefined => return none

namespace StandardOperation

-- What an operation tells when it ends with a value.
def event? (operation : StandardOperation) (arguments : List Value) (world : World) :
    Option Log.Event :=
  match operation with
  | .debug operation => some (.said operation.level (messageOf world arguments))
  | .type operation =>
    ((operation.event? ⟨"Type." ++ operation.key, arguments⟩ world).toOption).join
  | .interface operation =>
    ((operation.event? ⟨"Interface." ++ operation.key, arguments⟩).toOption).join
  | _ => none

def notices (operation : StandardOperation) (command : String) (arguments : List Value)
    (world : World) : List Log.Notice :=
  match (operation.run arguments).run world with
  | (.ok _, _) => ((operation.event? arguments world).map (.event (some command))).toList
  | (.error (.crash report), _) => [.crash (report.getD "Box<dyn Any>")]
  | (.error (.fault _), _) => []

end StandardOperation

namespace State

-- The notices of a command that was run in a state, told by its outcome.
def notices (state : State) (outcome : Outcome) : List Log.Notice :=
  let event (told : Log.Event) : Log.Notice := .event (some outcome.command) told
  let work : List Log.Notice :=
    match Command.read outcome.command with
    | .error _ => []
    | .ok command =>
      let arguments := state.context.resolveAll command.arguments
      let unresolved := state.context.unboundAll command.arguments
      let operation :=
        match Catalog.standard.route command.path with
        | .reached operation => operation.notices outcome.command arguments state.world
        | .onNamespace | .missing _ => []
      let bound := if outcome.succeeded then command.binding else none
      unresolved.map (fun name => event (.unresolved name)) ++ operation ++
        (bound.map fun name => event (.bound name)).toList
  work ++ [event (.finished outcome.succeeded)]

end State

namespace Session

-- The notices of a marker that was skipped and of the variables that a script declares.
def markerNotices (id name text : String) : List Log.Notice :=
  (Script.markerErrors text).map (fun error => .event none (.skippedMarker id name error)) ++
    (Script.ofText name text).fields.map fun field =>
      .event none (.seeded id field.name (Store.empty.text field.value))

def loadNotices (id : String) (bundle : Bundle) : List Log.Notice :=
  bundle.flatMap (fun (name, text) => markerNotices id name text) ++
    [.event none (.loaded id bundle.length)]

def failureNotice? (id script : String) (outcome : Outcome) : Option Log.Notice :=
  match outcome.result with
  | .ok _ => none
  | .error fault => some (.event none (.failed id script outcome.command fault.message))

end Session

-- A command with the place that a session gives it when it fails there: the name of a script, if it
-- runs in a session.
structure Step where
  script : Option String
  line : String
deriving DecidableEq, Repr

namespace State

-- The notices of commands that are run one after the other.
def journal (id : String) : List Step → State → List Log.Notice
  | [], _ => []
  | step :: rest, state =>
    let (outcome, next) := state.execute Catalog.tree step.line
    let failure := step.script.bind fun script => Session.failureNotice? id script outcome
    state.notices outcome ++ failure.toList ++ next.journal id rest

end State

end CommandScript
