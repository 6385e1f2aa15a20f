import CommandScript.Execution
import CommandScript.Script.Basic

/-!
# Sessions

A session is a bundle of scripts with variables of its own. Loading it sets the variables that the
scripts declare and runs nothing. An unloaded session holds nothing any more and runs nothing.

What is asked of a session may be refused. Nothing takes back what was changed before that.
-/

set_option autoImplicit false

namespace CommandScript

inductive SessionError where
  | emptyBundle
  | emptyScriptName
  | emptyScript (name : String)
  | duplicateScript (name : String)
  | duplicateSession (id : String)
  | sessionNotFound (id : String)
  | scriptNotFound (name : String)
  | inactive (id : String)
deriving DecidableEq, Repr

def SessionError.message : SessionError → String
  | .emptyBundle => "at least one script is required"
  | .emptyScriptName => "script name cannot be empty"
  | .emptyScript name => "script '" ++ name ++ "' has no text"
  | .duplicateScript name => "duplicate script name: " ++ name
  | .duplicateSession id => "session '" ++ id ++ "' is already loaded; unload it first"
  | .sessionNotFound id => "session not found: " ++ id
  | .scriptNotFound name => "script not found: " ++ name
  | .inactive id => "session '" ++ id ++ "' is not active"

structure Session where
  id : String
  scripts : List Script
  context : Context
  active : Bool
deriving Repr

abbrev Bundle := List (String × String)

-- A session at work, with the state that all sessions share.
structure SessionState where
  session : Session
  world : World
deriving Repr

-- Work in a session: it ends with a value or is refused, and keeps what it changed either way.
abbrev SessionWork (α : Type) := ExceptT SessionError (StateM SessionState) α

namespace Session

def checkNames : (seen : List String) → List String → Except SessionError Unit
  | _, [] => .ok ()
  | seen, name :: rest =>
    if name.isEmpty then .error .emptyScriptName
    else if seen.contains name then .error (.duplicateScript name)
    else checkNames (name :: seen) rest

def seed (context : Context) (script : Script) : Context :=
  script.fields.foldl (fun context field => context.set field.name field.value) context

def load (id : String) (bundle : Bundle) : Except SessionError Session := do
  if bundle.isEmpty then throw .emptyBundle
  checkNames [] (bundle.map Prod.fst)
  let scripts := bundle.map fun (name, text) => Script.ofText name text
  return { id, scripts, context := scripts.foldl seed Context.empty, active := true }

def scriptNames (session : Session) : List String :=
  session.scripts.map Script.name

def checkActive (session : Session) : Except SessionError Unit :=
  if session.active then .ok () else .error (.inactive session.id)

def script (session : Session) (name : String) : Except SessionError Script :=
  match session.scripts.find? fun script => script.name == name with
  | some script => .ok script
  | none => .error (.scriptNotFound name)

def commands (session : Session) (name : String) : Except SessionError (List String) := do
  session.checkActive
  return (← session.script name).commands

-- Runs commands on the variables of the session and on the shared state.
def onState {α : Type} (run : State → α × State) : SessionWork α := do
  let found ← get
  let (result, final) := run ⟨found.session.context, found.world⟩
  set (SessionState.mk { found.session with context := final.context } final.world)
  return result

def execute (tree : Tree Operation) (text : String) : SessionWork Outcome := do
  (← get).session.checkActive
  onState (State.execute tree text)

def runScript (tree : Tree Operation) (script : Script) : SessionWork (List Outcome) :=
  onState (State.executeAll tree script.commands)

def executeScript (tree : Tree Operation) (name : String) : SessionWork (List Outcome) := do
  let session := (← get).session
  session.checkActive
  let script ← session.script name
  runScript tree script

def executeAll (tree : Tree Operation) : SessionWork (List Outcome) := do
  let session := (← get).session
  session.checkActive
  List.flatten <$> session.scripts.mapM (runScript tree)

def setVariable (name : String) (value : Value) : SessionWork Unit := do
  let found ← get
  found.session.checkActive
  set { found with session := { found.session with context := found.session.context.set name value } }

def unload (session : Session) : Session :=
  if session.active then
    { session with scripts := [], context := Context.empty, active := false }
  else session

def deactivate : SessionWork Unit :=
  modify fun found => { found with session := found.session.unload }

end Session

end CommandScript
