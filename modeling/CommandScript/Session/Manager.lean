import CommandScript.Session.Basic

/-!
# The keeper of sessions

Sessions are kept by their ids. Each has variables of its own; all share one tree of operations, one
registry, one store of components and one output. A request that is refused leaves whatever it had
changed by then.
-/

set_option autoImplicit false

namespace CommandScript

structure Manager where
  sessions : Table Session
  world : World
deriving Repr

-- Work of the keeper: it ends with a value or is refused, and keeps what it changed either way.
abbrev ManagerWork (α : Type) := ExceptT SessionError (StateM Manager) α

namespace Manager

def initial : Manager :=
  ⟨[], World.initial⟩

def get? (manager : Manager) (id : String) : Option Session :=
  manager.sessions.find? id

def isLoaded (manager : Manager) (id : String) : Bool :=
  manager.sessions.has id

def ids (manager : Manager) : List String :=
  manager.sessions.keys

def size (manager : Manager) : Nat :=
  manager.sessions.length

def store (manager : Manager) (session : Session) : Manager :=
  { manager with sessions := manager.sessions.put session.id session }

def find (manager : Manager) (id : String) : Except SessionError Session :=
  match manager.get? id with
  | some session => .ok session
  | none => .error (.sessionNotFound id)

def update (manager : Manager) (session : Session) (world : World) : Manager :=
  { manager.store session with world }

def load (id : String) (bundle : Bundle) : ManagerWork Unit := do
  if (← get).isLoaded id then throw (.duplicateSession id)
  let session ← Session.load id bundle
  modify fun manager => manager.store session

def loadText (name text : String) : ManagerWork Unit := do
  if name.isEmpty then throw .emptyScriptName
  if Text.allBlank text.toList then throw (.emptyScript name)
  load name [(name, text)]

def unload (id : String) : ManagerWork Unit := do
  if !(← get).isLoaded id then throw (.sessionNotFound id)
  modify fun manager => { manager with sessions := manager.sessions.drop id }

def unloadAll : ManagerWork Unit :=
  modify fun manager => { manager with sessions := [] }

-- Work in one session: what it leaves of the session is kept, also if it was refused.
def inSession {α : Type} (id : String) (work : SessionWork α) : ManagerWork α := do
  let manager ← get
  let session ← manager.find id
  let (result, left) := work.run ⟨session, manager.world⟩
  set (manager.update left.session left.world)
  result

def execute (tree : Tree Operation) (id text : String) : ManagerWork Outcome :=
  inSession id (Session.execute tree text)

def executeScript (tree : Tree Operation) (id name : String) : ManagerWork (List Outcome) :=
  inSession id (Session.executeScript tree name)

def executeAll (tree : Tree Operation) (id : String) : ManagerWork (List Outcome) :=
  inSession id (Session.executeAll tree)

def setVariable (id name : String) (value : Value) : ManagerWork Unit :=
  inSession id (Session.setVariable name value)

-- Unloads a session and keeps it, so that its id stays taken.
def deactivate (id : String) : ManagerWork Unit :=
  inSession id Session.deactivate

end Manager

end CommandScript
