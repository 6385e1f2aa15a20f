import CommandScript.Journal
import CommandScript.Program.Run

/-!
# The process

The program as its caller sees it: arguments are bytes, and what is logged goes to the standard error
before the lines in which the program itself complains. An argument that is no text makes it crash
before it does anything.
-/

set_option autoImplicit false

namespace CommandScript

def Script.steps (script : Script) : List Step :=
  script.commands.map fun line => ⟨some script.name, line⟩

namespace Program

-- The commands that a job runs unless it is refused.
def Job.steps : Job → List Step
  | .command text => [⟨none, text⟩]
  | .inSession _ text => [⟨some "<inline>", text⟩]
  | .script session name =>
    match session.script name with
    | .ok found => found.steps
    | .error _ => []
  | .everything session => session.scripts.flatMap Script.steps

-- The variables and the shared state with which the first of them runs.
def Job.start : Job → State
  | .command _ => State.initial
  | .inSession session _ | .script session _ | .everything session =>
    ⟨session.context, World.initial⟩

-- How the process ends: its exit code and what it wrote.
structure Ended where
  code : Nat
  stdout : String
  stderr : String
deriving DecidableEq, Repr

def Exit.after (exit : Exit) (log : String) : Ended :=
  ⟨exit.code, exit.stdout, log ++ String.join (exit.complaints.map (· ++ "\n"))⟩

namespace Plan

def loading (plan : Plan) : List Log.Notice :=
  if plan.bundle.isEmpty then [] else Session.loadNotices sessionId plan.bundle

-- What is logged when the plan is carried out.
def log (plan : Plan) : List Log.Notice :=
  (plan.loading ++ plan.job.start.journal sessionId plan.job.steps).filterMap
    (Log.Notice.written? plan.options.debug)

def carryOut (plan : Plan) (write : Log.Writer) (colored : Bool) : Ended :=
  (conclude colored (plan.job.run Catalog.tree)).after (write.text plan.log)

end Plan

-- The texts of the arguments, or the first argument that is none.
def readArguments : List (List UInt8) → Except (List UInt8) (List String)
  | [] => .ok []
  | argument :: rest =>
    match Text.Utf8.decode argument with
    | .error _ => .error argument
    | .ok text =>
      match readArguments rest with
      | .error unreadable => .error unreadable
      | .ok texts => .ok (String.ofList text :: texts)

def crashCode : Nat :=
  101

def crashed (write : Log.Writer) (argument : List UInt8) : Ended :=
  ⟨crashCode, "", write.text [.unreadable argument]⟩

def launch {m : Type → Type} [Monad m] (environment : Environment m) (write : Log.Writer)
    (colored : Bool) (arguments : List (List UInt8)) : m Ended := do
  match readArguments arguments with
  | .error argument => return crashed write argument
  | .ok texts =>
    match ← prepare environment texts with
    | .error exit => return exit.after ""
    | .ok plan => return plan.carryOut write colored

end Program

end CommandScript
