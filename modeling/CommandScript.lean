import CommandScript.Main
import CommandScript.Proofs.Component.History
import CommandScript.Proofs.Frame
import CommandScript.Proofs.Registry.Consistency
import CommandScript.Proofs.Registry.Implementation
import CommandScript.Proofs.Session.Isolation
import CommandScript.Proofs.Tree.Paths
import CommandScript.Proofs.Registry.Assignability
import CommandScript.Proofs.Registry.Growth
import CommandScript.Proofs.Command.NormalForm
import CommandScript.Proofs.Session.Lifecycle
import CommandScript.Proofs.Closed
import CommandScript.Proofs.Session.Closure
import CommandScript.Proofs.Component.Typing
import CommandScript.Proofs.Program.Ending
import CommandScript.Proofs.Command.Segment
import CommandScript.Proofs.Command.SoleArgument
import CommandScript.Proofs.Tree.Building
import CommandScript.Proofs.Tree.Routing
import CommandScript.Proofs.Registry.Defaults
import CommandScript.Proofs.Registry.Subclassing
import CommandScript.Proofs.Session.Scripts
import CommandScript.Proofs.Component.Display
import CommandScript.Proofs.Stopping
import CommandScript.Proofs.Command.FloatText
import CommandScript.Proofs.Component.Apart
import CommandScript.Proofs.FiniteResults
import CommandScript.Proofs.Creation
import CommandScript.Proofs.Command.IntegerText
import CommandScript.Proofs.Script.Lines
import CommandScript.Proofs.Script.Markers
import CommandScript.Proofs.Command.Substitution
import CommandScript.Proofs.Program.ScriptFiles
import CommandScript.Proofs.Program.Spelling
import CommandScript.Proofs.Program.StandardInput
import CommandScript.Proofs.Script.Seeding
import CommandScript.Proofs.Program.Log
