import CommandScript.Proofs.Program.Ending
import CommandScript.Proofs.Program.Files
import CommandScript.Proofs.Program.Spelling
import CommandScript.Proofs.Script.Lines
import CommandScript.Proofs.Session.Lifecycle
import CommandScript.Proofs.Text.Encoding

set_option autoImplicit false

namespace CommandScript

-- The text that is read from the standard input: every line ends with a line feed alone.
def Text.ended (text : String) : String :=
  String.ofList ((lines text.toList).flatMap (· ++ ['\n']))

theorem Script.numbered_ended (text : String) : numberedLines (Text.ended text) = numberedLines text := by
  rw [numberedLines, Text.ended, String.toList_ofList, Text.lines_ended, numberedLines]
  simp only [List.mapIdx_eq_zipIdx_map, List.zipIdx_map, List.map_map, Function.comp_def, Prod.map, Line.classify_return, id]

theorem Script.same_by_lines (first second name other : String) (same : numberedLines first = numberedLines second) :
    markerErrors first = markerErrors second ∧ (ofText name first).commands = (ofText other second).commands ∧
      (ofText name first).fields = (ofText other second).fields := by
  simp only [ofText, markerErrors, same, and_self]

-- What a script that is alone in its session comes to.
def Script.runAlone (tree : Tree Operation) (script : Script) : Except SessionError (List Outcome) × World :=
  let (outcomes, final) := State.executeAll tree script.commands ⟨Session.seed Context.empty script, World.initial⟩
  (.ok outcomes, final.world)

theorem Script.run_alone_by_parts (tree : Tree Operation) (first second : Script) (commands : first.commands = second.commands)
    (fields : first.fields = second.fields) : first.runAlone tree = second.runAlone tree := by
  rw [runAlone, runAlone, commands, Session.seed, Session.seed, fields]

namespace Program

theorem text_of_input (text : String) : textOfInput (Text.bytes text) = .ok (Text.ended text) := by
  rw [textOfInput, Text.bytes_encoded, Text.byte_lines_encoded, Text.decode_lines]
  rfl

theorem text_of_file (text : String) : textOfFile (.ok (Text.bytes text)) = .ok text := by
  rw [textOfFile, Text.bytes_encoded, Text.Utf8.decode_encoded]
  exact congrArg Except.ok String.ofList_toList

theorem expand_file (environment : Environment Id) (path : String) (single : (environment.isDirectory path).run = false) :
    (expandInputs environment [path]).run = .ok [path] := by
  simp [expandInputs, single]

theorem read_file (environment : Environment Id) (path text : String)
    (read : (environment.read path).run = .ok (Text.bytes text)) :
    (readScripts environment [path]).run = .ok [(Path.scriptName path, text)] := by
  simp [readScripts, read, text_of_file]

theorem gather_file (environment : Environment Id) (options : Options) (path text : String) (asked : options.inputs = [path])
    (single : (environment.isDirectory path).run = false) (read : (environment.read path).run = .ok (Text.bytes text)) :
    (gather environment options).run = .ok [(Path.scriptName path, text)] := by
  have inputs : (findInputs environment options).run = [path] := by
    simp [findInputs, asked]
  simp [gather, inputs, expand_file environment path single, read_file environment path text read]

theorem gather_input (environment : Environment Id) (text : String) (given : environment.input.run = some (Text.bytes text))
    (unscripted : (environment.isDirectory (findScriptDir environment {}).run).run = false) :
    (gather environment {}).run = .ok [("stdin", Text.ended text)] := by
  have inputs : (findInputs environment {}).run = [] := by
    simp [findInputs, unscripted]
  simp [gather, inputs, expandInputs, readScripts, given, text_of_input]

theorem plan_script (options : Options) (name text : String) (plain : options.command = none ∧ options.script = none)
    (named : name ≠ "") :
    ∃ job, Job.plan options [(name, text)] = .ok job ∧ ∀ tree, job.run tree = (Script.ofText name text).runAlone tree := by
  have distinct : Session.Distinct ([(name, text)].map Prod.fst) :=
    ⟨List.cons_ne_nil _ _, List.forall_mem_singleton.mpr named, List.nodup_singleton name⟩
  obtain ⟨session, loaded⟩ := Session.distinct_loads sessionId [(name, text)] distinct
  have planned : Job.plan options [(name, text)] = .ok (.everything session) := by
    unfold Job.plan
    rw [loaded, plain.1, plain.2]
    rfl
  refine ⟨_, planned, fun tree => ?_⟩
  have made := Session.load_made sessionId [(name, text)] session loaded
  have active : session.active = true := by rw [made]
  have commands : session.scripts.flatMap Script.commands = (Script.ofText name text).commands := by
    rw [made]
    exact List.append_nil _
  rw [Job.run, startWith, Session.execute_all_run session tree _ active, Session.run_scripts_run, commands, made]
  rfl

theorem prepare_gathered (environment : Environment Id) (arguments : List String) (options : Options) (bundle : Bundle)
    (job : Job) (parsed : Options.parse arguments = .ok options) (unlisted : options.list = false)
    (gathered : (gather environment options).run = .ok bundle) (planned : Job.plan options bundle = .ok job) :
    (prepare environment arguments).run = .ok { options, bundle, job } := by
  simp [prepare, parsed, unlisted, gathered, planned]

theorem run_gathered (environment : Environment Id) (colored : Bool) (arguments : List String) (options : Options)
    (name text : String) (parsed : Options.parse arguments = .ok options) (unlisted : options.list = false)
    (plain : options.command = none ∧ options.script = none)
    (gathered : (gather environment options).run = .ok [(name, text)]) (named : name ≠ "") :
    run environment colored arguments = conclude colored ((Script.ofText name text).runAlone Catalog.tree) := by
  obtain ⟨job, planned, ends⟩ := plan_script options name text plain named
  have prepared := prepare_gathered environment arguments options _ job parsed unlisted gathered planned
  rw [run_planned environment colored arguments _ prepared, ends]

-- A text does the same on the standard input as in a file, line by line.
theorem input_runs_as_file (text : String) (piped : Environment Id) (given : piped.input.run = some (Text.bytes text))
    (unscripted : (piped.isDirectory (findScriptDir piped {}).run).run = false) (disk : Disk) (input : Option (List UInt8))
    (scriptDir userScriptDir : Option String) (path : String) (bare : Options.IsBare path)
    (found : disk.find path = .found (.file (Text.bytes text))) :
    (∀ colored, (run piped colored []).run = (run (disk.environment input scriptDir userScriptDir) colored [path]).run) ∧
      ∃ options first name, (gather piped {}).run = .ok [("stdin", first)] ∧ Options.parse [path] = .ok options ∧
        (gather (disk.environment input scriptDir userScriptDir) options).run = .ok [(name, text)] ∧
        Script.numberedLines first = Script.numberedLines text ∧ Script.markerErrors first = Script.markerErrors text ∧
        (Script.ofText "stdin" first).commands = (Script.ofText name text).commands ∧
        (Script.ofText "stdin" first).fields = (Script.ofText name text).fields := by
  obtain ⟨single, read⟩ := disk.file_seen input scriptDir userScriptDir path _ found
  obtain ⟨name, known, filled⟩ := disk.find_file_name path _ found
  have named := Path.script_name_filled path name known filled
  have parsed : Options.parse [path] = .ok (({} : Options).add (.input path)) :=
    Options.read_from_bare {} [] path bare
  have fromInput := gather_input piped text given unscripted
  have fromFile := gather_file _ (({} : Options).add (.input path)) path text rfl single read
  have same := Script.numbered_ended text
  obtain ⟨errors, commands, fields⟩ := Script.same_by_lines _ _ "stdin" (Path.scriptName path) same
  refine ⟨fun colored => ?_, _, _, _, fromInput, parsed, fromFile, same, errors, commands, fields⟩
  have first := run_gathered piped colored [] {} "stdin" (Text.ended text) rfl rfl ⟨rfl, rfl⟩ fromInput (by decide)
  have second := run_gathered _ colored [path] _ (Path.scriptName path) text parsed rfl ⟨rfl, rfl⟩ fromFile named
  rw [Id.run, Id.run, first, second, Script.run_alone_by_parts Catalog.tree _ _ commands fields]

-- A text with a return that stays in its line, one that stands alone, a line feed without one, and no line feed at the end.
def mixedLines : String :=
  "System.Console.Write(1)\r\r\n\r// @field:int n = 2\n// @field: n\r\nSystem.Console.Write($n)"

def noteDisk (text : String) : Disk :=
  ⟨.directory [("note.txt", .file (Text.bytes text))], []⟩

theorem mixed_lines_run_alike :
    Text.ended mixedLines = "System.Console.Write(1)\r\n\r// @field:int n = 2\n// @field: n\nSystem.Console.Write($n)\n" ∧
      ∀ colored, (run ((noteDisk "").environment (some (Text.bytes mixedLines)) none none) colored []).run =
        (run ((noteDisk mixedLines).environment none none none) colored ["note.txt"]).run :=
  ⟨by decide +kernel,
    (input_runs_as_file mixedLines _ rfl rfl (noteDisk mixedLines) none none none "note.txt" (.inr (by decide)) rfl).1⟩

end Program

end CommandScript
