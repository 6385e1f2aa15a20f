import CommandScript.Proofs.Frame
import CommandScript.Proofs.Program.Log
import CommandScript.Proofs.Session.Requests
import CommandScript.Proofs.Text.Encoding

set_option autoImplicit false

namespace CommandScript

namespace State

-- The texts that commands write, one for each, in the order in which they run.
inductive Writes : State → List String → List String → Prop where
  | nothing (state : State) : Writes state [] []
  | command (state : State) (line : String) (rest : List String) (text : String) (texts : List String)
      (wrote : (state.execute Catalog.tree line).2.world.output = state.world.output.write text)
      (later : Writes (state.execute Catalog.tree line).2 rest texts) : Writes state (line :: rest) (text :: texts)

theorem execute_writes (line : String) (state : State) :
    ∃ text, (state.execute Catalog.tree line).2.world.output = state.world.output.write text := by
  rw [execute]
  exact (execute_with_framed state none line).appended

theorem execute_all_writes (lines : List String) (state : State) : ∃ texts, Writes state lines texts := by
  induction lines generalizing state with
  | nil => exact ⟨[], .nothing state⟩
  | cons line rest ih =>
    obtain ⟨text, wrote⟩ := execute_writes line state
    obtain ⟨texts, later⟩ := ih (state.execute Catalog.tree line).2
    exact ⟨text :: texts, .command state line rest text texts wrote later⟩

theorem Writes.output {state : State} {lines texts : List String} (writes : Writes state lines texts) (before : String)
    (kept : state.world.output = .kept before) :
    (state.executeAll Catalog.tree lines).2.world.output = .kept (before ++ String.join texts) := by
  induction writes generalizing before with
  | nothing state => rw [executeAll, kept, String.join_nil, String.append_empty]
  | command state line rest text texts wrote later ih =>
    rw [execute_all_cons, ih (before ++ text) (by rw [wrote, kept, Output.write]), String.join_cons, String.append_assoc]

theorem execute_all_commands (tree : Tree Operation) (lines : List String) (state : State) :
    (state.executeAll tree lines).1.map Outcome.command = lines.map Text.trimmed := by
  induction lines generalizing state with
  | nil => rfl
  | cons line rest ih => rw [execute_all_cons, List.map_cons, List.map_cons, ih, execute, execute_with_run]

end State

namespace Program

def Job.lines (job : Job) : List String :=
  job.steps.map Step.line

theorem script_lines (script : Script) : script.steps.map Step.line = script.commands := by
  rw [Script.steps, List.map_map]
  exact List.map_id _

-- A job is refused whatever the operations are, and has changed nothing then, or it runs its commands.
inductive Job.Runs (job : Job) : Prop where
  | refused (error : SessionError) (ends : ∀ tree, job.run tree = (.error error, World.initial))
  | ran (ends : ∀ tree, job.run tree =
      (.ok (job.start.executeAll tree job.lines).1, (job.start.executeAll tree job.lines).2.world))

theorem start_with_performs (session : Session) (tree : Tree Operation) (request : Session.Request) :
    startWith session (request.work tree) =
      ((session.perform tree World.initial request).1, (session.perform tree World.initial request).2.world) := by
  rw [startWith, Session.perform]
  generalize (request.work tree).run ⟨session, World.initial⟩ = ended
  rfl

-- A job in a session is a request to it that runs commands.
theorem Job.runs_request (job : Job) (session : Session) (request : Session.Request) (lines : job.lines = session.linesOf request)
    (start : job.start = ⟨session.context, World.initial⟩) (works : ∀ tree, job.run tree = startWith session (request.work tree))
    (setting : ∀ name value, request ≠ .setVariable name value) (ending : request ≠ .unload) : job.Runs := by
  cases session.performs request with
  | refused error ends => exact .refused error fun tree => by rw [works, start_with_performs, ends]
  | ran active ends => exact .ran fun tree => by rw [works, start_with_performs, ends, lines, start, Session.runLines]
  | bound active name value asked ends => exact absurd asked (setting name value)
  | unloaded asked ends => exact absurd asked ending

theorem Job.runs (job : Job) : job.Runs := by
  cases job with
  | command text =>
    refine .ran fun tree => ?_
    rw [run, start, lines, steps, List.map_singleton, State.execute_all_cons, State.executeAll]
  | inSession session text =>
    refine runs_request _ session (.execute text) rfl rfl (fun tree => ?_) (by simp) (by simp)
    rw [run, map_eq_pure_bind]
    rfl
  | script session name =>
    have same : (Job.script session name).lines = session.linesOf (.executeScript name) := by
      rw [lines, steps, Session.linesOf]
      cases session.script name with
      | ok script => exact script_lines script
      | error error => rfl
    exact runs_request _ session (.executeScript name) same rfl (fun tree => rfl) (by simp) (by simp)
  | everything session =>
    have same : (Job.everything session).lines = session.linesOf .executeAll := by
      rw [lines, steps, List.map_flatMap, Session.linesOf]
      simp only [script_lines]
    exact runs_request _ session .executeAll same rfl (fun tree => rfl) (by simp) (by simp)

-- What a command line may come to before anything runs.
inductive Prepares (arguments : List String) : Except Exit Plan → Prop where
  | refused (message : String) (rest : List String) : Prepares arguments (.error ⟨1, "", complaint message :: rest⟩)
  | listed (options : Options) (parsed : Options.parse arguments = .ok options) (asked : options.list = true) :
      Prepares arguments (.error (listing Catalog.tree))
  | planned (plan : Plan) (parsed : Options.parse arguments = .ok plan.options) (unasked : plan.options.list = false) :
      Prepares arguments (.ok plan)

theorem prepare_cases (environment : Environment Id) (arguments : List String) :
    Prepares arguments (prepare environment arguments) := by
  unfold prepare
  cases parsed : Options.parse arguments with
  | error error => exact .refused error.message [usage]
  | ok options =>
    cases asked : options.list with
    | true =>
      simp only [asked]
      exact .listed options parsed asked
    | false =>
      simp only [asked, Bool.false_eq_true, if_false]
      generalize gather environment options = gathered
      cases gathered with
      | error text => exact .refused text []
      | ok bundle =>
        simp only [bind]
        cases Job.plan options bundle with
        | error error => exact .refused error.message []
        | ok job => exact .planned ⟨options, bundle, job⟩ parsed asked

theorem run_prepared (environment : Environment Id) (colored : Bool) (arguments : List String) :
    run environment colored arguments =
      match prepare environment arguments with
      | .error exit => exit
      | .ok plan => conclude colored (plan.job.run Catalog.tree) := by
  unfold run
  generalize prepare environment arguments = prepared
  rcases prepared with exit | plan <;> rfl

theorem run_planned (environment : Environment Id) (colored : Bool) (arguments : List String) (plan : Plan)
    (prepared : prepare environment arguments = .ok plan) :
    run environment colored arguments = conclude colored (plan.job.run Catalog.tree) := by
  rw [run_prepared, prepared]

-- The arguments are the bytes of texts.
def Reads (arguments : List (List UInt8)) (texts : List String) : Prop :=
  List.Forall₂ (fun argument text => Text.Utf8.decode argument = .ok text.toList) arguments texts

theorem read_arguments_ok (arguments : List (List UInt8)) (texts : List String) (read : readArguments arguments = .ok texts) :
    Reads arguments texts := by
  induction arguments generalizing texts with
  | nil =>
    obtain rfl := Except.ok.inj read
    exact .nil
  | cons argument rest ih =>
    rw [readArguments] at read
    cases decoded : Text.Utf8.decode argument with
    | error fault => simp [decoded] at read
    | ok own =>
      cases later : readArguments rest with
      | error unreadable => simp [decoded, later] at read
      | ok others =>
        simp only [decoded, later, Except.ok.injEq] at read
        subst read
        exact .cons (by rw [decoded, String.toList_ofList]) (ih others later)

theorem read_arguments_error (arguments : List (List UInt8)) (argument : List UInt8)
    (unread : readArguments arguments = .error argument) :
    argument ∈ arguments ∧ ∃ fault, Text.Utf8.decode argument = .error fault := by
  induction arguments with
  | nil => cases unread
  | cons first rest ih =>
    rw [readArguments] at unread
    cases decoded : Text.Utf8.decode first with
    | error fault =>
      simp only [decoded, Except.error.injEq] at unread
      exact unread ▸ ⟨List.mem_cons_self, fault, decoded⟩
    | ok text =>
      cases later : readArguments rest with
      | ok texts => simp [decoded, later] at unread
      | error unreadable =>
        simp only [decoded, later, Except.error.injEq] at unread
        obtain ⟨listed, bad⟩ := ih (unread ▸ later)
        exact ⟨List.mem_cons_of_mem _ listed, bad⟩

-- An argument is no text: the program crashes, whatever else there is.
structure Crashes (write : Log.Writer) (arguments : List (List UInt8)) (ended : Ended) : Prop where
  unread : ∃ argument ∈ arguments, ∃ fault, Text.Utf8.decode argument = .error fault
  code : ended.code = 101
  silent : ended.stdout = ""
  quiet : ¬ Complains ended.stderr
  idle : ∀ (environment : Environment Id) (colored : Bool), launch environment write colored arguments = ended

-- The program refuses: it says why after what it logged, and nothing was run.
structure Refuses (environment : Environment Id) (write : Log.Writer) (arguments : List String) (ended : Ended) : Prop where
  code : ended.code = 1
  silent : ended.stdout = ""
  complains : Complains ended.stderr
  own : ∃ log message rest, ended.stderr = write.text log ++ (complaint message ++ "\n" ++ rest)
  idle : ∀ plan, prepare environment arguments = .ok plan → ∃ error, ∀ tree, plan.job.run tree = (.error error, World.initial)

-- The program lists its operations, because it was asked to.
structure Lists (arguments : List String) (ended : Ended) : Prop where
  asked : ∃ options, Options.parse arguments = .ok options ∧ options.list = true
  code : ended.code = 0
  quiet : ended.stderr = ""

-- The program runs the commands of a job: it prints what they write, each in its turn, and then one
-- line for each. Besides that it only logs, and a line of the log is a complaint only to the eye.
structure Reports (environment : Environment Id) (write : Log.Writer) (colored : Bool) (arguments : List String) (ended : Ended)
    (plan : Plan) (outcomes : List Outcome) (final : State) (texts : List String) : Prop where
  prepared : prepare environment arguments = .ok plan
  unasked : Options.parse arguments = .ok plan.options ∧ plan.options.list = false
  ran : State.executeAll Catalog.tree plan.job.lines plan.job.start = (outcomes, final)
  answered : outcomes.map Outcome.command = plan.job.lines.map Text.trimmed
  wrote : plan.job.start.Writes plan.job.lines texts
  code : ended.code = if outcomes.all Outcome.succeeded then 0 else 1
  stdout : ended.stdout = String.join texts ++ String.join (outcomes.map (Report.line colored final.world.store))
  stderr : ended.stderr = write.text plan.log
  quiet : (∀ notice ∈ plan.log, notice.Unbroken) → ¬ Complains ended.stderr

theorem failures_none_iff (outcomes : List Outcome) : Report.failures outcomes = 0 ↔ outcomes.all Outcome.succeeded = true := by
  rw [Report.failures, List.countP_eq_zero, List.all_eq_true]
  simp

theorem job_start_output (job : Job) : job.start.world.output = .kept "" := by
  cases job <;> rfl

theorem launch_prepared (environment : Environment Id) (write : Log.Writer) (colored : Bool) (arguments : List (List UInt8))
    (texts : List String) (read : readArguments arguments = .ok texts) :
    (∀ exit, prepare environment texts = .error exit → launch environment write colored arguments = exit.after "") ∧
      ∀ plan, prepare environment texts = .ok plan → launch environment write colored arguments = plan.carryOut write colored := by
  simp only [launch, read]
  generalize prepare environment texts = prepared
  constructor <;> rintro _ rfl <;> rfl

-- The log takes no part in what is printed or in the exit code: without it the process ends as the run does.
theorem launch_runs (environment : Environment Id) (write : Log.Writer) (colored : Bool) (arguments : List (List UInt8))
    (texts : List String) (read : readArguments arguments = .ok texts) :
    ∃ log, launch environment write colored arguments = (run environment colored texts).after log := by
  obtain ⟨refused, planned⟩ := launch_prepared environment write colored arguments texts read
  rw [run_prepared]
  cases prepared : prepare environment texts with
  | error exit => exact ⟨"", refused exit prepared⟩
  | ok plan =>
    refine ⟨write.text plan.log, ?_⟩
    rw [planned plan prepared, Plan.carryOut]

theorem launch_crashes (environment : Environment Id) (write : Log.Writer) (lawful : write.Lawful) (colored : Bool)
    (arguments : List (List UInt8)) (argument : List UInt8) (unread : readArguments arguments = .error argument) :
    Crashes write arguments (launch environment write colored arguments) := by
  have ends (other : Environment Id) (own : Bool) : launch other write own arguments = crashed write argument := by
    unfold launch
    rw [unread]
    rfl
  rw [ends]
  refine ⟨⟨argument, read_arguments_error arguments argument unread⟩, rfl, rfl, ?_, ends⟩
  refine lawful.text_quiet _ (fun notice listed => ?_) fun report listed => ?_
  · rw [List.mem_singleton.mp listed]
    exact fun text never => absurd never List.not_mem_nil
  · cases List.mem_singleton.mp listed

theorem complaint_complains (message : String) : Complains (complaint message) := by
  have begins : (complaint message).toList = "sfscript:".toList ++ ' ' :: message.toList := by
    simp [complaint]
  rw [Complains, begins]
  exact Text.pieces_begin '\n' _ _ (by decide)

-- A refusal is written after the log, on a line of its own.
theorem refusal_refuses (environment : Environment Id) (write : Log.Writer) (lawful : write.Lawful) (arguments : List String)
    (log : List Log.Notice) (message : String) (others : List String)
    (idle : ∀ plan, prepare environment arguments = .ok plan → ∃ error, ∀ tree, plan.job.run tree = (.error error, World.initial)) :
    Refuses environment write arguments ((Exit.mk 1 "" (complaint message :: others)).after (write.text log)) := by
  have written : ((Exit.mk 1 "" (complaint message :: others)).after (write.text log)).stderr =
      write.text log ++ (complaint message ++ "\n" ++ String.join (others.map (· ++ "\n"))) := by
    rw [Exit.after, List.map_cons, String.join_cons]
  refine ⟨rfl, rfl, ?_, ⟨log, message, _, written⟩, idle⟩
  rw [written]
  exact lawful.complains_after log _ ((complains_lines _ _).mpr (.inl (complaint_complains message)))

theorem carry_out_reports (environment : Environment Id) (write : Log.Writer) (lawful : write.Lawful) (colored : Bool)
    (arguments : List String) (plan : Plan) (prepared : prepare environment arguments = .ok plan)
    (unasked : Options.parse arguments = .ok plan.options ∧ plan.options.list = false)
    (ends : plan.job.run Catalog.tree =
      (.ok (plan.job.start.executeAll Catalog.tree plan.job.lines).1, (plan.job.start.executeAll Catalog.tree plan.job.lines).2.world)) :
    ∃ outcomes final texts, Reports environment write colored arguments (plan.carryOut write colored) plan outcomes final texts := by
  obtain ⟨texts, wrote⟩ := State.execute_all_writes plan.job.lines plan.job.start
  have written := wrote.output "" (job_start_output plan.job)
  have answered := State.execute_all_commands Catalog.tree plan.job.lines plan.job.start
  have quiet := plan.log_quiet write lawful
  rw [Plan.carryOut, ends]
  rcases ran : plan.job.start.executeAll Catalog.tree plan.job.lines with ⟨outcomes, final⟩
  rw [ran] at written answered
  have left : final.world.output = .kept (String.join texts) := by simpa using written
  have logged : write.text plan.log ++ String.join [] = write.text plan.log := by rw [String.join_nil, String.append_empty]
  refine ⟨outcomes, final, texts, prepared, unasked, ran, answered, wrote, ?_, ?_, logged, fun unbroken => ?_⟩
  · simp only [conclude, Exit.after, failures_none_iff]
  · simp only [conclude, Exit.after, left, Output.contents, Report.text]
  · change ¬ Complains (write.text plan.log ++ String.join [])
    rw [logged]
    exact quiet unbroken

-- A program that reads a text from its standard input and finds no files.
def piped (text : String) : Environment Id :=
  (Disk.mk (.directory []) []).environment (some (Text.bytes text)) none none

def stamped : Log.Writer :=
  Log.Writer.standard fun _ => "2026-01-01T00:00:00.000000Z"

-- A line that begins like a complaint comes with the code of a failure and nothing printed, and without such a line the code
-- is that of a success or of a failure.
def EndsByItsLines (ended : Ended) : Prop :=
  Complains ended.stderr ∧ ended.code = 1 ∧ ended.stdout = "" ∨ ¬ Complains ended.stderr ∧ (ended.code = 0 ∨ ended.code = 1)

instance (ended : Ended) : Decidable (EndsByItsLines ended) :=
  inferInstanceAs (Decidable (Complains ended.stderr ∧ ended.code = 1 ∧ ended.stdout = "" ∨
    ¬ Complains ended.stderr ∧ (ended.code = 0 ∨ ended.code = 1)))

def warned : Ended :=
  (launch (piped "Engine.Debug.LogWarning('a\\nsfscript: b')\n") stamped false []).run

def misspelled : Ended :=
  (launch (piped "") stamped false [[0xFF]]).run

end Program

end CommandScript
