import CommandScript.Program.Launch
import CommandScript.Proofs.Number
import CommandScript.Proofs.Stopping
import CommandScript.Proofs.Text

set_option autoImplicit false

namespace CommandScript

-- A text on one line.
def Text.Flat (text : String) : Prop :=
  '\n' ∉ text.toList

instance (text : String) : Decidable (Text.Flat text) :=
  inferInstanceAs (Decidable ('\n' ∉ text.toList))

theorem Text.flat_append (first second : String) : Flat (first ++ second) ↔ Flat first ∧ Flat second := by
  simp [Flat]

theorem Text.flat_join (texts : List String) : Flat (String.join texts) ↔ ∀ text ∈ texts, Flat text := by
  simp [Flat, String.toList_join]

theorem Text.flat_listed (separator : String) (texts : List String) (between : Flat separator) (each : ∀ text ∈ texts, Flat text) :
    Flat (separator.intercalate texts) := by
  induction texts with
  | nil => exact List.not_mem_nil
  | cons text rest ih =>
    have later := ih fun other listed => each other (List.mem_cons_of_mem _ listed)
    have first := each text List.mem_cons_self
    cases rest with
    | nil => simpa using first
    | cons next others =>
      rw [String.intercalate_cons_cons, flat_append, flat_append]
      exact ⟨⟨first, between⟩, later⟩

theorem Number.integer_text_flat (n : Nat) : Text.Flat (integerText n) := by
  intro within
  have digits := (Bool.and_eq_true_iff.mp (digits_of_digits n)).2
  exact absurd (List.all_eq_true.mp digits '\n' (by simpa [integerText] using within)) (by decide)

-- Some line of a text begins as the program begins its complaints.
def Complains (text : String) : Prop :=
  ∃ line ∈ Text.pieces '\n' text.toList, "sfscript:".toList <+: line

instance (text : String) : Decidable (Complains text) :=
  inferInstanceAs (Decidable (∃ line ∈ Text.pieces '\n' text.toList, "sfscript:".toList <+: line))

theorem complains_lines (first second : String) : Complains (first ++ "\n" ++ second) ↔ Complains first ∨ Complains second := by
  have feed : (first ++ "\n" ++ second).toList = first.toList ++ '\n' :: second.toList := by simp
  simp only [Complains, feed, Text.pieces_join, List.mem_append, or_and_right, exists_or]

theorem complains_empty : ¬ Complains "" := by
  decide

theorem complains_ended (text : String) : Complains (text ++ "\n") ↔ Complains text := by
  have lines := complains_lines text ""
  rwa [String.append_empty, or_iff_left complains_empty] at lines

theorem complains_single (text : String) (single : Text.Flat text) : Complains text ↔ "sfscript:".toList <+: text.toList := by
  rw [Complains, Text.pieces_single '\n' _ single]
  exact ⟨fun ⟨line, listed, begins⟩ => List.mem_singleton.mp listed ▸ begins, fun begins => ⟨_, List.mem_singleton_self _, begins⟩⟩

theorem complains_join (texts : List String) (rest : String) (ended : ∀ text ∈ texts, ∃ body, text = body ++ "\n") :
    Complains (String.join texts ++ rest) ↔ (∃ text ∈ texts, Complains text) ∨ Complains rest := by
  induction texts with
  | nil => simp [String.join_nil]
  | cons text others ih =>
    obtain ⟨body, rfl⟩ := ended text List.mem_cons_self
    have later := ih fun other listed => ended other (List.mem_cons_of_mem _ listed)
    rw [String.join_cons, String.append_assoc, complains_lines, later]
    simp only [List.mem_cons, exists_eq_or_imp, complains_ended, or_assoc]

namespace Log

def Datum.shown? : Datum → Option String
  | .shown text => some text
  | _ => none

namespace Notice

-- The texts that are written as they are.
def shown : Notice → List String
  | .event command told => told.message :: (command.toList ++ told.data.filterMap fun entry => entry.2.shown?)
  | .crash report => [report]
  | .unreadable _ => []

-- No text that is shown holds a line feed.
def Unbroken (notice : Notice) : Prop :=
  ∀ text ∈ notice.shown, Text.Flat text

end Notice

namespace Writer

-- What is expected of a writer: an event is written as one line that begins with a stamp, unless a text in it breaks the
-- line; the report of a crash stands between lines that are not the program's; nothing is written after an unfinished line.
structure Lawful (write : Writer) : Prop where
  event : ∀ index command told, ∃ body, write index (.event command told) = body ++ "\n" ∧
    (Notice.Unbroken (.event command told) → Text.Flat body ∧ ¬ "sfscript:".toList <+: body.toList)
  crash : ∀ index report, ∃ before after, write index (.crash report) = before ++ "\n" ++ report ++ "\n" ++ after ++ "\n" ∧
    ¬ Complains before ∧ ¬ Complains after
  unreadable : ∀ index argument, ∃ body, write index (.unreadable argument) = body ++ "\n" ∧ ¬ Complains body

variable {write : Writer}

theorem Lawful.ended (lawful : write.Lawful) (index : Nat) (notice : Notice) : ∃ body, write index notice = body ++ "\n" := by
  cases notice with
  | event command told =>
    obtain ⟨body, written, _⟩ := lawful.event index command told
    exact ⟨body, written⟩
  | crash report =>
    obtain ⟨before, after, written, _⟩ := lawful.crash index report
    exact ⟨_, written⟩
  | unreadable argument =>
    obtain ⟨body, written, _⟩ := lawful.unreadable index argument
    exact ⟨body, written⟩

theorem Lawful.quiet (lawful : write.Lawful) (index : Nat) (notice : Notice) (unbroken : notice.Unbroken)
    (crash : ∀ report, notice = .crash report → ¬ Complains report) : ¬ Complains (write index notice) := by
  cases notice with
  | event command told =>
    obtain ⟨body, written, single⟩ := lawful.event index command told
    obtain ⟨flat, begins⟩ := single unbroken
    rwa [written, complains_ended, complains_single body flat]
  | crash report =>
    obtain ⟨before, after, written, first, last⟩ := lawful.crash index report
    rw [written, complains_ended, complains_lines, complains_lines]
    rintro ((own | own) | own)
    · exact first own
    · exact crash report rfl own
    · exact last own
  | unreadable argument =>
    obtain ⟨body, written, own⟩ := lawful.unreadable index argument
    rwa [written, complains_ended]

theorem Lawful.text_ended (lawful : write.Lawful) (notices : List Notice) :
    ∀ text ∈ notices.mapIdx write, ∃ body, text = body ++ "\n" := by
  intro text listed
  obtain ⟨index, _, rfl⟩ := List.mem_mapIdx.mp listed
  exact lawful.ended index _

-- The log leaves no line unfinished, so what follows it begins a line.
theorem Lawful.complains_after (lawful : write.Lawful) (notices : List Notice) (rest : String) (own : Complains rest) :
    Complains (write.text notices ++ rest) :=
  (complains_join _ rest (lawful.text_ended notices)).mpr (.inr own)

theorem Lawful.text_quiet (lawful : write.Lawful) (notices : List Notice) (unbroken : ∀ notice ∈ notices, notice.Unbroken)
    (crash : ∀ report, .crash report ∈ notices → ¬ Complains report) : ¬ Complains (write.text notices) := by
  have complaining := complains_join _ "" (lawful.text_ended notices)
  rw [String.append_empty, or_iff_left complains_empty] at complaining
  rw [text, complaining]
  rintro ⟨text, listed, own⟩
  obtain ⟨index, inside, rfl⟩ := List.mem_mapIdx.mp listed
  have member : notices[index] ∈ notices := List.getElem_mem inside
  exact lawful.quiet index _ (unbroken _ member) (fun report same => crash report (same ▸ member)) own

theorem paint_flat (code text : String) (plain : Text.Flat code) (flat : Text.Flat text) : Text.Flat (paint code text) := by
  have marks : Text.Flat "\x1b[" ∧ Text.Flat "m" ∧ Text.Flat "\x1b[0m" := by decide
  simp only [paint, Text.flat_append]
  exact ⟨⟨⟨⟨marks.1, plain⟩, marks.2.1⟩, flat⟩, marks.2.2⟩

theorem escape_flat (c : Char) : Text.Flat (escape c) := by
  unfold escape
  split_ifs with feed
  · decide
  · decide
  · decide
  · decide
  · decide
  · simpa [Text.Flat] using Ne.symm feed

theorem quote_flat (text : String) : Text.Flat (quote text) := by
  have mark : Text.Flat "\"" := by decide
  rw [quote, Text.flat_append, Text.flat_append, Text.flat_join]
  refine ⟨⟨mark, fun part listed => ?_⟩, mark⟩
  obtain ⟨c, _, rfl⟩ := List.mem_map.mp listed
  exact escape_flat c

theorem datum_flat (datum : Datum) (shown : ∀ text, datum.shown? = some text → Text.Flat text) : Text.Flat (datumText datum) := by
  cases datum with
  | shown text => exact shown text rfl
  | quoted text => exact quote_flat text
  | quotedIfAny text =>
    cases text with
    | none => exact (by decide : Text.Flat "None")
    | some text =>
      simp only [datumText, Text.flat_append]
      exact ⟨⟨by decide, quote_flat text⟩, by decide⟩
  | quotedAll texts =>
    simp only [datumText, Text.flat_append]
    refine ⟨⟨by decide, Text.flat_listed _ _ (by decide) fun part listed => ?_⟩, by decide⟩
    obtain ⟨text, _, rfl⟩ := List.mem_map.mp listed
    exact quote_flat text
  | flag b =>
    cases b with
    | false => exact (by decide : Text.Flat "false")
    | true => exact (by decide : Text.Flat "true")
  | count n => exact Number.integer_text_flat n

theorem field_flat (name : String) (datum : Datum) (plain : Text.Flat name)
    (shown : ∀ text, datum.shown? = some text → Text.Flat text) : Text.Flat (field name datum) := by
  rw [field, Text.flat_append, Text.flat_append]
  exact ⟨⟨paint_flat _ _ (by decide) plain, paint_flat _ _ (by decide) (by decide)⟩, datum_flat datum shown⟩

theorem during_flat (command : Option String) (shown : ∀ text ∈ command, Text.Flat text) : Text.Flat (during command) := by
  cases command with
  | none => exact (by decide : Text.Flat "")
  | some text =>
    have name := paint_flat "1" "execute" (by decide) (by decide)
    have opening := paint_flat "1" "\x7b" (by decide) (by decide)
    have closing := paint_flat "1" "\x7d" (by decide) (by decide)
    have colon := paint_flat "2" ":" (by decide) (by decide)
    have own : Text.Flat (field "command" (.shown text)) := by
      refine field_flat _ _ (by decide) fun other same => ?_
      exact Option.some.inj same ▸ shown text rfl
    simp only [during, Text.flat_append]
    exact ⟨⟨⟨⟨⟨name, opening⟩, own⟩, closing⟩, colon⟩, by decide⟩

theorem names_flat (told : Event) : Text.Flat told.target ∧ ∀ entry ∈ told.data, Text.Flat entry.1 := by
  cases told <;> simp [Event.target, Event.data, Text.Flat]

theorem level_flat (level : Level) : Text.Flat (levelText level) := by
  cases level <;> exact paint_flat _ _ (by decide) (by decide)

theorem byte_flat (b : UInt8) : Text.Flat (byteText b) := by
  have digit : ∀ n < 16, Text.Flat (hexDigit n) := by decide
  have fits := b.toNat_lt
  unfold byteText
  split
  · exact escape_flat _
  · simp only [Text.flat_append]
    exact ⟨⟨by decide, digit _ (by omega)⟩, digit _ (by omega)⟩

theorem unreadable_quiet (argument : List UInt8) : ¬ Complains (unreadableReport argument) := by
  have flat : Text.Flat (unreadableReport argument) := by
    unfold unreadableReport
    rw [Text.flat_append, Text.flat_append, Text.flat_join]
    refine ⟨⟨by decide +kernel, fun part listed => ?_⟩, by decide⟩
    obtain ⟨b, _, rfl⟩ := List.mem_map.mp listed
    exact byte_flat b
  rw [complains_single _ flat]
  rintro ⟨rest, same⟩
  unfold unreadableReport at same
  have first := congrArg List.head? same
  simp at first

theorem crash_text_quiet (report : String) (own : ¬ Complains report) :
    ∃ body, crashText report = body ++ "\n" ∧ ¬ Complains body := by
  refine ⟨_, rfl, ?_⟩
  rw [complains_lines, complains_lines]
  rintro ((first | within) | last)
  · exact absurd first (by decide)
  · exact own within
  · exact absurd last (by decide)

theorem standard_lawful (stamp : Nat → String) (flat : ∀ index, Text.Flat (stamp index)) : Lawful (standard stamp) where
  event index command told := by
    refine ⟨_, rfl, fun unbroken => ⟨?_, ?_⟩⟩
    · obtain ⟨target, names⟩ := names_flat told
      have message := unbroken told.message List.mem_cons_self
      have data : ∀ entry ∈ told.data, Text.Flat (field entry.1 entry.2) := by
        intro entry listed
        refine field_flat _ _ (names entry listed) fun text shown => unbroken text ?_
        exact List.mem_cons_of_mem _ (List.mem_append_right _ (List.mem_filterMap.mpr ⟨entry, listed, shown⟩))
      have running := during_flat command fun text given =>
        unbroken text (List.mem_cons_of_mem _ (List.mem_append_left _ (Option.mem_toList.mpr given)))
      simp only [Text.flat_append, Text.flat_join, List.forall_mem_map]
      have space : Text.Flat " " := by decide
      have colon := paint_flat "2" ":" (by decide) (by decide)
      exact ⟨⟨⟨⟨⟨⟨⟨⟨⟨paint_flat _ _ (by decide) (flat index), space⟩, level_flat _⟩, space⟩, running⟩,
        paint_flat _ _ (by decide) target⟩, colon⟩, space⟩, message⟩, fun entry listed => ⟨space, data entry listed⟩⟩
    · rintro ⟨rest, same⟩
      have first := congrArg List.head? same
      simp [paint] at first
  crash index report := ⟨_, _, rfl, by decide, by decide⟩
  unreadable index argument := crash_text_quiet _ (unreadable_quiet argument)

end Writer

-- What a run may log: events, and the report of a clamp that crashes.
inductive Notice.Logged : Notice → Prop where
  | event (command : Option String) (told : Event) : Logged (.event command told)
  | crash (low high : Float) : Logged (.crash (MathOperation.rangeReport low high))

end Log

open Log

theorem MathOperation.range_quiet (low high : Float) (flat : Text.Flat (rangeReport low high)) : ¬ Complains (rangeReport low high) := by
  rw [complains_single _ flat]
  rintro ⟨rest, same⟩
  unfold rangeReport at same
  have first := congrArg List.head? same
  simp at first

theorem StandardOperation.notices_logged (operation : StandardOperation) (command : String) (arguments : List Value)
    (world : World) : ∀ notice ∈ operation.notices command arguments world, notice.Logged := by
  intro notice listed
  rw [notices] at listed
  match run : (operation.run arguments).run world with
  | (.ok value, after) =>
    simp only [run, Option.mem_toList, Option.map_eq_some_iff] at listed
    obtain ⟨told, _, rfl⟩ := listed
    exact .event _ told
  | (.error (.crash report), after) =>
    simp only [run, List.mem_singleton] at listed
    obtain ⟨low, high, rfl⟩ := operation.crash_report arguments world after report run
    exact listed ▸ .crash low high
  | (.error (.fault reason), after) =>
    simp only [run, List.not_mem_nil] at listed

theorem State.notices_logged (state : State) (outcome : Outcome) : ∀ notice ∈ state.notices outcome, notice.Logged := by
  intro notice listed
  rcases List.mem_append.mp listed with work | ended
  · cases read : Command.read outcome.command with
    | error error => simp [read] at work
    | ok command =>
      simp only [read, List.mem_append, List.mem_map, Option.mem_toList, Option.map_eq_some_iff] at work
      rcases work with (⟨name, _, rfl⟩ | worked) | ⟨name, _, rfl⟩
      · exact .event _ _
      · cases routed : Catalog.standard.route command.path with
        | reached operation =>
          rw [routed] at worked
          exact operation.notices_logged _ _ _ notice worked
        | onNamespace | missing => simp [routed] at worked
      · exact .event _ _
  · exact List.mem_singleton.mp ended ▸ .event _ _

theorem Session.failure_logged (id script : String) (outcome : Outcome) (notice : Notice)
    (told : failureNotice? id script outcome = some notice) : notice.Logged := by
  unfold failureNotice? at told
  split at told
  · cases told
  · exact Option.some.inj told ▸ .event _ _

theorem State.journal_logged (id : String) (steps : List Step) (state : State) :
    ∀ notice ∈ state.journal id steps, notice.Logged := by
  induction steps generalizing state with
  | nil => exact fun notice never => absurd never List.not_mem_nil
  | cons step rest ih =>
    intro notice listed
    simp only [journal, List.mem_append, Option.mem_toList, Option.bind_eq_some_iff] at listed
    rcases listed with (own | ⟨script, _, told⟩) | later
    · exact notices_logged _ _ notice own
    · exact Session.failure_logged id script _ notice told
    · exact ih _ notice later

theorem Session.load_logged (id : String) (bundle : Bundle) : ∀ notice ∈ loadNotices id bundle, notice.Logged := by
  intro notice listed
  simp only [loadNotices, markerNotices, List.mem_append, List.mem_flatMap, List.mem_map, List.mem_singleton] at listed
  rcases listed with ⟨script, _, ⟨error, _, rfl⟩ | ⟨field, _, rfl⟩⟩ | rfl
  · exact .event _ _
  · exact .event _ _
  · exact .event _ _

theorem Log.Notice.written_logged (debugging : Bool) (notice shown : Notice) (written : notice.written? debugging = some shown)
    (logged : notice.Logged) : shown.Logged := by
  cases logged with
  | event command told =>
    simp only [written?] at written
    split at written
    · exact Option.some.inj written ▸ .event _ _
    · split at written
      · exact Option.some.inj written ▸ .event _ _
      · exact Option.some.inj written ▸ .event _ _
      · cases written
      · cases written
  | crash low high => exact Option.some.inj written ▸ .crash low high

namespace Program

theorem Plan.log_logged (plan : Plan) : ∀ notice ∈ plan.log, notice.Logged := by
  intro shown listed
  obtain ⟨notice, told, written⟩ := List.mem_filterMap.mp listed
  refine notice.written_logged _ shown written ?_
  rcases List.mem_append.mp told with first | running
  · unfold loading at first
    split at first
    · cases first
    · exact Session.load_logged _ _ notice first
  · exact State.journal_logged _ _ _ notice running

-- A line of the log begins like a complaint only if a text that is shown in the log holds a line feed.
theorem Plan.log_quiet (plan : Plan) (write : Writer) (lawful : write.Lawful) (unbroken : ∀ notice ∈ plan.log, notice.Unbroken) :
    ¬ Complains (write.text plan.log) := by
  refine lawful.text_quiet plan.log unbroken fun report listed => ?_
  cases plan.log_logged _ listed with
  | crash low high => exact MathOperation.range_quiet low high (unbroken _ listed _ (List.mem_singleton_self _))

end Program

end CommandScript
