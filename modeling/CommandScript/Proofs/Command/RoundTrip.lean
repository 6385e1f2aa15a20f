import CommandScript.Proofs.Command.Composite

set_option autoImplicit false

namespace CommandScript.Command

open Writing

theorem segment_word (segment : String) (token : List Char) (written : SegmentText segment token) :
    ∀ c ∈ token, Text.isWordChar c = true := by
  obtain ⟨identifier, rfl⟩ := written
  exact ((Text.identifier_iff _).mp identifier).2

theorem segment_tight (segment : String) (token : List Char) (written : SegmentText segment token) : Text.Tight token := by
  obtain ⟨identifier, rfl⟩ := written
  exact Text.identifier_tight _ identifier

theorem segment_absent (c : Char) (other : Text.isWordChar c = false) (segment : String) (token : List Char)
    (written : SegmentText segment token) : c ∉ token := by
  intro member
  simp [segment_word segment token written c member] at other

theorem read_path_joined (path : List String) (segments : List Char) (leads : Joined '.' SegmentText path segments) :
    readPath segments = .ok path := by
  refine map_matched _ ?_ (joined_pieces (by decide) (segment_absent '.' (by decide)) leads)
  intro segment piece padded
  obtain ⟨identifier, same⟩ := padded_trim segment_tight padded
  simp [same, identifier]

theorem split_call_joined (path : List String) (segments inside : List Char)
    (leads : Joined '.' SegmentText path segments) :
    splitCall (segments ++ '(' :: (inside ++ [')'])) = .ok (segments, inside) := by
  have absent : '(' ∉ segments := joined_absent '(' (by decide) (by decide) (segment_absent '(' (by decide)) leads
  rw [splitCall, Text.cut_at_append '(' segments _ absent]
  simp [Text.without_last_append]

theorem split_arguments_listed (arguments : List Value) (inside : List Char) (passes : Listed ValueText arguments inside) :
    ∃ tokens, Arguments.split inside = .ok tokens ∧ List.Forall₂ ValueText arguments tokens := by
  cases passes with
  | none _ blank => exact ⟨[], by rw [Arguments.split, if_pos blank], .nil⟩
  | some _ _ joined => exact joined_split value_legible.closed value_legible.tight joined

theorem split_binding_absent (c : Char) (word : Text.isWordChar c = true) (rest : List Char) :
    splitBinding (c :: rest) = .ok (none, c :: rest) := by
  have other : c ≠ '$' := by
    rintro rfl
    simp [Text.isWordChar] at word
  rw [splitBinding]
  rintro after same
  exact other (List.cons.inj same).1

-- The name ends at the first blank or at the sign of equality.
theorem word_ends (blanks rest : List Char) (blank : Text.allBlank blanks = true) :
    (blanks ++ '=' :: rest).takeWhile Text.isWordChar = [] ∧
      (blanks ++ '=' :: rest).dropWhile Text.isWordChar = blanks ++ '=' :: rest := by
  cases blanks with
  | nil => exact ⟨List.takeWhile_cons_of_neg (by decide), List.dropWhile_cons_of_neg (by decide)⟩
  | cons b others =>
    have other := Text.blank_not_word b ((Text.all_blank_iff _).mp blank b List.mem_cons_self)
    exact ⟨List.takeWhile_cons_of_neg (by simp [other]), List.dropWhile_cons_of_neg (by simp [other])⟩

theorem split_binding_present (name : String) (blanks rest : List Char) (identifier : Text.isIdentifier name.toList = true)
    (blank : Text.allBlank blanks = true) :
    splitBinding ('$' :: (name.toList ++ (blanks ++ '=' :: rest))) = .ok (some name, Text.trimStart rest) := by
  obtain ⟨nonempty, word⟩ := (Text.identifier_iff _).mp identifier
  obtain ⟨taken, dropped⟩ := word_ends blanks rest blank
  have equals : Text.trimStart (blanks ++ '=' :: rest) = '=' :: rest := by
    rw [Text.trim_start_pad blanks _ blank]
    exact List.dropWhile_cons_of_neg (by decide)
  rw [splitBinding, List.takeWhile_append_of_pos word, List.dropWhile_append_of_pos word, taken, dropped, equals]
  simp [nonempty]

theorem call_tight (segment : String) (token suffix inside : List Char) (written : SegmentText segment token) :
    Text.Tight (token ++ suffix ++ '(' :: (inside ++ [')'])) := by
  have leads := segment_tight segment token written
  simpa using Text.tight_framed token (suffix ++ '(' :: inside) [')'] leads (Text.tight_single ')' (by decide))

-- Whatever is bound, what remains to be read is a path without blanks in front and its argument list.
theorem split_binding_written (binding : Option String) (path : List String) (before bound segments inside after : List Char)
    (blankBefore : Text.allBlank before = true) (binds : BindingText binding bound)
    (leads : Joined '.' SegmentText path segments) (blankAfter : Text.allBlank after = true) :
    ∃ text call, Text.trim (before ++ (bound ++ segments ++ '(' :: (inside ++ [')'])) ++ after) = text ∧ text ≠ [] ∧
      splitBinding text = .ok (binding, call ++ '(' :: (inside ++ [')'])) ∧ Joined '.' SegmentText path call := by
  obtain ⟨segment, lead, token, suffix, written, blankLead, rfl, call⟩ := joined_first leads
  have tight := call_tight segment token suffix inside written
  cases binds with
  | none =>
    refine ⟨token ++ suffix ++ '(' :: (inside ++ [')']), token ++ suffix, ?_, tight.ne_nil, ?_, call⟩
    · have blank : Text.allBlank (before ++ lead) = true := by simp_all [Text.allBlank]
      simpa using Text.trim_padded (before ++ lead) _ after blank blankAfter tight
    · obtain ⟨c, rest, rfl, _⟩ := (segment_tight segment token written).first
      exact split_binding_absent c (segment_word segment _ written c List.mem_cons_self) _
  | some name blanks identifier blank =>
    have bound : Text.Tight ('$' :: (name.toList ++ (blanks ++ '=' :: (lead ++ (token ++ suffix ++ '(' :: (inside ++ [')'])))))) := by
      simpa using Text.tight_framed ['$'] (name.toList ++ (blanks ++ '=' :: lead)) _ (Text.tight_single '$' (by decide)) tight
    refine ⟨_, token ++ suffix, ?_, bound.ne_nil, ?_, call⟩
    · simpa using Text.trim_padded before _ after blankBefore blankAfter bound
    · have remains := Text.trim_start_tight _ [] tight
      rw [List.append_nil] at remains
      rw [split_binding_present name blanks _ identifier blank, Text.trim_start_pad lead _ blankLead, remains]

theorem parse_written (command : Command) (text : String) (written : CommandText command text.toList) :
    parse text = .ok command := by
  generalize spelled : text.toList = characters at written
  obtain ⟨path, arguments, binding, before, bound, segments, inside, after, blankBefore, binds, leads, passes, blankAfter⟩ :=
    written
  obtain ⟨whole, call, trimmed, filled, bindingRead, callLeads⟩ :=
    split_binding_written binding path before bound segments inside after blankBefore binds leads blankAfter
  obtain ⟨tokens, split, matched⟩ := split_arguments_listed arguments inside passes
  rw [parse, spelled, parseChars, trimmed]
  simp [filled, bindingRead, split_call_joined path call inside callLeads, read_path_joined path call callLeads, split,
    map_matched Literal.read value_legible.reads matched, bind, Except.bind, pure, Except.pure]

-- Some text stands for the number and is no integer.
def HasToken (x : Number.Double) : Prop :=
  ∃ y token, x = .ofFloat y ∧ Number.readFinite token = some y ∧ Number.readInt64 token = none

def WritableNumber : Value → Prop
  | .float x => HasToken x
  | .reference name => Text.isIdentifier name.toList = true
  | _ => False

def WritableCorner : Value → Prop
  | .composite .vector3 fields => fields.length = 3 ∧ ∀ field ∈ fields, WritableNumber field
  | .reference name => Text.isIdentifier name.toList = true
  | _ => False

def WritableValue : Value → Prop
  | .null | .bool _ | .int _ | .text _ => True
  | .float x => HasToken x
  | .reference name => Text.isIdentifier name.toList = true
  | .composite .vector3 fields => fields.length = 3 ∧ ∀ field ∈ fields, WritableNumber field
  | .composite .color fields => fields.length = 4 ∧ ∀ field ∈ fields, WritableNumber field
  | .composite .bounds fields => fields.length = 2 ∧ ∀ field ∈ fields, WritableCorner field
  | .component _ => False

structure Writable (command : Command) : Prop where
  leads : command.path ≠ []
  segments : ∀ segment ∈ command.path, Text.isIdentifier segment.toList = true
  arguments : ∀ value ∈ command.arguments, WritableValue value
  binding : ∀ name ∈ command.binding, Text.isIdentifier name.toList = true

theorem joined_exists {α : Type} (mark : Char) (item : α → List Char → Prop) (values : List α) (nonempty : values ≠ [])
    (each : ∀ value ∈ values, ∃ token, item value token) : ∃ text, Joined mark item values text := by
  induction values with
  | nil => exact absurd rfl nonempty
  | cons value rest ih =>
    obtain ⟨token, written⟩ := each value List.mem_cons_self
    have padded : Padded item value ([] ++ token ++ []) := .intro value [] token [] rfl written rfl
    by_cases last : rest = []
    · exact last ▸ ⟨_, .one value _ padded⟩
    · obtain ⟨others, remaining⟩ := ih last fun other member => each other (List.mem_cons_of_mem value member)
      exact ⟨_, .more value _ rest others padded remaining⟩

theorem composite_exists (kind : CompositeKind) (count : Nat) (positive : count ≠ 0) (item : Value → List Char → Prop)
    (fields : List Value) (complete : fields.length = count) (each : ∀ field ∈ fields, ∃ token, item field token) :
    ∃ token, CompositeText kind count item (.composite kind fields) token := by
  have nonempty : fields ≠ [] := by
    rintro rfl
    exact positive complete.symm
  obtain ⟨inside, joined⟩ := joined_exists ',' item fields nonempty each
  exact ⟨_, .intro fields [] inside complete rfl joined⟩

theorem float_exists (x : Number.Double) (spelled : HasToken x) : ∃ token, AtomText (.float x) token := by
  obtain ⟨y, token, rfl, reads, fraction⟩ := spelled
  exact ⟨token, .float y token reads fraction⟩

theorem number_exists (value : Value) (writable : WritableNumber value) : ∃ token, NumberText value token := by
  cases value with
  | float x =>
    obtain ⟨token, written⟩ := float_exists x writable
    exact ⟨token, rfl, written⟩
  | reference name => exact ⟨_, rfl, .reference name writable⟩
  | null | bool | int | text | composite | component => exact writable.elim

theorem vector_exists (fields : List Value) (complete : fields.length = 3)
    (numbers : ∀ field ∈ fields, WritableNumber field) : ∃ token, VectorText (.composite .vector3 fields) token :=
  composite_exists .vector3 3 (by decide) NumberText fields complete fun field member =>
    number_exists field (numbers field member)

theorem corner_exists (value : Value) (writable : WritableCorner value) : ∃ token, CornerText value token := by
  cases value with
  | composite kind fields =>
    cases kind with
    | vector3 =>
      obtain ⟨token, written⟩ := vector_exists fields writable.1 writable.2
      exact ⟨token, .vector _ _ written⟩
    | color | bounds => exact writable.elim
  | reference name => exact ⟨_, .reference _ _ rfl (.reference name writable)⟩
  | null | bool | int | float | text | component => exact writable.elim

theorem value_exists (value : Value) (writable : WritableValue value) : ∃ token, ValueText value token := by
  cases value with
  | null => exact ⟨"null".toList, .atom _ _ (.null _ (by decide))⟩
  | bool b =>
    cases b with
    | true => exact ⟨"true".toList, .atom _ _ (.true _ (by decide))⟩
    | false => exact ⟨"false".toList, .atom _ _ (.false _ (by decide))⟩
  | int n => exact ⟨_, .atom _ _ (.int n)⟩
  | float x =>
    obtain ⟨token, written⟩ := float_exists x writable
    exact ⟨token, .atom _ _ written⟩
  | text s => exact ⟨_, .atom _ _ (.text s '"' rfl)⟩
  | composite kind fields =>
    cases kind with
    | vector3 =>
      obtain ⟨token, written⟩ := vector_exists fields writable.1 writable.2
      exact ⟨token, .vector _ _ written⟩
    | color =>
      obtain ⟨token, written⟩ := composite_exists .color 4 (by decide) NumberText fields writable.1 fun field member =>
        number_exists field (writable.2 field member)
      exact ⟨token, .color _ _ written⟩
    | bounds =>
      obtain ⟨token, written⟩ := composite_exists .bounds 2 (by decide) CornerText fields writable.1 fun field member =>
        corner_exists field (writable.2 field member)
      exact ⟨token, .bounds _ _ written⟩
  | reference name => exact ⟨_, .atom _ _ (.reference name writable)⟩
  | component id => exact writable.elim

theorem listed_exists (arguments : List Value) (writable : ∀ value ∈ arguments, WritableValue value) :
    ∃ inside, Listed ValueText arguments inside := by
  by_cases empty : arguments = []
  · exact empty ▸ ⟨[], .none [] rfl⟩
  · obtain ⟨inside, joined⟩ := joined_exists ',' ValueText arguments empty fun value member =>
      value_exists value (writable value member)
    exact ⟨inside, .some arguments inside joined⟩

theorem written_exists (command : Command) (writable : Writable command) : ∃ text : String, CommandText command text.toList := by
  obtain ⟨path, arguments, binding⟩ := command
  obtain ⟨segments, leads⟩ := joined_exists '.' SegmentText path writable.leads fun segment member =>
    ⟨segment.toList, writable.segments segment member, rfl⟩
  obtain ⟨inside, passes⟩ := listed_exists arguments writable.arguments
  have binds : ∃ bound, BindingText binding bound := by
    cases binding with
    | none => exact ⟨[], .none⟩
    | some name => exact ⟨_, .some name [] (writable.binding name rfl) rfl⟩
  obtain ⟨bound, binds⟩ := binds
  refine ⟨String.ofList ([] ++ (bound ++ segments ++ '(' :: (inside ++ [')'])) ++ []), ?_⟩
  rw [String.toList_ofList]
  exact .intro path arguments binding [] bound segments inside [] rfl binds leads passes rfl

-- Parsing undoes writing, however a command is written.
theorem parsing_undoes_writing (command : Command) (writable : Writable command) :
    (∃ text : String, CommandText command text.toList) ∧
      ∀ text : String, CommandText command text.toList → parse text = .ok command :=
  ⟨written_exists command writable, fun text written => parse_written command text written⟩

def framing : Command :=
  ⟨["scene", "frame"],
    [.composite .bounds [.composite .vector3 [.ofFloat 1.5, .ofFloat (-20.0), .reference "z"], .reference "far"],
      .text "it's (a, b) \\", .null, .int (-7)], some "view"⟩

theorem framing_writable : Writable framing := by
  have numbers : ∀ field ∈ [.ofFloat 1.5, .ofFloat (-20.0), .reference "z"], WritableNumber field := by
    refine List.forall_mem_cons.mpr ⟨⟨1.5, "1.5".toList, rfl, by decide +kernel, by decide⟩, ?_⟩
    refine List.forall_mem_cons.mpr ⟨⟨-20.0, "-2e1".toList, rfl, by decide +kernel, by decide⟩, ?_⟩
    exact List.forall_mem_singleton.mpr rfl
  refine ⟨by decide, by decide, ?_, by decide⟩
  refine List.forall_mem_cons.mpr ⟨⟨rfl, List.forall_mem_cons.mpr ⟨⟨rfl, numbers⟩, ?_⟩⟩, ?_⟩
  · exact List.forall_mem_singleton.mpr rfl
  · simp [WritableValue]

theorem framing_text : CommandText framing
    " $view = scene . frame( Bounds (Vector3(1.5,-2e1, $z ), $far),'it\\'s (a, b) \\\\' ,NULL,-7 )\n".toList := by
  have width : NumberText (.ofFloat 1.5) "1.5".toList := ⟨rfl, .float 1.5 _ (by decide +kernel) (by decide)⟩
  have height : NumberText (.ofFloat (-20.0)) "-2e1".toList := ⟨rfl, .float (-20.0) _ (by decide +kernel) (by decide)⟩
  have depth : NumberText (.reference "z") "$z".toList := ⟨rfl, .reference "z" (by decide)⟩
  have numbers : Joined ',' NumberText [.ofFloat 1.5, .ofFloat (-20.0), .reference "z"] "1.5,-2e1, $z ".toList :=
    .more _ "1.5".toList _ _ (.intro _ [] _ [] rfl width rfl)
      (.more _ "-2e1".toList _ _ (.intro _ [] _ [] rfl height rfl) (.one _ _ (.intro _ [' '] _ [' '] rfl depth rfl)))
  have near : CornerText (.composite .vector3 [.ofFloat 1.5, .ofFloat (-20.0), .reference "z"])
      "Vector3(1.5,-2e1, $z )".toList := .vector _ _ (.intro _ [] _ rfl rfl numbers)
  have far : CornerText (.reference "far") "$far".toList := .reference _ _ rfl (.reference "far" (by decide))
  have corners : Joined ',' CornerText _ _ := .more _ _ _ _ (.intro _ [] _ [] rfl near rfl) (.one _ _ (.intro _ [' '] _ [] rfl far rfl))
  have bounds : ValueText _ "Bounds (Vector3(1.5,-2e1, $z ), $far)".toList := .bounds _ _ (.intro _ [' '] _ rfl rfl corners)
  have label : ValueText (.text "it's (a, b) \\") "'it\\'s (a, b) \\\\'".toList :=
    .atom _ _ (.text "it's (a, b) \\" '\'' rfl)
  have null : ValueText .null "NULL".toList := .atom _ _ (.null _ (by decide))
  have seven : ValueText (.int (-7)) "-7".toList := .atom _ _ (.int (-7))
  have arguments : Joined ',' ValueText framing.arguments _ :=
    .more _ _ _ _ (.intro _ [' '] _ [] rfl bounds rfl)
      (.more _ _ _ _ (.intro _ [] _ [' '] rfl label rfl)
        (.more _ _ _ _ (.intro _ [] _ [] rfl null rfl) (.one _ _ (.intro _ [] _ [' '] rfl seven rfl))))
  have scene : SegmentText "scene" "scene".toList := ⟨by decide, rfl⟩
  have frame : SegmentText "frame" "frame".toList := ⟨by decide, rfl⟩
  have segments : Joined '.' SegmentText framing.path _ :=
    .more _ _ _ _ (.intro _ [' '] _ [' '] rfl scene rfl) (.one _ _ (.intro _ [' '] _ [] rfl frame rfl))
  have written := CommandText.intro framing.path framing.arguments framing.binding [' '] _ _ _ ['\n'] rfl
    (.some "view" [' '] (by decide) rfl) segments (.some _ _ arguments) rfl
  refine Eq.mp (congrArg (CommandText framing) ?_) written
  decide +kernel

theorem framing_parses :
    parse " $view = scene . frame( Bounds (Vector3(1.5,-2e1, $z ), $far),'it\\'s (a, b) \\\\' ,NULL,-7 )\n" = .ok framing :=
  (parsing_undoes_writing framing framing_writable).2 _ framing_text

end CommandScript.Command
