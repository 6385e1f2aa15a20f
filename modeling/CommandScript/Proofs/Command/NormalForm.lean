import CommandScript.Execution
import CommandScript.Proofs.Command.Atom
import CommandScript.Proofs.Number.Finite
import CommandScript.Proofs.Text

set_option autoImplicit false

namespace CommandScript

-- A field of a vector or a color: integers are widened already, variables are replaced later.
inductive NormalNumber : Value → Prop where
  | float (x : Number.Double) (finite : x.toFloat.isFinite = true) : NormalNumber (.float x)
  | reference (name : String) (identifier : Text.isIdentifier name.toList = true) : NormalNumber (.reference name)

inductive NormalCorner : Value → Prop where
  | vector (fields : List Value) (complete : fields.length = 3) (numbers : ∀ field ∈ fields, NormalNumber field) :
      NormalCorner (.composite .vector3 fields)
  | reference (name : String) (identifier : Text.isIdentifier name.toList = true) : NormalCorner (.reference name)

-- An argument as operations may rely on it before its variables are replaced. The constructors also
-- bound the nesting: a vector inside bounds is the deepest.
inductive NormalValue : Value → Prop where
  | null : NormalValue .null
  | bool (value : Bool) : NormalValue (.bool value)
  | int (value : Int64) : NormalValue (.int value)
  | text (value : String) : NormalValue (.text value)
  | number (value : Value) (normal : NormalNumber value) : NormalValue value
  | corner (value : Value) (normal : NormalCorner value) : NormalValue value
  | color (fields : List Value) (complete : fields.length = 4) (numbers : ∀ field ∈ fields, NormalNumber field) :
      NormalValue (.composite .color fields)
  | bounds (fields : List Value) (complete : fields.length = 2) (corners : ∀ field ∈ fields, NormalCorner field) :
      NormalValue (.composite .bounds fields)

structure Command.Normal (command : Command) : Prop where
  leads : command.path ≠ []
  segments : ∀ segment ∈ command.path, Text.isIdentifier segment.toList = true
  binding : ∀ name ∈ command.binding, Text.isIdentifier name.toList = true
  arguments : ∀ value ∈ command.arguments, NormalValue value

-- Reading ends with something of the given form, or with a cause that is not left to an operation
-- to state.
def Reads {α : Type} (reading : Except SyntaxError α) (form : α → Prop) : Prop :=
  match reading with
  | .ok value => form value
  | .error error => ∀ reason, error ≠ .stated reason

namespace Reads

variable {α β : Type} {form : β → Prop}

theorem bind {reading : Except SyntaxError α} {rest : α → Except SyntaxError β} {between : α → Prop}
    (first : Reads reading between) (later : ∀ value, between value → Reads (rest value) form) :
    Reads (reading >>= rest) form := by
  cases reading with
  | ok value => exact later value first
  | error error => exact first

theorem weaken {reading : Except SyntaxError β} {weaker : β → Prop} (reads : Reads reading form)
    (implies : ∀ value, form value → weaker value) : Reads reading weaker := by
  cases reading with
  | ok value => exact implies value reads
  | error error => exact reads

theorem map_members {expected : α → Prop} (read : α → Except SyntaxError β) (inputs : List α)
    (known : ∀ input ∈ inputs, expected input) (each : ∀ input, expected input → Reads (read input) form) :
    Reads (inputs.mapM read) fun results => results.length = inputs.length ∧ ∀ result ∈ results, form result := by
  induction inputs with
  | nil => exact ⟨rfl, by simp⟩
  | cons input rest ih =>
    obtain ⟨own, others⟩ := List.forall_mem_cons.mp known
    rw [List.mapM_cons]
    apply bind (each input own)
    intro result fits
    apply bind (ih others)
    intro results ⟨count, fit⟩
    exact ⟨by simp [count], List.forall_mem_cons.mpr ⟨fits, fit⟩⟩

end Reads

namespace Arguments

theorem finish_reads (whole : String) (collected : List Char) : Reads (finish whole collected) fun _ => True := by
  rw [finish]
  split
  · rintro reason ⟨⟩
  · trivial

theorem scan_reads (whole : String) (rest : List Char) (place : Place) (collected : List Char) :
    Reads (scan whole place collected rest) fun _ => True := by
  induction rest generalizing place collected with
  | nil =>
    rcases place with (_ | depth) | _ | _
    · exact (finish_reads whole collected).bind fun _ _ => trivial
    · rintro reason ⟨⟩
    · rintro reason ⟨⟩
    · rintro reason ⟨⟩
  | cons c rest ih =>
    rw [scan]
    split
    · exact (finish_reads whole collected).bind fun _ _ => (ih _ _).bind fun _ _ => trivial
    · split
      · rintro reason ⟨⟩
      · exact ih _ _

theorem split_reads (s : List Char) : Reads (split s) fun _ => True := by
  rw [split]
  split
  · trivial
  · exact scan_reads _ s _ _

end Arguments

namespace Literal

theorem read_finite_finite (token : List Char) (x : Float) (read : Number.readFinite token = some x) : x.isFinite = true := by
  unfold Number.readFinite at read
  split at read
  · simp at read
  · split at read
    · rename_i finite
      exact Option.some.inj read ▸ finite
    · simp at read

theorem atom_normal (token : List Char) (value : Value) (read : atom? token = some value) : NormalValue value := by
  unfold atom? at read
  split at read
  · exact Option.some.inj read ▸ .null
  split at read
  · exact Option.some.inj read ▸ .text _
  split at read
  · exact Option.some.inj read ▸ .bool true
  split at read
  · exact Option.some.inj read ▸ .bool false
  split at read
  · exact Option.some.inj read ▸ .int _
  split at read
  · rename_i x finite
    exact Option.some.inj read ▸ .number _ (.float (.ofFloat x) (read_finite_finite token x finite))
  · simp at read

theorem numeric_field_reads (kind : CompositeKind) (value : Value) (normal : NormalValue value) :
    Reads (numericField kind value) NormalNumber := by
  cases normal with
  | int n => exact .float (.ofFloat (Value.floatOfInt64 n)) (Number.of_int64_finite n)
  | number _ number =>
    cases number with
    | float x finite => exact .float x finite
    | reference name identifier => exact .reference name identifier
  | corner _ corner =>
    cases corner with
    | vector => exact nofun
    | reference name identifier => exact .reference name identifier
  | null | bool | text | color | bounds => exact nofun

theorem vector_field_reads (value : Value) (normal : NormalValue value) : Reads (vectorField value) NormalCorner := by
  cases normal with
  | number _ number =>
    cases number with
    | float => exact nofun
    | reference name identifier => exact .reference name identifier
  | corner _ corner =>
    cases corner with
    | vector fields complete numbers => exact .vector fields complete numbers
    | reference name identifier => exact .reference name identifier
  | null | bool | int | text | color | bounds => exact nofun

-- Three channels get a fourth, the opacity.
theorem color_fields_read (fields : List Value) (count : fields.length ∈ CompositeKind.color.fieldCounts)
    (normal : ∀ field ∈ fields, NormalValue field) :
    Reads (normalFields .color fields) fun channels => channels.length = 4 ∧ ∀ channel ∈ channels, NormalNumber channel := by
  refine (Reads.map_members _ fields normal (numeric_field_reads .color)).bind fun channels ⟨same, fit⟩ => ?_
  change (if channels.length = 3 then channels ++ [.float 1.0] else channels).length = 4 ∧ _
  by_cases three : channels.length = 3
  · have opacity : NormalNumber (.float 1.0) := .float _ (by decide +kernel)
    simp only [three, if_true]
    exact ⟨by simp [three], List.forall_mem_append.mpr ⟨fit, List.forall_mem_singleton.mpr opacity⟩⟩
  · have four : fields.length = 3 ∨ fields.length = 4 := by simpa [CompositeKind.fieldCounts] using count
    simp only [three, if_false]
    exact ⟨by omega, fit⟩

theorem assemble_reads (kind : CompositeKind) (fields : List Value) (normal : ∀ field ∈ fields, NormalValue field) :
    Reads (assemble kind fields) NormalValue := by
  rw [assemble]
  split
  · exact nofun
  rename_i counted
  have count : fields.length ∈ kind.fieldCounts := not_not.mp counted
  cases kind with
  | vector3 =>
    refine (Reads.map_members _ fields normal (numeric_field_reads .vector3)).bind fun numbers ⟨same, fit⟩ => ?_
    exact .corner _ (.vector numbers (same.trans (List.mem_singleton.mp count)) fit)
  | color =>
    exact (color_fields_read fields count normal).bind fun channels ⟨four, fit⟩ => .color channels four fit
  | bounds =>
    refine (Reads.map_members _ fields normal vector_field_reads).bind fun corners ⟨same, fit⟩ => ?_
    exact .bounds corners (same.trans (List.mem_singleton.mp count)) fit

theorem kind_named_reads (name : String) : Reads (kindNamed name) fun _ => True := by
  rw [kindNamed]
  split
  · trivial
  · exact nofun

theorem read_with_reads (composite : String → List Char → Except SyntaxError Value)
    (inner : ∀ name inside, Reads (composite name inside) NormalValue) (text : List Char) :
    Reads (readWith composite text) NormalValue := by
  simp only [readWith]
  split
  · rename_i value found
    exact atom_normal _ value found
  split
  · exact inner _ _
  split
  · rename_i name refers
    have identifier := (reference_written _ name refers).2
    exact .number _ (.reference _ (by rwa [String.toList_ofList]))
  · rintro reason ⟨⟩

theorem read_nested_reads (levels : Nat) (token : List Char) : Reads (readNested levels token) NormalValue := by
  induction levels generalizing token with
  | zero =>
    refine read_with_reads _ (fun name inside => ?_) token
    exact (kind_named_reads name).bind fun _ _ => nofun
  | succ levels ih =>
    refine read_with_reads _ (fun name inside => ?_) token
    refine (kind_named_reads name).bind fun kind _ => ?_
    refine (Arguments.split_reads inside).bind fun tokens _ => ?_
    refine (Reads.map_members _ tokens (fun _ _ => trivial) fun token _ => ih token).bind fun fields fit => ?_
    exact assemble_reads kind fields fit.2

end Literal

namespace Command

theorem split_binding_reads (text : List Char) :
    Reads (splitBinding text) fun result => ∀ name ∈ result.1, Text.isIdentifier name.toList = true := by
  unfold splitBinding
  split
  · rename_i after
    simp only
    split
    · split
      · exact nofun
      · rename_i filled
        intro name member
        obtain rfl := Option.mem_some_iff.mp member
        rw [String.toList_ofList, Text.identifier_iff]
        exact ⟨by simpa using filled, List.all_eq_true.mp List.all_takeWhile⟩
    · exact nofun
  · exact nofun

theorem split_call_reads (text : List Char) : Reads (splitCall text) fun _ => True := by
  rw [splitCall]
  split
  · exact nofun
  split
  · exact nofun
  · trivial

theorem segment_reads (text piece : List Char) :
    Reads (if Text.isIdentifier (Text.trim piece) then .ok (String.ofList (Text.trim piece)) else
      .error (.invalidSegment (String.ofList (Text.trim piece)) (String.ofList (Text.trim text))))
      fun segment => Text.isIdentifier segment.toList = true := by
  split
  · rename_i identifier
    rwa [Reads, String.toList_ofList]
  · exact nofun

theorem read_path_reads (text : List Char) : Reads (readPath text) fun path =>
    path ≠ [] ∧ ∀ segment ∈ path, Text.isIdentifier segment.toList = true := by
  have cut := Text.pieces_ne_nil '.' text
  have read := Reads.map_members _ (Text.pieces '.' text) (fun _ _ => trivial) fun piece _ => segment_reads text piece
  refine read.weaken fun path ⟨count, segments⟩ => ⟨?_, segments⟩
  rw [← List.length_pos_iff, count, List.length_pos_iff]
  exact cut

theorem parse_chars_reads (text : List Char) : Reads (parseChars text) Normal := by
  rw [parseChars]
  split
  · exact nofun
  refine (split_binding_reads _).bind fun ⟨binding, call⟩ bound => ?_
  refine (split_call_reads call).bind fun ⟨path, inside⟩ _ => ?_
  refine (read_path_reads path).bind fun path ⟨leads, segments⟩ => ?_
  refine (Arguments.split_reads inside).bind fun tokens _ => ?_
  refine (Reads.map_members _ tokens (fun _ _ => trivial) fun token _ => Literal.read_nested_reads 2 token).bind
    fun arguments fit => ?_
  exact ⟨leads, segments, bound, fit.2⟩

-- Every text is read as a command in normal form, or is refused as malformed.
theorem parsed_commands_are_normal (text : String) :
    (∀ command, read text = .ok command → Normal command) ∧
      ∀ fault, read text = .error fault → ∃ error, fault = .malformed error ∧ ∀ reason, error ≠ .stated reason := by
  have reads : Reads (parse text) Normal := parse_chars_reads text.toList
  unfold read
  cases parsed : parse text with
  | ok command =>
    rw [parsed] at reads
    refine ⟨fun _ same => ?_, nofun⟩
    exact Except.ok.inj same ▸ reads
  | error error =>
    rw [parsed] at reads
    refine ⟨nofun, fun _ same => ?_⟩
    exact ⟨error, (Except.error.inj same).symm, reads⟩

theorem fill_is_normal :
    (∃ command, read "$v = Fill.Box(Color(1, $x, .5), Bounds(Vector3(1.5, 2, 3e0), $c))" = .ok command ∧ Normal command) ∧
      ∃ fault, read "Fill(Bounds(1, 2))" = .error fault ∧
        ∃ error, fault = .malformed error ∧ ∀ reason, error ≠ .stated reason := by
  have accepted : (read "$v = Fill.Box(Color(1, $x, .5), Bounds(Vector3(1.5, 2, 3e0), $c))").isOk = true := by decide +kernel
  have refused : (read "Fill(Bounds(1, 2))").isOk = false := by decide +kernel
  constructor
  · cases result : read "$v = Fill.Box(Color(1, $x, .5), Bounds(Vector3(1.5, 2, 3e0), $c))" with
    | ok command => exact ⟨command, rfl, (parsed_commands_are_normal _).1 command result⟩
    | error fault =>
      rw [result] at accepted
      exact absurd accepted Bool.false_ne_true
  · cases result : read "Fill(Bounds(1, 2))" with
    | ok command =>
      rw [result] at refused
      exact absurd refused.symm Bool.false_ne_true
    | error fault => exact ⟨fault, rfl, (parsed_commands_are_normal _).2 fault result⟩

end Command

end CommandScript
