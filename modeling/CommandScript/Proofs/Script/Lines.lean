import CommandScript.Proofs.Text
import CommandScript.Script.Basic

set_option autoImplicit false

namespace CommandScript

namespace Line

theorem classify_trim (text : List Char) : classify (Text.trim text) = classify text := by
  simp only [classify, Text.trim_again]

-- A carriage return at the end of a line is trimmed with the other blanks.
theorem classify_return (text : List Char) : classify (Text.dropReturn '\r' text) = classify text := by
  rw [Text.dropReturn]
  split
  · rename_i ends
    have spelled := List.dropLast_append_getLast? '\r' ends
    rw [← classify_trim, ← Text.trim_blank_end text.dropLast ['\r'] (by decide), spelled, classify_trim]
  · rfl

theorem command_again (text : List Char) (command : String) (read : classify text = .command command) :
    command.toList = Text.trim text ∧ classify command.toList = .command command := by
  have spelled : command = String.ofList (Text.trim text) := by
    simp only [classify] at read
    split at read
    · cases read
    split at read
    · simp only [ofDeclaration] at read
      split at read <;> cases read
    split at read
    · cases read
    · exact (Line.command.inj read).symm
  have listed : command.toList = Text.trim text := by rw [spelled, String.toList_ofList]
  exact ⟨listed, by rw [listed, classify_trim, read]⟩

theorem field_declared (text : List Char) (name : String) (value : Value) (read : classify text = .field name value) :
    ∃ declaration d, Field.Declaration.ofChars? declaration = some d ∧ name = String.ofList d.name ∧
      value = Field.convert d.type d.value := by
  simp only [classify] at read
  split at read
  · cases read
  split at read
  · simp only [ofDeclaration] at read
    split at read
    · rename_i d found
      obtain ⟨rfl, rfl⟩ := Line.field.inj read
      exact ⟨_, d, found, rfl, rfl⟩
    · cases read
  · split at read <;> cases read

end Line

theorem Script.field_line (name text : String) (marker : FieldMarker) (declared : marker ∈ (ofText name text).fields) :
    ∃ line, Line.classify line = .field marker.name marker.value := by
  simp only [ofText, fieldsOf, List.mem_filterMap] at declared
  obtain ⟨⟨number, line⟩, listed, read⟩ := declared
  cases line with
  | field key value =>
    obtain rfl := Option.some.inj read
    obtain ⟨index, known, same⟩ := List.mem_mapIdx.mp listed
    exact ⟨_, (Prod.mk.inj same).2⟩
  | blank | comment | malformed | command => cases read

def FieldMarker.after (lines : Nat) (marker : FieldMarker) : FieldMarker :=
  { marker with line := lines + marker.line }

def MarkerError.after (lines : Nat) (error : MarkerError) : MarkerError :=
  { error with line := lines + error.line }

namespace Script

-- A script as the pieces between its line feeds: they may be one more than its lines, and then the last is blank.
def numberedPieces (text : List Char) : List (Nat × Line) :=
  (Text.pieces '\n' text).mapIdx fun index piece => (index + 1, Line.classify piece)

def newlines (text : String) : Nat :=
  text.toList.count '\n'

theorem numbered_pieces_join (first second : List Char) :
    numberedPieces (first ++ '\n' :: second) =
      numberedPieces first ++ (numberedPieces second).map fun line => (1 + first.count '\n' + line.1, line.2) := by
  have count (index : Nat) : index + (first.count '\n' + 1) + 1 = 1 + first.count '\n' + (index + 1) := by omega
  rw [numberedPieces, Text.pieces_join, List.mapIdx_append, Text.length_pieces, numberedPieces, numberedPieces]
  simp only [List.mapIdx_eq_zipIdx_map, List.map_map, Function.comp_def, count]

section Views

-- Commands, fields and errors are picked from the lines one by one, and a blank line is none of them.
variable {α : Type} (view : Nat × Line → Option α) (skips : ∀ number, view (number, .blank) = none)

include skips

theorem view_pieces (number : Nat → Nat) (pieces : List (List Char)) :
    ((Text.linesOfPieces '\r' pieces).mapIdx fun index line => (number index, Line.classify line)).filterMap view =
      (pieces.mapIdx fun index piece => (number index, Line.classify piece)).filterMap view := by
  induction pieces generalizing number with
  | nil => rfl
  | cons piece rest ih =>
    cases rest with
    | nil =>
      rw [Text.linesOfPieces]
      split
      · rename_i empty
        have blank : Line.classify piece = .blank := by
          rw [List.isEmpty_iff.mp empty]
          rfl
        simp [blank, skips]
      · rfl
    | cons next others =>
      rw [Text.linesOfPieces, List.mapIdx_cons, List.mapIdx_cons, List.filterMap_cons, List.filterMap_cons, Line.classify_return,
        ih fun index => number (index + 1)]
      exact List.cons_ne_nil next _

theorem view_lines (text : String) : (numberedLines text).filterMap view = (numberedPieces text.toList).filterMap view :=
  view_pieces view skips (· + 1) (Text.pieces '\n' text.toList)

theorem view_join (later : Nat → α → α)
    (shifts : ∀ lines number line, view (lines + number, line) = (view (number, line)).map (later lines)) (first second : String) :
    (numberedLines (first ++ "\n" ++ second)).filterMap view =
      (numberedLines first).filterMap view ++ ((numberedLines second).filterMap view).map (later (1 + newlines first)) := by
  have spelled : (first ++ "\n" ++ second).toList = first.toList ++ '\n' :: second.toList := by simp
  rw [view_lines view skips, view_lines view skips, view_lines view skips, spelled, numbered_pieces_join, List.filterMap_append,
    List.filterMap_map, List.map_filterMap]
  simp only [Function.comp_def, shifts, newlines]

end Views

theorem commands_join (first second : String) : commandsOf (numberedLines (first ++ "\n" ++ second)) =
    commandsOf (numberedLines first) ++ commandsOf (numberedLines second) := by
  unfold commandsOf
  rw [view_join _ ?skips (fun _ command => command) ?shifts, List.map_id']
  case skips => exact fun _ => rfl
  case shifts => exact fun _ _ line => by cases line <;> rfl

theorem fields_join (first second : String) : fieldsOf (numberedLines (first ++ "\n" ++ second)) =
    fieldsOf (numberedLines first) ++ (fieldsOf (numberedLines second)).map (.after (1 + newlines first)) := by
  unfold fieldsOf
  refine view_join _ (fun _ => ?_) FieldMarker.after (fun _ _ line => ?_) first second
  · rfl
  · cases line <;> rfl

theorem errors_join (first second : String) : errorsOf (numberedLines (first ++ "\n" ++ second)) =
    errorsOf (numberedLines first) ++ (errorsOf (numberedLines second)).map (.after (1 + newlines first)) := by
  unfold errorsOf
  refine view_join _ (fun _ => ?_) MarkerError.after (fun _ _ line => ?_) first second
  · rfl
  · cases line <;> rfl

theorem pieces_of_lines (lines : List String) (nonempty : lines ≠ []) (single : ∀ line ∈ lines, '\n' ∉ line.toList) :
    Text.pieces '\n' ("\n".intercalate lines).toList = lines.map String.toList := by
  induction lines with
  | nil => exact absurd rfl nonempty
  | cons line rest ih =>
    obtain ⟨own, others⟩ := List.forall_mem_cons.mp single
    cases rest with
    | nil =>
      rw [String.intercalate_singleton, Text.pieces_single '\n' _ own]
      rfl
    | cons next more =>
      have spelled : ("\n".intercalate (line :: next :: more)).toList =
          line.toList ++ '\n' :: ("\n".intercalate (next :: more)).toList := by
        rw [String.intercalate_cons_cons]
        simp
      rw [spelled, Text.pieces_append '\n' _ _ own, ih (List.cons_ne_nil next more) others, List.map_cons, List.map_cons, List.map_cons]

-- Lines that are commands already stay what they are.
theorem command_lines (commands : List String) (nonempty : commands ≠ [])
    (again : ∀ command ∈ commands, Line.classify command.toList = .command command ∧ '\n' ∉ command.toList) :
    numberedPieces ("\n".intercalate commands).toList = commands.mapIdx fun index command => (index + 1, .command command) := by
  rw [numberedPieces, pieces_of_lines commands nonempty fun command listed => (again command listed).2]
  apply List.ext_getElem
  · simp
  · intro index _ _
    simp [again]

theorem listed_again (text command : String) (listed : command ∈ commandsOf (numberedLines text)) :
    Line.classify command.toList = .command command ∧ '\n' ∉ command.toList := by
  unfold commandsOf at listed
  rw [view_lines _ fun _ => rfl] at listed
  obtain ⟨⟨number, line⟩, member, same⟩ := List.mem_filterMap.mp listed
  obtain ⟨index, inside, own⟩ := List.mem_mapIdx.mp member
  obtain ⟨rfl, read⟩ := Prod.mk.inj own
  cases line with
  | command other =>
    obtain rfl := Option.some.inj same
    obtain ⟨spelled, again⟩ := Line.command_again _ other read
    refine ⟨again, fun within => ?_⟩
    rw [spelled] at within
    exact Text.separator_not_mem '\n' text.toList _ (List.getElem_mem inside) (Text.mem_of_mem_trim _ _ within)
  | blank | comment | field | malformed => cases same

theorem commands_again (commands : List String)
    (again : ∀ command ∈ commands, Line.classify command.toList = .command command ∧ '\n' ∉ command.toList) :
    commandsOf (numberedLines ("\n".intercalate commands)) = commands ∧
      fieldsOf (numberedLines ("\n".intercalate commands)) = [] ∧ errorsOf (numberedLines ("\n".intercalate commands)) = [] := by
  by_cases nonempty : commands = []
  · subst nonempty
    exact ⟨rfl, rfl, rfl⟩
  · unfold commandsOf fieldsOf errorsOf
    rw [view_lines _ fun _ => rfl, view_lines _ fun _ => rfl, view_lines _ fun _ => rfl, command_lines commands nonempty again,
      List.mapIdx_eq_zipIdx_map]
    simp [List.filterMap_map]

-- A script is read line by line, and its commands alone are a script again.
theorem scripts_are_read_by_lines (name : String) :
    (∀ first second : String,
      ofText name (first ++ "\n" ++ second) =
        ⟨name, (ofText name first).commands ++ (ofText name second).commands,
          (ofText name first).fields ++ (ofText name second).fields.map (.after (1 + newlines first))⟩ ∧
      markerErrors (first ++ "\n" ++ second) = markerErrors first ++ (markerErrors second).map (.after (1 + newlines first))) ∧
    ∀ text : String,
      ofText name ("\n".intercalate (ofText name text).commands) = ⟨name, (ofText name text).commands, []⟩ ∧
      markerErrors ("\n".intercalate (ofText name text).commands) = [] := by
  constructor
  · intro first second
    refine ⟨?_, errors_join first second⟩
    rw [ofText, commands_join, fields_join]
    rfl
  · intro text
    obtain ⟨commands, fields, errors⟩ := commands_again (ofText name text).commands (listed_again text)
    refine ⟨?_, errors⟩
    rw [ofText, commands, fields]

end Script

end CommandScript
