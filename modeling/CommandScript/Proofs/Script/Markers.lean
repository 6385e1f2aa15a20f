import CommandScript.Proofs.Command.Atom
import CommandScript.Proofs.Script.Declaration
import CommandScript.Script.Basic

set_option autoImplicit false

namespace CommandScript

namespace Field

theorem Declares.ne_nil {text type name value : List Char} (declares : Declares text type name value) : text ≠ [] := by
  obtain ⟨_, _, _, _, _, _, typed⟩ := declares
  exact List.append_ne_nil_of_left_ne_nil typed _

theorem declares_tight (declared type name value : List Char) (declares : Declares (Text.trim declared) type name value) :
    Text.Tight (Text.trim declared) :=
  (Text.trim_tight_or_empty declared).resolve_left declares.ne_nil

theorem without_quotes_quoted (quote : Char) (quotes : quote = '"' ∨ quote = '\'') (s : List Char) :
    withoutQuotes (quote :: (s ++ [quote])) = s := by
  simp [withoutQuotes, quotes]

theorem convert_integer (n : Int64) : convert "int".toList (Number.integerText n.toInt).toList = .int n := by
  have keyword : Text.isKeyword "int" "int".toList = true := by decide
  rw [convert, if_pos keyword, Number.read_int64_text, Option.getD_some]

theorem convert_text (text : List Char) : convert "string".toList text = .text (String.ofList (withoutQuotes text)) := by
  have noInteger : Text.isKeyword "int" "string".toList = false := by decide
  have noFloat : (Text.isKeyword "float" "string".toList || Text.isKeyword "double" "string".toList) = false := by decide
  have noBool : Text.isKeyword "bool" "string".toList = false := by decide
  have keyword : Text.isKeyword "string" "string".toList = true := by decide
  rw [convert, noInteger, noFloat, noBool, keyword]
  rfl

end Field

namespace Line

theorem classify_marked (line declared : List Char) (marked : Text.trim line = Field.marker.toList ++ declared) :
    classify line = ofDeclaration declared := by
  have filled : (Text.trim line).isEmpty = false := by
    rw [marked]
    rfl
  have found : marked? (Text.trim line) = some declared := by
    rw [marked?, marked, if_pos (List.isPrefixOf_iff_prefix.mpr (List.prefix_append _ _)), List.drop_left' String.length_toList]
  simp only [classify, filled, found]
  rfl

theorem of_declaration_declares (declared type name value : List Char)
    (declares : Field.Declares (Text.trim declared) type name value) :
    ofDeclaration declared = .field (String.ofList name) (Field.convert type (Text.trim value)) := by
  have read := Field.of_chars_tight declares (Field.declares_tight declared type name value declares)
  simp only [ofDeclaration, read]

theorem of_declaration_malformed (declared : List Char)
    (none : ¬ ∃ type name value, Field.Declares (Text.trim declared) type name value) :
    ofDeclaration declared = .malformed (String.ofList (Text.trim declared)) := by
  cases read : Field.Declaration.ofChars? (Text.trim declared) with
  | none => simp only [ofDeclaration, read]
  | some d => exact absurd ⟨d.type, d.name, d.value, Field.of_chars_declares _ d read⟩ none

end Line

namespace Script

def fieldsAt (number : Nat) (script : Script) : List FieldMarker :=
  script.fields.filter fun marker => marker.line == number

def errorsAt (number : Nat) (errors : List MarkerError) : List MarkerError :=
  errors.filter fun error => error.line == number

section Views

variable {α : Type} (view : Nat × Line → Option α) (number : α → Nat)
  (own : ∀ line item, view line = some item → number item = line.1)

include own

theorem view_elsewhere (lines : List (List Char)) (place : Nat → Nat) (target : Nat)
    (apart : ∀ index, index < lines.length → place index ≠ target) :
    (lines.mapIdx fun index line => (place index, Line.classify line)).filterMap
      (fun line => (view line).filter fun item => number item == target) = [] := by
  refine List.filterMap_eq_nil_iff.mpr fun line listed => ?_
  obtain ⟨index, inside, rfl⟩ := List.mem_mapIdx.mp listed
  rw [Option.filter_eq_none_iff]
  intro item viewed
  rw [own _ item viewed, beq_iff_eq]
  exact apart index inside

-- What is picked from the lines with a line's number is what is picked from that line.
theorem view_at (text : String) (before : List (List Char)) (line : List Char) (after : List (List Char))
    (placed : Text.lines text.toList = before ++ line :: after) :
    ((numberedLines text).filterMap view).filter (fun item => number item == before.length + 1) =
      [(before.length + 1, Line.classify line)].filterMap view := by
  have here : (view (before.length + 1, Line.classify line)).filter (fun item => number item == before.length + 1) =
      view (before.length + 1, Line.classify line) := by
    cases viewed : view (before.length + 1, Line.classify line) with
    | none => rfl
    | some item => rw [Option.filter_some, own _ item viewed, if_pos (beq_self_eq_true _)]
  have earlier := view_elsewhere view number own before (· + 1) (before.length + 1) fun index inside => by omega
  have later := view_elsewhere view number own after (· + 1 + before.length + 1) (before.length + 1) fun index inside => by omega
  rw [numberedLines, placed, List.filter_filterMap, List.mapIdx_append, List.mapIdx_cons, List.filterMap_append, earlier,
    List.nil_append, Nat.zero_add, List.filterMap_cons, here, later]
  rfl

end Views

-- What the marker in a line of a script comes to. The pattern is the same format, read greedily.
structure MarkerRead (name text : String) (number : Nat) (declaration : List Char) : Prop where
  field : ∀ type field value, Field.Declares declaration type field value →
    fieldsAt number (ofText name text) = [⟨number, String.ofList field, Field.convert type (Text.trim value)⟩] ∧
      errorsAt number (markerErrors text) = []
  malformed : (¬ ∃ type field value, Field.Declares declaration type field value) →
    fieldsAt number (ofText name text) = [] ∧ errorsAt number (markerErrors text) = [⟨number, String.ofList declaration⟩]
  unique : ∀ type field value, Field.Declares declaration type field value → ∀ type' field' value',
    Field.Declares declaration type' field' value' → type = type' ∧ field = field' ∧ Text.trimStart value = Text.trimStart value'
  matched : ∀ parts, Text.firstMatch Field.pattern declaration = some parts → ∃ type gap field before after value,
    parts = [type, gap, field, before, ['='], after, value] ∧ Field.Declares declaration type field value
  unmatched : Text.firstMatch Field.pattern declaration = none → ¬ ∃ type field value, Field.Declares declaration type field value

theorem fields_at (name text : String) (before : List (List Char)) (line : List Char) (after : List (List Char))
    (placed : Text.lines text.toList = before ++ line :: after) :
    fieldsAt (before.length + 1) (ofText name text) = fieldsOf [(before.length + 1, Line.classify line)] := by
  unfold fieldsAt ofText fieldsOf
  refine view_at _ FieldMarker.line (fun other item viewed => ?_) text before line after placed
  obtain ⟨number, read⟩ := other
  cases read with
  | field =>
    obtain rfl := Option.some.inj viewed
    rfl
  | blank | comment | malformed | command => cases viewed

theorem errors_at (text : String) (before : List (List Char)) (line : List Char) (after : List (List Char))
    (placed : Text.lines text.toList = before ++ line :: after) :
    errorsAt (before.length + 1) (markerErrors text) = errorsOf [(before.length + 1, Line.classify line)] := by
  unfold errorsAt markerErrors errorsOf
  refine view_at _ MarkerError.line (fun other item viewed => ?_) text before line after placed
  obtain ⟨number, read⟩ := other
  cases read with
  | malformed =>
    obtain rfl := Option.some.inj viewed
    rfl
  | blank | comment | field | command => cases viewed

theorem marker_read (name text : String) (before : List (List Char)) (line : List Char) (after : List (List Char))
    (declared : List Char) (placed : Text.lines text.toList = before ++ line :: after)
    (marked : Text.trim line = Field.marker.toList ++ declared) :
    MarkerRead name text (before.length + 1) (Text.trim declared) := by
  have fields := fields_at name text before line after placed
  have errors := errors_at text before line after placed
  rw [Line.classify_marked line declared marked] at fields errors
  have single : '\n' ∉ Text.trim declared := by
    intro within
    have written : '\n' ∈ Text.trim line := marked ▸ List.mem_append_right _ (Text.mem_of_mem_trim declared _ within)
    refine Text.feed_not_mem_line text.toList line ?_ (Text.mem_of_mem_trim line _ written)
    rw [placed]
    exact List.mem_append_right before List.mem_cons_self
  refine ⟨fun type field value declares => ?field, fun none => ?malformed, fun type field value declares => ?unique,
    fun parts found => ?matched, fun none => ?unmatched⟩
  case field =>
    rw [fields, errors, Line.of_declaration_declares declared type field value declares]
    exact ⟨rfl, rfl⟩
  case malformed =>
    rw [fields, errors, Line.of_declaration_malformed declared none]
    exact ⟨rfl, rfl⟩
  case unique => exact Field.declares_unique declares (Field.declares_tight declared type field value declares)
  case matched => exact Field.pattern_declares _ parts found
  case unmatched =>
    rintro ⟨type, field, value, declares⟩
    exact Field.declares_matched _ type field value declares single none

-- A script of one line: a marker with one space between the parts of its declaration.
theorem spaced_marker (name text : String) (type field value : List Char)
    (spelled : text.toList = Field.marker.toList ++ (type ++ ' ' :: (field ++ ' ' :: '=' :: ' ' :: value)))
    (typed : type ≠ []) (typeWord : ∀ c ∈ type, Text.isUnicodeWordChar c = true)
    (named : field ≠ []) (nameWord : ∀ c ∈ field, Text.isUnicodeWordChar c = true)
    (tight : Text.Tight value) (single : '\n' ∉ value) :
    ofText name text = ⟨name, [], [⟨1, String.ofList field, Field.convert type value⟩]⟩ ∧ markerErrors text = [] := by
  have declares : Field.Declares (type ++ ' ' :: (field ++ ' ' :: '=' :: ' ' :: value)) type field value :=
    .intro type [' '] field [' '] [' '] value typed typeWord (List.cons_ne_nil _ _) rfl named nameWord rfl rfl tight.ne_nil
  have declaredTight : Text.Tight (type ++ ' ' :: (field ++ ' ' :: '=' :: ' ' :: value)) := by
    have word := Text.tight_of_all type typed fun c member => Text.unicode_word_dark c (typeWord c member)
    simpa using Text.tight_framed type (' ' :: (field ++ [' ', '=', ' '])) value word tight
  have marked : Text.trim text.toList = Field.marker.toList ++ (type ++ ' ' :: (field ++ ' ' :: '=' :: ' ' :: value)) := by
    rw [spelled]
    exact Text.trim_tight _ (Text.tight_framed ['/'] "/ @field:".toList _ (Text.tight_single '/' (by decide)) declaredTight)
  have noFeed (word : List Char) (all : ∀ c ∈ word, Text.isUnicodeWordChar c = true) : '\n' ∉ word := fun within =>
    absurd (Text.unicode_word_dark '\n' (all '\n' within)) (by decide)
  have oneLine : Text.lines text.toList = [text.toList] := by
    refine Text.lines_single text.toList (by rw [spelled]; exact List.cons_ne_nil _ _) ?_
    have prefixed : '\n' ∉ Field.marker.toList := by decide
    simp [spelled, prefixed, noFeed type typeWord, noFeed field nameWord, single]
  have numbered : numberedLines text = [(1, .field (String.ofList field) (Field.convert type value))] := by
    rw [numberedLines, oneLine, List.mapIdx_singleton, Line.classify_marked _ _ marked, Line.of_declaration_declares _ type field value
      (by rwa [Text.trim_tight _ declaredTight]), Text.trim_tight value tight]
  rw [ofText, markerErrors, numbered]
  exact ⟨rfl, rfl⟩

-- A marker declares a field exactly if it is written as a declaration; integers and texts come back from their markers.
theorem markers_declare_fields (name : String) :
    (∀ (text : String) (before : List (List Char)) (line : List Char) (after : List (List Char)) (declared : List Char),
      Text.lines text.toList = before ++ line :: after → Text.trim line = Field.marker.toList ++ declared →
        MarkerRead name text (before.length + 1) (Text.trim declared)) ∧
    ∀ field : String, field.toList ≠ [] → (∀ c ∈ field.toList, Text.isUnicodeWordChar c = true) →
      (∀ n : Int64,
        ofText name (Field.marker ++ "int " ++ field ++ " = " ++ Number.integerText n.toInt) = ⟨name, [], [⟨1, field, .int n⟩]⟩ ∧
        markerErrors (Field.marker ++ "int " ++ field ++ " = " ++ Number.integerText n.toInt) = []) ∧
      ∀ s : String, '\n' ∉ s.toList →
        ofText name (Field.marker ++ "string " ++ field ++ " = \"" ++ s ++ "\"") = ⟨name, [], [⟨1, field, .text s⟩]⟩ ∧
        markerErrors (Field.marker ++ "string " ++ field ++ " = \"" ++ s ++ "\"") = [] := by
  refine ⟨marker_read name, fun field named nameWord => ⟨fun n => ?integer, fun s single => ?quoted⟩⟩
  case integer =>
    have numerals := Writing.integer_text_numerals n
    have tight := Writing.numerals_tight _ (Writing.integer_text_ne_nil n) numerals
    have noFeed : '\n' ∉ (Number.integerText n.toInt).toList := fun within => absurd (numerals '\n' within) (by decide)
    have read := spaced_marker name (Field.marker ++ "int " ++ field ++ " = " ++ Number.integerText n.toInt) "int".toList field.toList
      (Number.integerText n.toInt).toList (by simp) (by decide) (List.all_eq_true.mp (by decide)) named nameWord tight noFeed
    rwa [Field.convert_integer, String.ofList_toList] at read
  case quoted =>
    have tight : Text.Tight ('"' :: (s.toList ++ ['"'])) := Writing.quoted_tight '"' (by decide) s.toList
    have read := spaced_marker name (Field.marker ++ "string " ++ field ++ " = \"" ++ s ++ "\"") "string".toList field.toList
      ('"' :: (s.toList ++ ['"'])) (by simp) (by decide) (List.all_eq_true.mp (by decide)) named nameWord tight (by simp [single])
    rwa [Field.convert_text, Field.without_quotes_quoted '"' (.inl rfl), String.ofList_toList, String.ofList_toList] at read

-- The value keeps its sign of equality and the quotes around its last word.
theorem formula_is_declared :
    fieldsAt 2 (ofText "main" "Run()\n // @field:string formula= a = 'b'\n") = [⟨2, "formula", .text "a = 'b'"⟩] ∧
      errorsAt 2 (markerErrors "Run()\n // @field:string formula= a = 'b'\n") = [] ∧
      ofText "main" (Field.marker ++ "string " ++ "motto" ++ " = \"" ++ "'x' = \"y\"" ++ "\"") =
        ⟨"main", [], [⟨1, "motto", .text "'x' = \"y\""⟩]⟩ := by
  have placed : Text.lines "Run()\n // @field:string formula= a = 'b'\n".toList =
      ["Run()".toList] ++ " // @field:string formula= a = 'b'".toList :: [] := by decide +kernel
  have marked : Text.trim " // @field:string formula= a = 'b'".toList = Field.marker.toList ++ "string formula= a = 'b'".toList := by
    decide +kernel
  have spelled : Text.trim "string formula= a = 'b'".toList =
      "string".toList ++ ([' '] ++ ("formula".toList ++ ([] ++ '=' :: ([' '] ++ "a = 'b'".toList)))) := by decide +kernel
  have declares : Field.Declares (Text.trim "string formula= a = 'b'".toList) "string".toList "formula".toList "a = 'b'".toList := by
    rw [spelled]
    exact .intro _ _ _ _ _ _ (by decide) (List.all_eq_true.mp (by decide)) (by decide) rfl (by decide)
      (List.all_eq_true.mp (by decide)) rfl rfl (by decide)
  have trimmed : Field.withoutQuotes (Text.trim "a = 'b'".toList) = "a = 'b'".toList := by decide +kernel
  obtain ⟨fields, errors⟩ := ((markers_declare_fields "main").1 _ _ _ _ _ placed marked).field _ _ _ declares
  rw [Field.convert_text, trimmed, String.ofList_toList, String.ofList_toList] at fields
  have recovered := (markers_declare_fields "main").2 "motto" (by decide) (List.all_eq_true.mp (by decide))
  obtain ⟨motto, _⟩ := recovered.2 "'x' = \"y\"" (by decide)
  exact ⟨fields, errors, motto⟩

end Script

end CommandScript
