import CommandScript.Proofs.Command.Call
import CommandScript.Proofs.Command.Segment

set_option autoImplicit false

namespace CommandScript

namespace Arguments

-- A list that can be cut may stand between two parentheses.
theorem split_encloses (s : List Char) (tokens : List (List Char)) (cut : split s = .ok tokens) (depth : Nat) :
    (Place.plain (depth + 1)).walk s = some (.plain (depth + 1)) := by
  rcases (split_ok_iff s tokens).mp cut with ⟨blank, _⟩ | ⟨pieces, nonempty, rfl, sound, _⟩
  · exact closed_inside s (blanks_closed s blank) (depth + 1)
  · exact pieces_enclose depth pieces nonempty fun piece member => (sound piece member).1

theorem enclosed_closed (before inside : List Char) (tokens : List (List Char)) (closed : Closed before)
    (cut : split inside = .ok tokens) : Closed (before ++ '(' :: (inside ++ [')'])) := by
  have enclosed : Closed ('(' :: (inside ++ [')'])) := by
    rw [Closed, Place.walk, if_neg (by simp)]
    change (Place.plain 1).walk (inside ++ [')']) = some (.plain 0)
    rw [walk_append, split_encloses inside tokens cut 0]
    rfl
  exact closed_append before _ closed enclosed

end Arguments

namespace Literal

theorem unescape_inside (quote : Char) (s content : List Char) (read : unescape quote s = some content) :
    Arguments.Inside quote s := by
  fun_induction unescape quote s generalizing content with
  | case1 => exact .nil
  | case2 => simp at read
  | case3 c rest ih =>
    obtain ⟨inner, later, _⟩ := Option.map_eq_some_iff.mp read
    exact .hidden c rest (ih inner later)
  | case4 => simp at read
  | case5 c rest last hides noQuote ih =>
    obtain ⟨inner, later, _⟩ := Option.map_eq_some_iff.mp read
    refine .plain c rest ?_ noQuote (ih inner later)
    rintro rfl
    cases rest with
    | nil => exact last rfl rfl
    | cons d others => exact hides d others rfl rfl

theorem unquote_closed (token content : List Char) (read : unquote token = some content) : Arguments.Closed token := by
  cases token with
  | nil => simp [unquote] at read
  | cons quote rest =>
    rw [unquote] at read
    split_ifs at read with quotes
    obtain ⟨inner, ends, read⟩ := Option.bind_eq_some_iff.mp read
    rw [Text.without_last_some quote rest inner ends]
    exact Arguments.quoted_closed quote inner quotes (unescape_inside quote inner content read)

theorem atom_closed (token : List Char) (value : Value) (read : atom? token = some value) : Arguments.Closed token := by
  have named (word : String) (known : word ∈ ["null", "true", "false"]) (keyword : Text.isKeyword word token = true) :
      Arguments.Closed token := Writing.identifier_closed token (Writing.named_identifier word known token keyword)
  unfold atom? at read
  split at read
  · rename_i keyword
    exact named "null" (by decide) keyword
  split at read
  · rename_i content quoted
    exact unquote_closed token content quoted
  split at read
  · rename_i keyword
    exact named "true" (by decide) keyword
  split at read
  · rename_i keyword
    exact named "false" (by decide) keyword
  split at read
  · rename_i n integer
    exact Writing.numerals_closed token (Number.read_int64_numerals token n integer)
  split at read
  · rename_i x fraction
    exact Writing.numerals_closed token (Number.read_finite_numerals token x fraction)
  · simp at read

theorem constructor_written (token name inside : List Char) (built : constructor? token = some (name, inside)) :
    ∃ before, token = before ++ '(' :: (inside ++ [')']) ∧ Text.isIdentifier (Text.trim before) = true := by
  obtain ⟨⟨before, after⟩, cut, built⟩ := Option.bind_eq_some_iff.mp built
  obtain ⟨own, ends, built⟩ := Option.bind_eq_some_iff.mp built
  simp only at built
  split_ifs at built with identifier
  obtain ⟨_, rfl⟩ := Prod.mk.inj (Option.some.inj built)
  rw [Text.cut_at_some '(' token before after cut, Text.without_last_some ')' after own ends]
  exact ⟨before, rfl, identifier⟩

theorem read_with_closed (composite : String → List Char → Except SyntaxError Value)
    (cuts : ∀ name inside value, composite name inside = .ok value → ∃ tokens, Arguments.split inside = .ok tokens)
    (text : List Char) (value : Value) (read : readWith composite text = .ok value) : Arguments.Closed text := by
  rw [← Arguments.closed_trim_iff]
  simp only [readWith] at read
  split at read
  · rename_i found
    exact atom_closed _ _ found
  split at read
  · rename_i name inside built
    obtain ⟨tokens, cut⟩ := cuts _ inside value read
    obtain ⟨before, written, identifier⟩ := constructor_written _ name inside built
    rw [written]
    have leads := (Arguments.closed_trim_iff before).mp (Writing.identifier_closed _ identifier)
    exact Arguments.enclosed_closed before inside tokens leads cut
  split at read
  · rename_i name refers
    obtain ⟨written, identifier⟩ := reference_written _ name refers
    rw [written]
    exact Writing.reference_closed name identifier
  · simp at read

theorem read_with_filled (composite : String → List Char → Except SyntaxError Value) (text : List Char) (value : Value)
    (read : readWith composite text = .ok value) : Text.allBlank text = false := by
  rw [Bool.eq_false_iff]
  intro blank
  have nothing : Literal.atom? [] = none := by decide
  simp [readWith, (Text.trim_nil_iff text).mpr blank, nothing, constructor?, Text.cutAt, reference?] at read

theorem read_closed (text : List Char) (value : Value) (reads : read text = .ok value) : Arguments.Closed text := by
  rw [read, readNested] at reads
  refine read_with_closed _ (fun name inside value built => ?_) text value reads
  obtain ⟨kind, _, built⟩ := ok_of_bind built
  obtain ⟨tokens, cut, _⟩ := ok_of_bind built
  exact ⟨tokens, cut⟩

theorem read_filled (text : List Char) (value : Value) (reads : read text = .ok value) : Text.allBlank text = false := by
  rw [read, readNested] at reads
  exact read_with_filled _ text value reads

-- What reads as a value stands for itself in an argument list.
theorem read_split (text : List Char) (value : Value) (reads : read text = .ok value) :
    Arguments.split text = .ok [Text.trim text] :=
  Arguments.split_sole text (read_closed text value reads) (read_filled text value reads)

theorem read_trim (text : List Char) : read (Text.trim text) = read text := by
  simp only [read, readNested, readWith, Text.trim_again]

end Literal

namespace Command

theorem map_sole {α β ε : Type} (read : α → Except ε β) (inputs : List α) (result : β)
    (mapped : inputs.mapM read = .ok [result]) : ∃ input, inputs = [input] ∧ read input = .ok result := by
  cases inputs with
  | nil => simp [pure, Except.pure] at mapped
  | cons input rest =>
    rw [List.mapM_cons] at mapped
    obtain ⟨own, first, mapped⟩ := ok_of_bind mapped
    obtain ⟨others, later, together⟩ := ok_of_bind mapped
    obtain ⟨rfl, rfl⟩ := List.cons.inj (Except.ok.inj together)
    cases rest with
    | nil => exact ⟨input, rfl, first⟩
    | cons next more =>
      rw [List.mapM_cons] at later
      obtain ⟨_, _, later⟩ := ok_of_bind later
      obtain ⟨_, _, never⟩ := ok_of_bind later
      simp [pure, Except.pure] at never

theorem parse_call (name text : String) (identifier : Text.isIdentifier name.toList = true) :
    parse (name ++ "(" ++ text ++ ")") = do
      let tokens ← Arguments.split text.toList
      let arguments ← tokens.mapM Literal.read
      return ⟨[name], arguments, none⟩ := by
  have single : joinPath [name] = name := by simp [joinPath]
  have parsed := parse_path_call [name] (List.cons_ne_nil name []) (List.forall_mem_singleton.mpr identifier) text
  rwa [single] at parsed

-- A value reads alike by itself and as the only argument of a command.
theorem values_read_as_sole_arguments (name text : String) (value : Value) (identifier : Text.isIdentifier name.toList = true) :
    Literal.read text.toList = .ok value ↔ parse (name ++ "(" ++ text ++ ")") = .ok ⟨[name], [value], none⟩ := by
  rw [parse_call name text identifier]
  constructor
  · intro reads
    rw [Literal.read_split text.toList value reads]
    simp [Literal.read_trim, reads, bind, Except.bind, pure, Except.pure]
  · intro parsed
    obtain ⟨tokens, cut, parsed⟩ := ok_of_bind parsed
    obtain ⟨arguments, mapped, together⟩ := ok_of_bind parsed
    obtain rfl : arguments = [value] := congrArg Command.arguments (Except.ok.inj together)
    obtain ⟨token, rfl, reads⟩ := map_sole Literal.read tokens value mapped
    rwa [Arguments.sole_token text.toList token cut, Literal.read_trim] at reads

theorem corners_read_as_sole_argument :
    Text.isIdentifier "Fill".toList = true ∧
      ∃ value, Literal.read " Bounds( $low ,Vector3(1, $y, -2))".toList = .ok value ∧
        parse ("Fill" ++ "(" ++ " Bounds( $low ,Vector3(1, $y, -2))" ++ ")") = .ok ⟨["Fill"], [value], none⟩ := by
  have identifier : Text.isIdentifier "Fill".toList = true := by decide
  have accepted : (Literal.read " Bounds( $low ,Vector3(1, $y, -2))".toList).isOk = true := by decide +kernel
  refine ⟨identifier, ?_⟩
  cases reads : Literal.read " Bounds( $low ,Vector3(1, $y, -2))".toList with
  | ok value => exact ⟨value, rfl, (values_read_as_sole_arguments "Fill" _ value identifier).mp reads⟩
  | error error =>
    rw [reads] at accepted
    exact absurd accepted Bool.false_ne_true

end Command

end CommandScript
