import CommandScript.Proofs.Command.Writing
import CommandScript.Proofs.Number

set_option autoImplicit false

namespace CommandScript.Writing

theorem unescape_hidden (quote c : Char) (rest : List Char) :
    Literal.unescape quote ('\\' :: c :: rest) = (Literal.unescape quote rest).map (Literal.unescaped c ++ ·) := by
  rw [Literal.unescape]

theorem unescape_plain (quote c : Char) (rest : List Char) (plain : c ≠ '\\') (inside : c ≠ quote) :
    Literal.unescape quote (c :: rest) = (Literal.unescape quote rest).map (c :: ·) := by
  rw [Literal.unescape, if_neg inside]
  · rintro rfl
    exact absurd rfl plain
  · rintro d tail rfl
    exact absurd rfl plain

theorem unescape_escape (quote : Char) (quotes : Arguments.isQuote quote = true) (s : List Char) :
    Literal.unescape quote (escape quote s) = some s := by
  induction s with
  | nil => rfl
  | cons c rest ih =>
    by_cases hides : c = '\\' ∨ c = quote
    · have self : Literal.unescaped c = [c] := by
        rcases hides with rfl | rfl
        · rfl
        · simp only [Arguments.isQuote, Bool.or_eq_true, beq_iff_eq] at quotes
          rcases quotes with rfl | rfl <;> rfl
      rw [escape, if_pos hides, unescape_hidden, ih, Option.map_some, self, List.singleton_append]
    · obtain ⟨plain, inside⟩ := not_or.mp hides
      rw [escape, if_neg hides, unescape_plain quote c _ plain inside, ih, Option.map_some]

theorem escape_inside (quote : Char) (s : List Char) : Arguments.Inside quote (escape quote s) := by
  induction s with
  | nil => exact .nil
  | cons c rest ih =>
    by_cases hides : c = '\\' ∨ c = quote
    · rw [escape, if_pos hides]
      exact .hidden c _ ih
    · obtain ⟨plain, inside⟩ := not_or.mp hides
      rw [escape, if_neg hides]
      exact .plain c _ plain inside ih

theorem quoted_tight (quote : Char) (quotes : Arguments.isQuote quote = true) (s : List Char) :
    Text.Tight (quote :: (s ++ [quote])) := by
  have dark : Text.isBlank quote = false := by
    simp only [Arguments.isQuote, Bool.or_eq_true, beq_iff_eq] at quotes
    rcases quotes with rfl | rfl <;> decide
  exact ⟨⟨quote, s ++ [quote], rfl, dark⟩, ⟨quote, quote :: s, rfl, dark⟩⟩

theorem unquote_quoted (quote : Char) (quotes : Arguments.isQuote quote = true) (s : List Char) :
    Literal.unquote (quote :: (escape quote s ++ [quote])) = some s := by
  rw [Literal.unquote, if_pos quotes, Text.without_last_append, Option.bind_some, unescape_escape quote quotes]

theorem unquote_none (c : Char) (rest : List Char) (plain : Arguments.isQuote c = false) :
    Literal.unquote (c :: rest) = none := by
  rw [Literal.unquote, plain, if_neg Bool.false_ne_true]

theorem identifier_closed (s : List Char) (identifier : Text.isIdentifier s = true) : Arguments.Closed s :=
  Arguments.walk_inert s fun c member => Arguments.word_inert c (((Text.identifier_iff s).mp identifier).2 c member)

theorem numerals_closed (s : List Char) (numerals : ∀ c ∈ s, Number.isNumeral c = true) : Arguments.Closed s :=
  Arguments.walk_inert s fun c member => Arguments.inert_of_others Number.isNumeral c (numerals c member) (by decide)

theorem word_not_quote (c : Char) (word : Text.isWordChar c = true) : Arguments.isQuote c = false := by
  rw [Bool.eq_false_iff]
  intro quotes
  simp only [Arguments.isQuote, Bool.or_eq_true, beq_iff_eq] at quotes
  rcases quotes with rfl | rfl <;> simp [Text.isWordChar] at word

theorem identifier_not_quoted (s : List Char) (identifier : Text.isIdentifier s = true) : Literal.unquote s = none := by
  obtain ⟨nonempty, word⟩ := (Text.identifier_iff s).mp identifier
  obtain ⟨c, rest, rfl⟩ := List.exists_cons_of_ne_nil nonempty
  exact unquote_none c rest (word_not_quote c (word c List.mem_cons_self))

theorem named_identifier (word : String) (known : word ∈ ["null", "true", "false"]) (token : List Char)
    (keyword : Text.isKeyword word token = true) : Text.isIdentifier token = true := by
  simp only [List.mem_cons, List.not_mem_nil, or_false] at known
  rcases known with rfl | rfl | rfl <;> exact Text.keyword_identifier _ token keyword (by decide) rfl

-- None of the rules in front of those for numbers fits.
structure Unnamed (token : List Char) : Prop where
  noNull : Text.isKeyword "null" token = false
  noText : Literal.unquote token = none
  noTrue : Text.isKeyword "true" token = false
  noFalse : Text.isKeyword "false" token = false

theorem unnamed_of_first (c : Char) (rest : List Char) (plain : Arguments.isQuote c = false)
    (letter : c.toLower ≠ 'n' ∧ c.toLower ≠ 't' ∧ c.toLower ≠ 'f') : Unnamed (c :: rest) := by
  obtain ⟨noNull, noTrue, noFalse⟩ := letter
  refine ⟨?_, unquote_none c rest plain, ?_, ?_⟩
  · exact Text.not_keyword_of_first "null" c rest fun same => noNull (Option.some.inj same).symm
  · exact Text.not_keyword_of_first "true" c rest fun same => noTrue (Option.some.inj same).symm
  · exact Text.not_keyword_of_first "false" c rest fun same => noFalse (Option.some.inj same).symm

theorem numeral_first (c : Char) (numeral : Number.isNumeral c = true) :
    Arguments.isQuote c = false ∧ c.toLower ≠ 'n' ∧ c.toLower ≠ 't' ∧ c.toLower ≠ 'f' := by
  rcases Number.numeral_code c numeral with code | rfl | rfl
  · have lower : c.toLower = c := by
      rcases Text.to_lower_code c with same | upper
      · exact same
      · omega
    rw [lower]
    refine ⟨?_, ?_, ?_, ?_⟩
    · rw [Bool.eq_false_iff]
      intro quotes
      simp only [Arguments.isQuote, Bool.or_eq_true, beq_iff_eq] at quotes
      rcases quotes with rfl | rfl <;> simp at code
    all_goals
      rintro rfl
      simp at code
  · decide
  · decide

theorem numerals_unnamed (s : List Char) (nonempty : s ≠ []) (numerals : ∀ c ∈ s, Number.isNumeral c = true) :
    Unnamed s := by
  obtain ⟨c, rest, rfl⟩ := List.exists_cons_of_ne_nil nonempty
  obtain ⟨plain, letter⟩ := numeral_first c (numerals c List.mem_cons_self)
  exact unnamed_of_first c rest plain letter

theorem atom_unnamed (token : List Char) (unnamed : Unnamed token) :
    Literal.atom? token = ((Number.readInt64 token).map Value.int).or ((Number.readFinite token).map Value.ofFloat) := by
  rw [Literal.atom?, unnamed.noNull, unnamed.noText, unnamed.noTrue, unnamed.noFalse]
  cases Number.readInt64 token <;> cases Number.readFinite token <;> rfl

theorem atom_none (c : Char) (rest : List Char) (plain : Arguments.isQuote c = false)
    (letter : c.toLower ≠ 'n' ∧ c.toLower ≠ 't' ∧ c.toLower ≠ 'f') (other : Number.isNumeral c = false) :
    Literal.atom? (c :: rest) = none := by
  rw [atom_unnamed _ (unnamed_of_first c rest plain letter), Number.read_int64_none _ c List.mem_cons_self other,
    Number.read_finite_none _ c List.mem_cons_self other]
  rfl

theorem integer_text_numerals (n : Int64) : ∀ c ∈ (Number.integerText n.toInt).toList, Number.isNumeral c = true :=
  Number.read_int64_numerals _ n (Number.read_int64_text n)

theorem integer_text_ne_nil (n : Int64) : (Number.integerText n.toInt).toList ≠ [] := by
  intro empty
  have read := Number.read_int64_text n
  rw [empty] at read
  simp [Number.readInt64, Number.readInteger, Number.splitSign, Number.isDigits] at read

theorem numerals_tight (s : List Char) (nonempty : s ≠ []) (numerals : ∀ c ∈ s, Number.isNumeral c = true) :
    Text.Tight s :=
  Text.tight_of_all s nonempty fun c member => Number.numeral_dark c (numerals c member)

theorem reference_closed (name : List Char) (identifier : Text.isIdentifier name = true) : Arguments.Closed ('$' :: name) :=
  Arguments.closed_append ['$'] name rfl (identifier_closed name identifier)

theorem reference_tight (name : List Char) (identifier : Text.isIdentifier name = true) : Text.Tight ('$' :: name) := by
  refine Text.tight_of_all _ (List.cons_ne_nil '$' name) fun c member => ?_
  rcases List.mem_cons.mp member with rfl | later
  · decide
  · exact Text.word_dark c (((Text.identifier_iff name).mp identifier).2 c later)

theorem atom_closed (value : Value) (token : List Char) (written : AtomText value token) : Arguments.Closed token := by
  cases written with
  | null _ keyword => exact identifier_closed token (named_identifier "null" (by decide) token keyword)
  | true _ keyword => exact identifier_closed token (named_identifier "true" (by decide) token keyword)
  | false _ keyword => exact identifier_closed token (named_identifier "false" (by decide) token keyword)
  | int n => exact numerals_closed _ (integer_text_numerals n)
  | float x _ reads _ => exact numerals_closed token (Number.read_finite_numerals token x reads)
  | text s quote quotes => exact Arguments.quoted_closed quote _ quotes (escape_inside quote s.toList)
  | reference name identifier => exact reference_closed name.toList identifier

theorem atom_tight (value : Value) (token : List Char) (written : AtomText value token) : Text.Tight token := by
  cases written with
  | null _ keyword => exact Text.identifier_tight token (named_identifier "null" (by decide) token keyword)
  | true _ keyword => exact Text.identifier_tight token (named_identifier "true" (by decide) token keyword)
  | false _ keyword => exact Text.identifier_tight token (named_identifier "false" (by decide) token keyword)
  | int n => exact numerals_tight _ (integer_text_ne_nil n) (integer_text_numerals n)
  | float x _ reads _ =>
    exact numerals_tight token (Number.read_finite_ne_nil token x reads) (Number.read_finite_numerals token x reads)
  | text s quote quotes => exact quoted_tight quote quotes (escape quote s.toList)
  | reference name identifier => exact reference_tight name.toList identifier

theorem atom_value (value : Value) (token : List Char) (written : AtomText value token) (plain : isReference value = false) :
    Literal.atom? token = some value := by
  cases written with
  | null _ keyword => rw [Literal.atom?, if_pos keyword]
  | true _ keyword =>
    have noNull := Text.keyword_unique "true" "null" token keyword (by decide)
    have noText := identifier_not_quoted token (named_identifier "true" (by decide) token keyword)
    rw [Literal.atom?, noNull, noText, keyword]
    rfl
  | false _ keyword =>
    have noNull := Text.keyword_unique "false" "null" token keyword (by decide)
    have noText := identifier_not_quoted token (named_identifier "false" (by decide) token keyword)
    have noTrue := Text.keyword_unique "false" "true" token keyword (by decide)
    rw [Literal.atom?, noNull, noText, noTrue, keyword]
    rfl
  | int n =>
    rw [atom_unnamed _ (numerals_unnamed _ (integer_text_ne_nil n) (integer_text_numerals n)), Number.read_int64_text]
    rfl
  | float x _ reads fraction =>
    have unnamed := numerals_unnamed token (Number.read_finite_ne_nil token x reads)
      (Number.read_finite_numerals token x reads)
    rw [atom_unnamed token unnamed, fraction, reads]
    rfl
  | text s quote quotes =>
    have noNull : Text.isKeyword "null" (quote :: (escape quote s.toList ++ [quote])) = false := by
      apply Text.not_keyword_of_first
      simp only [Arguments.isQuote, Bool.or_eq_true, beq_iff_eq] at quotes
      rcases quotes with rfl | rfl <;> decide
    rw [Literal.atom?, noNull, unquote_quoted quote quotes]
    simp
  | reference name _ => simp [isReference] at plain

theorem reference_value (name : String) (identifier : Text.isIdentifier name.toList = true)
    (composite : String → List Char → Except SyntaxError Value) :
    Literal.readWith composite ('$' :: name.toList) = .ok (.reference name) := by
  have absent : '(' ∉ '$' :: name.toList := by
    intro member
    rcases List.mem_cons.mp member with dollar | later
    · simp at dollar
    · simpa [Text.isWordChar] using ((Text.identifier_iff _).mp identifier).2 _ later
  have noComposite : Literal.constructor? ('$' :: name.toList) = none := by
    rw [Literal.constructor?, Text.cut_at_none '(' _ absent]
    rfl
  rw [Literal.readWith, Text.trim_tight _ (reference_tight name.toList identifier)]
  simp [atom_none '$' name.toList rfl (by decide) (by decide), noComposite, Literal.reference?, identifier]

theorem atom_read (value : Value) (token : List Char) (written : AtomText value token)
    (composite : String → List Char → Except SyntaxError Value) : Literal.readWith composite token = .ok value := by
  cases refers : isReference value with
  | false =>
    rw [Literal.readWith, Text.trim_tight token (atom_tight value token written)]
    simp [atom_value value token written refers]
  | true =>
    cases written with
    | reference name identifier => exact reference_value name identifier composite
    | null | true | false | int | float | text => simp [isReference, Value.ofFloat] at refers

end CommandScript.Writing

namespace CommandScript.Literal

theorem reference_written (token name : List Char) (refers : reference? token = some name) :
    token = '$' :: name ∧ Text.isIdentifier name = true := by
  unfold reference? at refers
  split at refers
  · split_ifs at refers with identifier
    obtain rfl := Option.some.inj refers
    exact ⟨rfl, identifier⟩
  · simp at refers

end CommandScript.Literal
