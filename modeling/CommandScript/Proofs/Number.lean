import CommandScript.Number.Reading
import CommandScript.Proofs.Text

set_option autoImplicit false

namespace CommandScript.Number

-- The characters of numbers.
def isNumeral (c : Char) : Bool :=
  isDigit c || c == '+' || c == '-' || c == '.' || c == 'e' || c == 'E'

theorem digit_numeral (c : Char) (digit : isDigit c = true) : isNumeral c = true := by
  simp [isNumeral, digit]

theorem take_digits_numeral (s : List Char) (c : Char) (member : c ∈ s.takeWhile isDigit) : isNumeral c = true :=
  digit_numeral c (List.all_eq_true.mp List.all_takeWhile c member)

theorem digits_or_later (s : List Char) (c : Char) (member : c ∈ s) :
    c ∈ s.takeWhile isDigit ∨ c ∈ s.dropWhile isDigit := by
  rw [← List.takeWhile_append_dropWhile (p := isDigit) (l := s)] at member
  exact List.mem_append.mp member

theorem split_sign_members (s : List Char) (c : Char) (member : c ∈ s) :
    isNumeral c = true ∨ c ∈ (splitSign s).2 := by
  unfold splitSign
  split
  · rcases List.mem_cons.mp member with rfl | later
    · exact .inl rfl
    · exact .inr later
  · rcases List.mem_cons.mp member with rfl | later
    · exact .inl rfl
    · exact .inr later
  · exact .inr member

theorem read_integer_numerals (s : List Char) (n : Int) (read : readInteger s = some n) (c : Char) (member : c ∈ s) :
    isNumeral c = true := by
  unfold readInteger at read
  by_cases digits : isDigits (splitSign s).2 = true
  · have all : ∀ d ∈ (splitSign s).2, isDigit d = true := by
      simp only [isDigits, Bool.and_eq_true, List.all_eq_true] at digits
      exact digits.2
    rcases split_sign_members s c member with numeral | later
    · exact numeral
    · exact digit_numeral c (all c later)
  · simp [digits] at read

theorem split_fraction_members (s : List Char) (c : Char) (member : c ∈ s) :
    isNumeral c = true ∨ c ∈ (splitFraction s).2 := by
  unfold splitFraction
  split
  · rename_i rest
    rcases List.mem_cons.mp member with rfl | later
    · exact .inl rfl
    · exact (digits_or_later rest c later).imp_left (take_digits_numeral rest c)
  · exact .inr member

theorem read_exponent_numerals (s : List Char) (n : Int) (read : readExponent s = some n) (c : Char) (member : c ∈ s) :
    isNumeral c = true := by
  cases s with
  | nil => simp at member
  | cons mark rest =>
    rw [readExponent] at read
    by_cases exponent : mark = 'e' ∨ mark = 'E'
    · rw [if_pos exponent] at read
      rcases List.mem_cons.mp member with rfl | later
      · rcases exponent with rfl | rfl <;> rfl
      · exact read_integer_numerals rest n read c later
    · simp [exponent] at read

theorem written_numerals (s : List Char) (w : Written) (written : Written.ofChars? s = some w) (c : Char) (member : c ∈ s) :
    isNumeral c = true := by
  unfold Written.ofChars? at written
  simp only at written
  split_ifs at written with empty
  obtain ⟨exponent, read, _⟩ := Option.map_eq_some_iff.mp written
  rcases split_sign_members s c member with numeral | unsigned
  · exact numeral
  rcases digits_or_later _ c unsigned with whole | beyond
  · exact take_digits_numeral _ c whole
  rcases split_fraction_members _ c beyond with numeral | rest
  · exact numeral
  · exact read_exponent_numerals _ exponent read c rest

theorem read_int64_numerals (s : List Char) (n : Int64) (read : readInt64 s = some n) (c : Char) (member : c ∈ s) :
    isNumeral c = true := by
  obtain ⟨exact, integer, _⟩ := Option.bind_eq_some_iff.mp read
  exact read_integer_numerals s exact integer c member

theorem read_finite_numerals (s : List Char) (x : Float) (read : readFinite s = some x) (c : Char) (member : c ∈ s) :
    isNumeral c = true := by
  unfold readFinite at read
  split at read
  · simp at read
  · rename_i w written
    exact written_numerals s w written c member

theorem read_finite_ne_nil (s : List Char) (x : Float) (read : readFinite s = some x) : s ≠ [] := by
  rintro rfl
  simp [readFinite, Written.ofChars?, splitSign, splitFraction] at read

-- A text with any other character in it is no number.
theorem read_int64_none (s : List Char) (c : Char) (member : c ∈ s) (other : isNumeral c = false) : readInt64 s = none := by
  cases read : readInt64 s with
  | none => rfl
  | some n => simp [read_int64_numerals s n read c member] at other

theorem read_finite_none (s : List Char) (c : Char) (member : c ∈ s) (other : isNumeral c = false) : readFinite s = none := by
  cases read : readFinite s with
  | none => rfl
  | some x => simp [read_finite_numerals s x read c member] at other

theorem numeral_code (c : Char) (numeral : isNumeral c = true) :
    (43 ≤ c.toNat ∧ c.toNat ≤ 57) ∨ c = 'e' ∨ c = 'E' := by
  simp only [isNumeral, isDigit, Char.isDigit, Bool.or_eq_true, Bool.and_eq_true, decide_eq_true_eq, beq_iff_eq,
    UInt32.le_iff_toNat_le, ge_iff_le] at numeral
  rcases numeral with ((((digit | rfl) | rfl) | rfl) | rfl) | rfl
  · exact .inl ⟨Nat.le_trans (by decide) digit.1, digit.2⟩
  all_goals decide

theorem numeral_dark (c : Char) (numeral : isNumeral c = true) : Text.isBlank c = false := by
  rcases numeral_code c numeral with code | rfl | rfl
  · exact Text.dark_of_code c (by omega) (by omega)
  all_goals decide

theorem digits_of_value (n : Nat) : digitsValue (digitsOf n) = n := by
  rw [digitsValue, digitsOf, ← Nat.ofDigitChars_eq_foldl]
  exact Nat.ofDigitChars_ten_toDigits

theorem digits_of_digits (n : Nat) : isDigits (digitsOf n) = true := by
  have digits : ∀ c ∈ digitsOf n, isDigit c = true := fun c member =>
    Nat.isDigit_of_mem_toDigits (by decide) (by decide) member
  simpa [isDigits, digitsOf] using digits

theorem split_sign_digits (s : List Char) (digits : isDigits s = true) : splitSign s = (false, s) := by
  unfold splitSign
  split
  · simp [isDigits, isDigit] at digits
  · simp [isDigits, isDigit] at digits
  · rfl

theorem read_integer_text (n : Int) : readInteger (integerText n).toList = some n := by
  cases n with
  | ofNat k =>
    rw [integerText, String.toList_ofList, readInteger, split_sign_digits _ (digits_of_digits k)]
    simp [digits_of_digits k, digits_of_value k]
  | negSucc k =>
    rw [integerText, String.toList_ofList, readInteger, splitSign]
    simp [digits_of_digits (k + 1), digits_of_value (k + 1), Int.negSucc_eq]

theorem read_int64_text (n : Int64) : readInt64 (integerText n.toInt).toList = some n := by
  have low := n.le_toInt
  have high := n.toInt_lt
  have fits : -9223372036854775808 ≤ n.toInt ∧ n.toInt ≤ 9223372036854775807 := by omega
  rw [readInt64, read_integer_text, Option.bind_some, toInt64?, if_pos fits, Int64.ofInt_toInt]

end CommandScript.Number
