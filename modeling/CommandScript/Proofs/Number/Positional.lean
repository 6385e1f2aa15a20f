import CommandScript.Number.Reading
import CommandScript.Number.Rounding
import CommandScript.Proofs.Number
import CommandScript.Proofs.Number.Shortest

set_option autoImplicit false

namespace CommandScript.Number

open Float.Model.Format (binary64)
open Float.Model (UnpackedFloat)
open Float.Model.UnpackedFloat

theorem digits_value_append (first second : List Char) :
    digitsValue (first ++ second) = digitsValue first * 10 ^ second.length + digitsValue second := by
  simp only [digitsValue, ← Nat.ofDigitChars_eq_foldl]
  rw [Nat.ofDigitChars_append, Nat.ofDigitChars_eq_ofDigitChars_zero, Nat.mul_comm]

theorem digits_value_zeros (count : Nat) : digitsValue (List.replicate count '0') = 0 := by
  rw [digitsValue, ← Nat.ofDigitChars_eq_foldl, Nat.ofDigitChars_replicate_zero, Nat.mul_zero]

theorem digits_value_short (s : List Char) (digits : ∀ c ∈ s, isDigit c = true) : digitsValue s < 10 ^ s.length := by
  induction s with
  | nil => decide
  | cons c rest ih =>
    have later := ih fun d member => digits d (List.mem_cons_of_mem c member)
    have first : digitsValue [c] ≤ 9 := by
      have digit := digits c List.mem_cons_self
      simp only [isDigit, Char.isDigit, Bool.and_eq_true, decide_eq_true_eq, UInt32.le_iff_toNat_le, ge_iff_le] at digit
      have code : c.toNat ≤ 57 := digit.2
      change 10 * 0 + (c.toNat - 48) ≤ 9
      omega
    rw [← List.singleton_append, digits_value_append, List.length_append, List.length_singleton, Nat.add_comm 1, Nat.pow_succ]
    nlinarith

theorem digits_iff (s : List Char) : isDigits s = true ↔ s ≠ [] ∧ ∀ c ∈ s, isDigit c = true := by
  simp [isDigits]

def signed (negative : Bool) (s : List Char) : List Char :=
  if negative then '-' :: s else s

theorem split_signed (negative : Bool) (whole rest : List Char) (digits : isDigits whole = true) :
    splitSign (signed negative (whole ++ rest)) = (negative, whole ++ rest) := by
  cases negative with
  | true => rfl
  | false =>
    obtain ⟨nonempty, all⟩ := (digits_iff whole).mp digits
    obtain ⟨c, later, rfl⟩ := List.exists_cons_of_ne_nil nonempty
    have digit := all c List.mem_cons_self
    change splitSign (c :: (later ++ rest)) = (false, c :: (later ++ rest))
    unfold splitSign
    split
    · rename_i same
      obtain ⟨rfl, -⟩ := List.cons.inj same
      exact absurd digit (by decide)
    · rename_i same
      obtain ⟨rfl, -⟩ := List.cons.inj same
      exact absurd digit (by decide)
    · rfl

section Texts

variable (negative : Bool) {whole fraction : List Char}

theorem read_whole (digits : isDigits whole = true) :
    readInteger (signed negative whole) = some (if negative then -(digitsValue whole : Int) else digitsValue whole) := by
  have split := split_signed negative whole [] digits
  rw [List.append_nil] at split
  rw [readInteger, split]
  exact if_pos digits

theorem read_point (digits : isDigits whole = true) : readInteger (signed negative (whole ++ '.' :: fraction)) = none := by
  have stray : ¬ isDigits (whole ++ '.' :: fraction) = true := by
    intro all
    exact absurd (((digits_iff _).mp all).2 '.' (by simp)) (by decide)
  rw [readInteger, split_signed negative whole _ digits]
  exact if_neg stray

theorem written_whole (digits : isDigits whole = true) : Written.ofChars? (signed negative whole) = some ⟨negative, whole, [], 0⟩ := by
  have split := split_signed negative whole [] digits
  obtain ⟨nonempty, all⟩ := (digits_iff whole).mp digits
  rw [List.append_nil] at split
  rw [Written.ofChars?, split]
  dsimp only
  rw [List.takeWhile_eq_self_iff.mpr all, List.dropWhile_eq_nil_iff.mpr all]
  exact if_neg fun both => nonempty (List.isEmpty_iff.mp both.1)

theorem written_point (digits : isDigits whole = true) (all : ∀ c ∈ fraction, isDigit c = true) :
    Written.ofChars? (signed negative (whole ++ '.' :: fraction)) = some ⟨negative, whole, fraction, 0⟩ := by
  obtain ⟨nonempty, before⟩ := (digits_iff whole).mp digits
  have point : isDigit '.' = false := by decide
  rw [Written.ofChars?, split_signed negative whole _ digits]
  dsimp only
  rw [List.takeWhile_append_of_pos before, List.dropWhile_append_of_pos before, List.takeWhile_cons_of_neg (by rw [point]; decide),
    List.dropWhile_cons_of_neg (by rw [point]; decide), List.append_nil, splitFraction]
  dsimp only
  rw [List.takeWhile_eq_self_iff.mpr all, List.dropWhile_eq_nil_iff.mpr all]
  exact if_neg fun both => nonempty (List.isEmpty_iff.mp both.1)

end Texts

namespace Decimal

variable (d : Decimal)

theorem positional_whole (above : 0 ≤ d.exponent) : isDigits d.positional = true ∧ (digitsValue d.positional : ℚ) = d.value := by
  obtain ⟨nonempty, all⟩ := (digits_iff _).mp (digits_of_digits d.digits)
  rw [positional, if_pos above]
  constructor
  · refine (digits_iff _).mpr ⟨List.append_ne_nil_of_left_ne_nil nonempty _, fun c member => ?_⟩
    rcases List.mem_append.mp member with digit | zero
    · exact all c digit
    · rw [List.eq_of_mem_replicate zero]
      decide
  · obtain ⟨zeros, same⟩ := Int.eq_ofNat_of_zero_le above
    rw [digits_value_append, digits_of_value, digits_value_zeros, List.length_replicate, value, same, Int.toNat_natCast, zpow_natCast]
    push_cast
    ring

theorem positional_point (below : d.exponent < 0) : ∃ whole fraction, d.positional = whole ++ '.' :: fraction ∧
    isDigits whole = true ∧ (∀ c ∈ fraction, isDigit c = true) ∧
    (digitsValue (whole ++ fraction) : ℚ) * 10 ^ (-(fraction.length : Int)) = d.value := by
  obtain ⟨nonempty, all⟩ := (digits_iff _).mp (digits_of_digits d.digits)
  have value (whole fraction : List Char) (digits : digitsValue (whole ++ fraction) = d.digits)
      (length : (fraction.length : Int) = -d.exponent) :
      (digitsValue (whole ++ fraction) : ℚ) * 10 ^ (-(fraction.length : Int)) = d.value := by
    rw [digits, length, neg_neg, Decimal.value]
  rw [positional, if_neg (not_le.mpr below)]
  by_cases inside : 0 < ((digitsOf d.digits).length : Int) + d.exponent
  · have point : ((digitsOf d.digits).length : Int) + d.exponent = (((digitsOf d.digits).length : Int) + d.exponent).toNat := by omega
    generalize (((digitsOf d.digits).length : Int) + d.exponent).toNat = place at point
    rw [if_pos inside, point, Int.toNat_natCast]
    refine ⟨_, _, rfl, (digits_iff _).mpr ⟨?_, fun c member => all c (List.mem_of_mem_take member)⟩,
      fun c member => all c (List.mem_of_mem_drop member), value _ _ ?_ ?_⟩
    · rw [Ne, List.take_eq_nil_iff]
      rintro (none | none)
      · omega
      · exact nonempty none
    · rw [List.take_append_drop, digits_of_value]
    · rw [List.length_drop, Nat.cast_sub (by omega)]
      omega
  · rw [if_neg inside]
    refine ⟨['0'], _, rfl, by decide, fun c member => ?_, value _ _ ?_ ?_⟩
    · rcases List.mem_append.mp member with zero | digit
      · rw [List.eq_of_mem_replicate zero]
        decide
      · exact all c digit
    · rw [← List.append_assoc, digits_value_append, digits_of_value, ← List.replicate_one, ← List.replicate_add, digits_value_zeros,
        Nat.zero_mul, Nat.zero_add]
    · rw [List.length_append, List.length_replicate]
      omega

end Decimal

theorem ten_outruns : (2 : ℚ) ^ (1024 : Int) ≤ 10 ^ (400 : Int) ∧ (10 : ℚ) ^ (-400 : Int) ≤ 2 ^ (-1075 : Int) := by
  have reach : (2 : ℚ) ^ 1200 ≤ 10 ^ 400 := calc
    (2 : ℚ) ^ 1200 = (2 ^ 3) ^ 400 := (pow_mul 2 3 400)
    _ ≤ 10 ^ 400 := pow_le_pow_left₀ (by norm_num) (by norm_num) 400
  rw [← zpow_natCast, ← zpow_natCast, Nat.cast_ofNat, Nat.cast_ofNat] at reach
  constructor
  · exact (zpow_le_zpow_right₀ one_le_two (by decide)).trans reach
  · rw [zpow_neg, zpow_neg]
    exact inv_anti₀ (by positivity) ((zpow_le_zpow_right₀ one_le_two (by decide)).trans reach)

-- The shortcuts for numbers far out of range are never taken near a double.
theorem scaled_nearest (digits count mantissa : Nat) (power exponent : Int) (canonical : Canonical mantissa exponent)
    (short : digits < 10 ^ count) (nearest : Nearest (digits * 10 ^ power) mantissa exponent) :
    scaled digits count power = ofCanonical mantissa exponent canonical := by
  obtain ⟨low, high⟩ := nearest.bounds canonical
  have positive : 0 < digits := by
    by_contra none
    rw [Nat.eq_zero_of_not_pos none, Nat.cast_zero, zero_mul] at low
    exact absurd low (not_le.mpr (by positivity))
  have large : power ≤ 400 := by
    by_contra beyond
    have one : (1 : ℚ) ≤ digits := by exact_mod_cast positive
    have far : (10 : ℚ) ^ (400 : Int) ≤ 10 ^ power := zpow_le_zpow_right₀ (by norm_num) (by omega)
    have product : (10 : ℚ) ^ power ≤ digits * 10 ^ power := le_mul_of_one_le_left (by positivity) one
    exact absurd high (not_lt.mpr (ten_outruns.1.trans (far.trans product)))
  have small : -400 ≤ power + count := by
    by_contra beyond
    have real : (digits : ℚ) < 10 ^ (count : Int) := by
      rw [zpow_natCast]
      exact_mod_cast short
    have product : (digits : ℚ) * 10 ^ power < 10 ^ (power + count) := by
      rw [add_comm, zpow_add₀ (by norm_num)]
      exact mul_lt_mul_of_pos_right real (by positivity)
    have far : (10 : ℚ) ^ (power + count) ≤ 10 ^ (-400 : Int) := zpow_le_zpow_right₀ (by norm_num) (by omega)
    exact absurd (low.trans_lt product) (not_lt.mpr (far.trans ten_outruns.2))
  rw [scaled, if_neg (Nat.ne_of_gt positive), if_neg (not_lt.mpr large), if_neg (not_lt.mpr small)]
  apply scientific_nearest
  have amount : (if decide (power < 0) = true then -(power.natAbs : Int) else power.natAbs) = power := by
    simp only [decide_eq_true_eq]
    split <;> omega
  rw [amount]
  exact nearest

end CommandScript.Number
