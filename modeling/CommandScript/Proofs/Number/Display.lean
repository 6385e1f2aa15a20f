import CommandScript.Proofs.Number.Positional
import CommandScript.Value.Numeric

set_option autoImplicit false

namespace CommandScript.Number

open Float.Model.Format (binary64)
open Float.Model (UnpackedFloat)
open Float.Model.UnpackedFloat

theorem neg_canonical (mantissa : Nat) (exponent : Int) (canonical : Canonical mantissa exponent) :
    -ofCanonical mantissa exponent canonical =
      .ofModel (Float.Model.pack (.finite .negative mantissa exponent canonical.positive)) := by
  change Float.ofModel (Float.Model.pack (Float.Model.pack (.finite .positive mantissa exponent canonical.positive)).unpack.neg) = _
  rw [unpack_pack _ _ _ canonical]
  rfl

-- A double from its parts.
theorem float_of_parts (x : Float) (b : Binary) (parts : Binary.ofFloat? x = some b) :
    (b.significand = 0 ∧ (x = 0.0 ∨ x = -0.0)) ∨ ∃ canonical : Canonical b.significand b.exponent,
      x = if b.negative then -ofCanonical b.significand b.exponent canonical else ofCanonical b.significand b.exponent canonical := by
  rcases unpacked_parts x b parts with ⟨none, unpacked⟩ | ⟨canonical, unpacked⟩
  · refine .inl ⟨none, ?_⟩
    rw [← pack_unpack x, unpacked, Binary.sign]
    cases b.negative with
    | false => exact .inl (by decide +kernel)
    | true => exact .inr (by decide +kernel)
  · refine .inr ⟨canonical, ?_⟩
    rw [neg_canonical, ← pack_unpack x, unpacked, Binary.sign]
    cases b.negative <;> rfl

-- Canonical numbers compare by the exponent first.
theorem canonical_less {mantissa other : Nat} {exponent power : Int} (canonical : Canonical mantissa exponent)
    (second : Canonical other power) :
    (exponent < power ∨ exponent = power ∧ mantissa < other) ↔ (mantissa : ℚ) * 2 ^ exponent < other * 2 ^ power := by
  have apart {m n : Nat} {e p : Int} (first : Canonical m e) (second : Canonical n p) (less : e < p) :
      (m : ℚ) * 2 ^ e < n * 2 ^ p := by
    have least := first.least
    have many : (2 : ℚ) ^ 52 ≤ n := by exact_mod_cast second.full.resolve_right (by omega)
    have short : (m : ℚ) < 2 ^ 53 := by exact_mod_cast first.short
    calc (m : ℚ) * 2 ^ e < 2 ^ 53 * 2 ^ e := mul_lt_mul_of_pos_right short (by positivity)
      _ = 2 ^ 52 * 2 ^ (e + 1) := by rw [zpow_add_one₀ two_ne_zero]; ring
      _ ≤ n * 2 ^ p := mul_le_mul many (zpow_le_zpow_right₀ one_le_two (by omega)) (by positivity) (by positivity)
  rcases lt_trichotomy exponent power with less | rfl | more
  · exact iff_of_true (.inl less) (apart canonical second less)
  · have unit : (0 : ℚ) < 2 ^ exponent := by positivity
    rw [mul_lt_mul_iff_left₀ unit, Nat.cast_lt]
    exact ⟨fun either => either.elim (fun less => absurd less (lt_irrefl _)) And.right, fun less => .inr ⟨rfl, less⟩⟩
  · exact iff_of_false (by omega) (not_lt.mpr (apart second canonical more).le)

-- The magnitude of a double is compared by its value.
theorem abs_less (x c : Float) (b d : Binary) (parts : Binary.ofFloat? x = some b) (bound : Binary.ofFloat? c = some d)
    (filled : 0 < b.significand) (positive : 0 < d.significand) (plus : d.negative = false) : x.abs < c ↔ b.value < d.value := by
  obtain ⟨canonical, own⟩ := (unpacked_parts x b parts).resolve_left fun zero => absurd zero.1 (Nat.ne_of_gt filled)
  obtain ⟨second, other⟩ := (unpacked_parts c d bound).resolve_left fun zero => absurd zero.1 (Nat.ne_of_gt positive)
  have magnitude : x.abs.toModel.unpack = .finite .positive b.significand b.exponent canonical.positive := by
    change (Float.Model.pack x.toModel.unpack.abs).unpack = _
    rw [own]
    exact unpack_pack _ _ _ canonical
  rw [Binary.sign, plus, if_neg Bool.false_ne_true] at other
  rw [Binary.value, Binary.value, ← canonical_less canonical second]
  change decide (x.abs.toModel < c.toModel) = true ↔ _
  rw [decide_eq_true_iff]
  change x.abs.toModel.unpack.lt c.toModel.unpack = true ↔ _
  rw [magnitude, other]
  change (some ((compare b.exponent d.exponent).then (compare b.significand d.significand)) == some Ordering.lt) = true ↔ _
  rw [beq_iff_eq, Option.some.injEq, Ordering.then_eq_lt, Int.compare_eq_lt, Int.compare_eq_eq, Nat.compare_eq_lt]

-- A text with the digits of a number that lies nearest to a double is read as that double.
theorem read_nearest (x : Float) (b : Binary) (finite : x.isFinite = true) (canonical : Canonical b.significand b.exponent)
    (same : x = if b.negative then -ofCanonical b.significand b.exponent canonical else ofCanonical b.significand b.exponent canonical)
    (s whole fraction : List Char) (written : Written.ofChars? s = some ⟨b.negative, whole, fraction, 0⟩)
    (digits : ∀ c ∈ whole ++ fraction, isDigit c = true)
    (nearest : Nearest (digitsValue (whole ++ fraction) * 10 ^ (-(fraction.length : Int))) b.significand b.exponent) :
    readFinite s = some x := by
  have number : (Written.mk b.negative whole fraction 0).toFloat = x := by
    have magnitude := scaled_nearest _ _ _ _ _ canonical (digits_value_short _ digits) nearest
    rw [same, Written.toFloat]
    dsimp only
    rw [zero_sub, magnitude]
  rw [readFinite, written]
  dsimp only
  rw [number, if_pos finite]

theorem display_text (x : Float) (b : Binary) (parts : Binary.ofFloat? x = some b) (filled : b.significand ≠ 0) :
    (displayText x).toList =
      signed b.negative (b.shortest.positional ++ if isIntegral x && x.abs < 1e15 then ['.', '0'] else []) := by
  have bare : (bareText x).toList = signed b.negative b.shortest.positional := by
    rw [bareText, floatText, parts]
    dsimp only
    rw [if_neg filled, String.toList_append, String.toList_ofList]
    cases b.negative <;> rfl
  have append (rest : List Char) : signed b.negative b.shortest.positional ++ rest = signed b.negative (b.shortest.positional ++ rest) := by
    cases b.negative <;> rfl
  rw [displayText]
  split
  · rw [String.toList_append, bare, append]
    rfl
  · rw [bare, List.append_nil]

theorem integral_iff (x : Float) (b : Binary) (parts : Binary.ofFloat? x = some b) (canonical : Canonical b.significand b.exponent) :
    isIntegral x = true ↔ 0 ≤ b.shortest.exponent := by
  rw [b.shortest_whole canonical, isIntegral, parts]
  exact beq_iff_eq

-- The text of a finite double, read as a decimal fraction, is the double.
theorem display_read (x : Float) (finite : x.isFinite = true) : readFinite (displayText x).toList = some x := by
  obtain ⟨b, parts⟩ := parts_of_finite x finite
  rcases float_of_parts x b parts with ⟨-, rfl | rfl⟩ | ⟨canonical, same⟩
  · decide +kernel
  · decide +kernel
  · have nearest := b.shortest_nearest canonical
    have integral := integral_iff x b parts canonical
    rw [display_text x b parts (Nat.ne_of_gt canonical.positive)]
    rcases le_or_gt 0 b.shortest.exponent with above | below
    · obtain ⟨digits, value⟩ := b.shortest.positional_whole above
      have all := ((digits_iff _).mp digits).2
      rw [integral.mpr above, Bool.true_and]
      split
      · have zero : ∀ c ∈ ['0'], isDigit c = true := List.forall_mem_singleton.mpr (by decide)
        refine read_nearest x b finite canonical same _ _ _ (written_point b.negative digits zero)
          (List.forall_mem_append.mpr ⟨all, zero⟩) ?_
        have scaled : (digitsValue (b.shortest.positional ++ ['0']) : ℚ) * 10 ^ (-(1 : Int)) = b.shortest.value := by
          rw [digits_value_append, ← value]
          change ((digitsValue b.shortest.positional * 10 ^ 1 + 0 : ℕ) : ℚ) * 10 ^ (-(1 : Int)) = _
          push_cast
          rw [zpow_neg_one]
          ring
        exact scaled ▸ nearest
      · rw [List.append_nil]
        refine read_nearest x b finite canonical same _ _ _ (written_whole b.negative digits) ?_ ?_
        · rw [List.append_nil]
          exact all
        · rw [List.append_nil, value]
          change Nearest (b.shortest.value * 10 ^ (0 : Int)) _ _
          rw [zpow_zero, mul_one]
          exact nearest
    · obtain ⟨whole, fraction, shape, digits, all, value⟩ := b.shortest.positional_point below
      have fractional : isIntegral x = false := Bool.eq_false_iff.mpr fun whole => absurd (integral.mp whole) (not_le.mpr below)
      rw [fractional, Bool.false_and, if_neg Bool.false_ne_true, List.append_nil, shape]
      exact read_nearest x b finite canonical same _ _ _ (written_point b.negative digits all)
        (List.forall_mem_append.mpr ⟨((digits_iff whole).mp digits).2, all⟩) (value ▸ nearest)

theorem truncate_value (x : Float) (b : Binary) (parts : Binary.ofFloat? x = some b) (whole : isIntegral x = true) :
    ((truncate x).natAbs : ℚ) = b.value := by
  have divides : b.numerator % b.denominator = 0 := by
    rw [isIntegral, parts] at whole
    exact beq_iff_eq.mp whole
  have magnitude : (truncate x).natAbs = b.numerator / b.denominator := by
    rw [truncate, parts]
    dsimp only
    split
    · exact (Int.natAbs_neg _).trans (Int.natAbs_natCast _)
    · exact Int.natAbs_natCast _
  rw [magnitude, b.whole_value divides]

theorem small_whole (x : Float) (b : Binary) (parts : Binary.ofFloat? x = some b) (filled : 0 < b.significand)
    (whole : isIntegral x = true) : x.abs < 1e15 ↔ (truncate x).natAbs < 10 ^ 15 := by
  have bound : Binary.ofFloat? 1e15 = some ⟨false, 8 * 10 ^ 15, -3⟩ := by decide +kernel
  have value : Binary.value ⟨false, 8 * 10 ^ 15, -3⟩ = (10 ^ 15 : ℕ) := by
    rw [Binary.value]
    norm_num
  rw [abs_less x 1e15 b _ parts bound filled (by decide) rfl, value, ← truncate_value x b parts whole, Nat.cast_lt]

-- The shortest digits do not cross `2 ^ 63`.
theorem shortest_below (b : Binary) (canonical : Canonical b.significand b.exponent) (n : Nat) (same : (n : ℚ) = b.shortest.value) :
    (b.value < 2 ^ 63 → n < 2 ^ 63) ∧ (2 ^ 63 ≤ b.value → 2 ^ 63 < n) := by
  obtain ⟨low, high, -⟩ := b.shortest_nearest canonical
  rw [← same] at low high
  have short : (b.significand : ℚ) + 1 ≤ 2 ^ 53 := by exact_mod_cast canonical.short
  have halves := (gap_bounds b.significand b.exponent).2
  have top : (2 : ℚ) ^ 53 * 2 ^ (10 : Int) = (2 ^ 63 : ℕ) := by norm_num
  have bottom : (2 : ℚ) ^ 52 * 2 ^ (11 : Int) = 2 ^ 63 := by norm_num
  rw [Binary.value]
  constructor
  · intro less
    have few : b.exponent ≤ 10 := by
      by_contra many
      have filled : (2 : ℚ) ^ 52 ≤ b.significand := by exact_mod_cast canonical.full.resolve_right (by omega)
      have least : (2 : ℚ) ^ 52 * 2 ^ (11 : Int) ≤ b.significand * 2 ^ b.exponent :=
        mul_le_mul filled (zpow_le_zpow_right₀ one_le_two (by omega)) (by positivity) (by positivity)
      rw [bottom] at least
      exact absurd less (not_lt.mpr least)
    have most : (b.significand + 1 / 2 : ℚ) * 2 ^ b.exponent < 2 ^ 53 * 2 ^ (10 : Int) :=
      mul_lt_mul (by linarith) (zpow_le_zpow_right₀ one_le_two few) (by positivity) (by positivity)
    exact Nat.cast_lt.mp (high.trans_lt (top ▸ most))
  · intro more
    have many : 11 ≤ b.exponent := by
      by_contra few
      have most : (b.significand : ℚ) * 2 ^ b.exponent < 2 ^ 53 * 2 ^ (10 : Int) :=
        mul_lt_mul (by linarith) (zpow_le_zpow_right₀ one_le_two (by omega)) (by positivity) (by positivity)
      rw [top, Nat.cast_pow, Nat.cast_ofNat] at most
      exact absurd more (not_le.mpr most)
    have filled : 2 ^ 52 ≤ b.significand := canonical.full.resolve_right (by omega)
    by_cases edge : b.significand = 2 ^ 52 ∧ b.exponent = 11
    · obtain ⟨negative, significand, exponent⟩ := b
      obtain ⟨rfl, rfl⟩ : significand = 2 ^ 52 ∧ exponent = 11 := edge
      have digits : Binary.shortest ⟨negative, 2 ^ 52, 11⟩ = ⟨9223372036854776, 3⟩ := by
        cases negative <;> decide +kernel
      rw [digits, Decimal.value] at same
      norm_num at same
      have whole : n = 9223372036854776000 := by exact_mod_cast same
      omega
    · have above : (2 ^ 63 : ℚ) < (b.significand - gap b.significand b.exponent) * 2 ^ b.exponent := by
        rcases Nat.lt_or_ge (2 ^ 52) b.significand with larger | exact
        · have next : (2 : ℚ) ^ 52 + 1 ≤ b.significand := by exact_mod_cast larger
          rw [← bottom]
          exact mul_lt_mul (by linarith) (zpow_le_zpow_right₀ one_le_two many) (by positivity) (by linarith)
        · have real : (2 : ℚ) ^ 52 ≤ b.significand := by exact_mod_cast filled
          have twice : (2 : ℚ) ^ (12 : Int) ≤ 2 ^ b.exponent := zpow_le_zpow_right₀ one_le_two (by omega)
          calc (2 ^ 63 : ℚ) < (2 ^ 52 - 1 / 2) * 2 ^ (12 : Int) := by norm_num
            _ ≤ (b.significand - gap b.significand b.exponent) * 2 ^ b.exponent :=
              mul_le_mul (by linarith) twice (by positivity) (by linarith)
      exact_mod_cast above.trans_le low

theorem of_int_signed (negative : Bool) (n : Nat) (positive : 0 < n) :
    Float.ofInt (if negative then -(n : Int) else n) = if negative then -Float.ofNat n else Float.ofNat n := by
  obtain ⟨before, rfl⟩ := Nat.exists_eq_succ_of_ne_zero (Nat.ne_of_gt positive)
  cases negative <;> rfl

-- A whole double with the text of an integer is the double of that integer.
theorem int_nearest (b : Binary) (canonical : Canonical b.significand b.exponent) (n : Nat) (same : (n : ℚ) = b.shortest.value)
    (low : n < 2 ^ 63) : ∃ exact, toInt64? (if b.negative then -(n : Int) else n) = some exact ∧ Value.floatOfInt64 exact =
      if b.negative then -ofCanonical b.significand b.exponent canonical else ofCanonical b.significand b.exponent canonical := by
  have nearest := b.shortest_nearest canonical
  rw [← same] at nearest
  have positive : 0 < n := by
    have least := (nearest.bounds canonical).1
    have above : (0 : ℚ) < n := lt_of_lt_of_le (by positivity) least
    exact_mod_cast above
  have magnitude : Float.ofNat n = ofCanonical b.significand b.exponent canonical := by
    refine scientific_nearest n 0 _ false _ canonical ?_
    change Nearest (n * 10 ^ (0 : Int)) _ _
    rw [zpow_zero, mul_one]
    exact nearest
  have fits : -9223372036854775808 ≤ (if b.negative then -(n : Int) else n) ∧ (if b.negative then -(n : Int) else n) ≤ 9223372036854775807 := by
    split <;> omega
  refine ⟨_, if_pos fits, ?_⟩
  rw [Value.floatOfInt64, Int64.toInt_ofInt_of_le fits.1 (by omega), of_int_signed _ n positive, magnitude]

-- A text is an integer of 64 bits only where a whole double is shown without a point and still fits.
theorem display_int64 (x : Float) (finite : x.isFinite = true) :
    (isIntegral x = true ∧ 10 ^ 15 ≤ (truncate x).natAbs ∧ (truncate x).natAbs < 2 ^ 63 →
      ∃ n, readInt64 (displayText x).toList = some n ∧ Value.floatOfInt64 n = x) ∧
    (¬ (isIntegral x = true ∧ 10 ^ 15 ≤ (truncate x).natAbs ∧ (truncate x).natAbs < 2 ^ 63) →
      readInt64 (displayText x).toList = none) := by
  obtain ⟨b, parts⟩ := parts_of_finite x finite
  rcases float_of_parts x b parts with ⟨-, rfl | rfl⟩ | ⟨canonical, same⟩
  · decide +kernel
  · decide +kernel
  · have text := display_text x b parts (Nat.ne_of_gt canonical.positive)
    have integral := integral_iff x b parts canonical
    rcases le_or_gt 0 b.shortest.exponent with above | below
    · have whole := integral.mpr above
      have value := truncate_value x b parts whole
      have small := small_whole x b parts canonical.positive whole
      obtain ⟨digits, shown⟩ := b.shortest.positional_whole above
      obtain ⟨fits, tooLarge⟩ := shortest_below b canonical _ shown
      rw [← value] at fits tooLarge
      by_cases pointed : x.abs < 1e15
      · rw [whole, decide_eq_true pointed, Bool.true_and, if_pos rfl] at text
        refine ⟨fun range => absurd (small.mp pointed) (not_lt.mpr range.2.1), fun _ => ?_⟩
        rw [text, readInt64, read_point _ digits, Option.bind_none]
      · rw [decide_eq_false pointed, Bool.and_false, if_neg Bool.false_ne_true, List.append_nil] at text
        rw [text, readInt64, read_whole _ digits, Option.bind_some]
        constructor
        · intro range
          rw [same]
          exact int_nearest b canonical _ shown (fits (by exact_mod_cast range.2.2))
        · intro outside
          have large : 2 ^ 63 ≤ (truncate x).natAbs := by
            by_contra less
            exact outside ⟨whole, not_lt.mp fun few => pointed (small.mpr few), not_le.mp less⟩
          have beyond := tooLarge (by exact_mod_cast large)
          refine if_neg ?_
          split <;> omega
    · have fractional : isIntegral x = false := Bool.eq_false_iff.mpr fun whole => absurd (integral.mp whole) (not_le.mpr below)
      obtain ⟨whole, fraction, shape, digits, -, -⟩ := b.shortest.positional_point below
      rw [fractional, Bool.false_and, if_neg Bool.false_ne_true, List.append_nil, shape] at text
      refine ⟨fun range => absurd range.1 (by rw [fractional]; exact Bool.false_ne_true), fun _ => ?_⟩
      rw [text, readInt64, read_point _ digits, Option.bind_none]

end CommandScript.Number
