import CommandScript.Number.Text
import CommandScript.Proofs.Number.Scientific

set_option autoImplicit false

namespace CommandScript.Number

def Decimal.value (d : Decimal) : ℚ :=
  d.digits * 10 ^ d.exponent

-- The magnitude of a double.
def Binary.value (b : Binary) : ℚ :=
  b.significand * 2 ^ b.exponent

theorem digit_count_bounds (n : Nat) (positive : 0 < n) : 10 ^ (digitCount n - 1) ≤ n ∧ n < 10 ^ digitCount n := by
  have some : 0 < digitCount n := Nat.length_toDigits_pos
  refine ⟨?_, (Nat.length_toDigits_le_iff (by decide) some).mp (Nat.le_refl _)⟩
  by_cases one : digitCount n = 1
  · rw [one]
    exact positive
  · by_contra short
    have fewer : digitCount n ≤ digitCount n - 1 :=
      (Nat.length_toDigits_le_iff (by decide) (by omega)).mpr (Nat.lt_of_not_le short)
    omega

namespace Interval

-- A multiple of a power of ten lies in the interval.
def Holds (i : Interval) (digits : Nat) (exponent : Int) : Prop :=
  let up := Nat.pow 10 (-exponent).toNat
  let unit := i.denominator * Nat.pow 10 exponent.toNat
  if i.closed then i.low * up ≤ digits * unit ∧ digits * unit ≤ i.high * up
  else i.low * up < digits * unit ∧ digits * unit < i.high * up

structure Ordered (i : Interval) : Prop where
  below : i.low < i.value
  above : i.value < i.high
  positive : 0 < i.denominator

variable {i : Interval} {exponent : Int} {digits : Nat}

-- The two multiples around the value: the one below is near enough, or the one above.
theorem around_value (ordered : i.Ordered) (exponent : Int) :
    let up := Nat.pow 10 (-exponent).toNat
    let unit := i.denominator * Nat.pow 10 exponent.toNat
    let floor := i.value * up / unit
    i.low * up < i.value * up ∧ i.value * up < i.high * up ∧ floor * unit ≤ i.value * up ∧ i.value * up < (floor + 1) * unit := by
  intro up unit floor
  have upPositive : 0 < up := Nat.pow_pos (by decide)
  have unitPositive : 0 < unit := Nat.mul_pos ordered.positive (Nat.pow_pos (by decide))
  exact ⟨Nat.mul_lt_mul_of_pos_right ordered.below upPositive, Nat.mul_lt_mul_of_pos_right ordered.above upPositive,
    Nat.div_mul_le_self _ _, Nat.lt_mul_of_div_lt (Nat.lt_succ_self _) unitPositive⟩

theorem found_holds (ordered : i.Ordered) (found : i.neighbour? exponent = some digits) : i.Holds digits exponent := by
  have around := around_value ordered exponent
  unfold neighbour? at found
  unfold Holds
  dsimp only at around found ⊢
  obtain ⟨below, above, least, most⟩ := around
  cases closed : i.closed with
  | true =>
    simp only [closed, if_true] at found ⊢
    split_ifs at found <;> obtain rfl := Option.some.inj found <;> omega
  | false =>
    simp only [closed, Bool.false_eq_true, if_false] at found ⊢
    split_ifs at found <;> obtain rfl := Option.some.inj found <;> omega

-- A multiple in the interval is at most the one below the value or at least the one above.
theorem holds_found (ordered : i.Ordered) (holds : i.Holds digits exponent) : ∃ other, i.neighbour? exponent = some other := by
  cases found : i.neighbour? exponent with
  | some other => exact ⟨other, rfl⟩
  | none =>
    have around := around_value ordered exponent
    unfold neighbour? at found
    unfold Holds at holds
    dsimp only at around found holds
    obtain ⟨below, above, least, most⟩ := around
    generalize i.value * Nat.pow 10 (-exponent).toNat / (i.denominator * Nat.pow 10 exponent.toNat) = floor at found least most
    have side : digits * (i.denominator * Nat.pow 10 exponent.toNat) ≤ floor * (i.denominator * Nat.pow 10 exponent.toNat) ∨
        (floor + 1) * (i.denominator * Nat.pow 10 exponent.toNat) ≤ digits * (i.denominator * Nat.pow 10 exponent.toNat) :=
      (Nat.lt_or_ge floor digits).symm.imp (Nat.mul_le_mul_right _) (Nat.mul_le_mul_right _)
    cases closed : i.closed with
    | true =>
      simp only [closed, if_true] at found holds
      split_ifs at found
      omega
    | false =>
      simp only [closed, Bool.false_eq_true, if_false] at found holds
      split_ifs at found
      omega

-- The search ends at the first place where a multiple lies in the interval.
theorem search_first (steps : Nat) (start : Int) (hit : ∃ back : Nat, back < steps ∧ ∃ digits, i.neighbour? (start - back) = some digits) :
    i.neighbour? (i.search steps start).exponent = some (i.search steps start).digits ∧
      ∀ place, (i.search steps start).exponent < place → place ≤ start → i.neighbour? place = none := by
  induction steps generalizing start with
  | zero =>
    obtain ⟨back, never, _⟩ := hit
    exact absurd never (Nat.not_lt_zero back)
  | succ steps ih =>
    rw [search]
    cases here : i.neighbour? start with
    | some digits => exact ⟨here, fun place after before => absurd before (not_le.mpr after)⟩
    | none =>
      obtain ⟨back, early, digits, found⟩ := hit
      have later : back ≠ 0 := by
        rintro rfl
        rw [Nat.cast_zero, sub_zero, here] at found
        cases found
      obtain ⟨ends, first⟩ := ih (start - 1) ⟨back - 1, by omega, digits, by
        rw [← found]
        congr 1
        omega⟩
      refine ⟨ends, fun place after before => ?_⟩
      rcases Int.lt_or_eq_of_le before with less | rfl
      · exact first place after (by omega)
      · exact here

end Interval

theorem scaled_compare (numerator digits denominator : Nat) (exponent : Int) (positive : 0 < denominator) :
    (numerator * Nat.pow 10 (-exponent).toNat ≤ digits * (denominator * Nat.pow 10 exponent.toNat) ↔
      (numerator : ℚ) / denominator ≤ digits * 10 ^ exponent) ∧
    (digits * (denominator * Nat.pow 10 exponent.toNat) ≤ numerator * Nat.pow 10 (-exponent).toNat ↔
      (digits : ℚ) * 10 ^ exponent ≤ numerator / denominator) := by
  have real : (0 : ℚ) < denominator := by exact_mod_cast positive
  have up : (0 : ℚ) < 10 ^ (-exponent).toNat := by positivity
  have split := split_power 10 (by norm_num) exponent
  have unit : (digits : ℚ) * (denominator * 10 ^ exponent.toNat) = digits * 10 ^ exponent * denominator * 10 ^ (-exponent).toNat := by
    rw [← split]
    ring
  constructor
  · rw [div_le_iff₀ real, ← mul_le_mul_iff_left₀ up, ← unit]
    exact_mod_cast Iff.rfl
  · rw [le_div_iff₀ real, ← mul_le_mul_iff_left₀ up, ← unit]
    exact_mod_cast Iff.rfl

namespace Binary

variable (b : Binary)

theorem scale_value (quarters : Nat) : ((quarters * Nat.pow 2 (b.exponent - 2).toNat : ℕ) : ℚ) / (Nat.pow 2 (2 - b.exponent).toNat : ℕ) =
    quarters / 4 * 2 ^ b.exponent := by
  have split := split_power 2 two_ne_zero (b.exponent - 2)
  rw [neg_sub] at split
  have positive : (0 : ℚ) < 2 ^ (2 - b.exponent).toNat := by positivity
  have quarter : (2 : ℚ) ^ (b.exponent - 2) = 2 ^ b.exponent / 4 := by
    rw [zpow_sub₀ two_ne_zero]
    norm_num
  simp only [Nat.pow_eq, Nat.cast_mul, Nat.cast_pow, Nat.cast_ofNat]
  rw [div_eq_iff positive.ne', ← split, quarter]
  ring

theorem interval_ordered (positive : 0 < b.significand) : b.interval.Ordered := by
  have scale : 0 < Nat.pow 2 (b.exponent - 2).toNat := Nat.pow_pos (by decide)
  refine ⟨?_, ?_, Nat.pow_pos (by decide)⟩
  · refine Nat.mul_lt_mul_of_pos_right ?_ scale
    split <;> omega
  · exact Nat.mul_lt_mul_of_pos_right (by omega) scale

theorem interval_ends (positive : 0 < b.significand) :
    (b.interval.low : ℚ) / b.interval.denominator = (b.significand - gap b.significand b.exponent) * 2 ^ b.exponent ∧
    (b.interval.value : ℚ) / b.interval.denominator = b.value ∧
    (b.interval.high : ℚ) / b.interval.denominator = (b.significand + 1 / 2) * 2 ^ b.exponent := by
  refine ⟨?_, ?_, ?_⟩
  · refine (b.scale_value _).trans ?_
    rw [gap]
    change ((4 * b.significand - (if b.significand = 2 ^ 52 ∧ b.exponent ≠ -1074 then 1 else 2) : ℕ) : ℚ) / 4 * _ = _
    split
    · rw [Nat.cast_sub (by omega)]
      push_cast
      ring
    · rw [Nat.cast_sub (by omega)]
      push_cast
      ring
  · refine (b.scale_value _).trans ?_
    rw [value]
    push_cast
    ring
  · refine (b.scale_value _).trans ?_
    push_cast
    ring

-- The reals of an interval are those that lie nearest to its double.
theorem holds_iff_nearest (positive : 0 < b.significand) (digits : Nat) (exponent : Int) :
    b.interval.Holds digits exponent ↔ Nearest (digits * 10 ^ exponent) b.significand b.exponent := by
  obtain ⟨low, -, high⟩ := b.interval_ends positive
  have ordered := b.interval_ordered positive
  have lower := scaled_compare b.interval.low digits b.interval.denominator exponent ordered.positive
  have upper := scaled_compare b.interval.high digits b.interval.denominator exponent ordered.positive
  rw [low] at lower
  rw [high] at upper
  have closed : b.interval.closed = (b.significand % 2 == 0) := rfl
  unfold Interval.Holds
  dsimp only
  rcases Nat.mod_two_eq_zero_or_one b.significand with even | odd
  · rw [closed, even]
    simp only [beq_self_eq_true, if_true]
    rw [lower.1, upper.2]
    exact ⟨fun ⟨below, above⟩ => ⟨below, above, fun odd => absurd odd (by omega)⟩, fun nearest => ⟨nearest.low, nearest.high⟩⟩
  · rw [closed, odd]
    simp only [Nat.reduceBEq, Bool.false_eq_true, if_false]
    rw [← not_le, lower.2, ← not_le, upper.1, not_le, not_le]
    exact ⟨fun ⟨below, above⟩ => ⟨below.le, above.le, fun _ => ⟨below, above⟩⟩, fun nearest => nearest.inner odd⟩

theorem value_fraction : b.value * b.denominator = b.numerator := by
  rw [value, denominator, numerator, Nat.pow_eq, Nat.pow_eq, Nat.cast_mul, Nat.cast_pow, Nat.cast_pow, Nat.cast_ofNat, mul_assoc,
    split_power 2 two_ne_zero]

theorem whole_value (whole : b.numerator % b.denominator = 0) : b.value = (b.numerator / b.denominator : ℕ) := by
  have real : (0 : ℚ) < b.denominator := by
    rw [denominator, Nat.pow_eq]
    positivity
  rw [Nat.cast_div (Nat.dvd_of_mod_eq_zero whole) real.ne', ← value_fraction, mul_div_cancel_right₀ _ real.ne']

theorem search_start (positive : 0 < b.significand) :
    10 ^ ((digitCount b.interval.value : Int) - digitCount b.interval.denominator + 1 - 2) < b.value ∧
      b.value < 10 ^ ((digitCount b.interval.value : Int) - digitCount b.interval.denominator + 1) := by
  have ten : (10 : ℚ) ≠ 0 := by norm_num
  have ordered := b.interval_ordered positive
  obtain ⟨least, most⟩ := digit_count_bounds b.interval.value (Nat.lt_of_le_of_lt (Nat.zero_le _) ordered.below)
  obtain ⟨few, many⟩ := digit_count_bounds b.interval.denominator ordered.positive
  have counted : 0 < digitCount b.interval.value := Nat.length_toDigits_pos
  have countedBelow : 0 < digitCount b.interval.denominator := Nat.length_toDigits_pos
  rw [← (b.interval_ends positive).2.1]
  generalize digitCount b.interval.value = top at least most counted ⊢
  generalize digitCount b.interval.denominator = bottom at few many countedBelow ⊢
  have real : (0 : ℚ) < b.interval.denominator := by exact_mod_cast ordered.positive
  have leastReal : (10 : ℚ) ^ ((top : Int) - 1) ≤ b.interval.value := by
    rw [show (top : Int) - 1 = (top - 1 : ℕ) by omega, zpow_natCast]
    exact_mod_cast least
  have mostReal : (b.interval.value : ℚ) < 10 ^ (top : Int) := by
    rw [zpow_natCast]
    exact_mod_cast most
  have fewReal : (10 : ℚ) ^ ((bottom : Int) - 1) ≤ b.interval.denominator := by
    rw [show (bottom : Int) - 1 = (bottom - 1 : ℕ) by omega, zpow_natCast]
    exact_mod_cast few
  have manyReal : (b.interval.denominator : ℚ) < 10 ^ (bottom : Int) := by
    rw [zpow_natCast]
    exact_mod_cast many
  constructor
  · rw [lt_div_iff₀ real]
    calc (10 : ℚ) ^ ((top : Int) - bottom + 1 - 2) * b.interval.denominator
        < 10 ^ ((top : Int) - bottom + 1 - 2) * 10 ^ (bottom : Int) := mul_lt_mul_of_pos_left manyReal (by positivity)
      _ = 10 ^ ((top : Int) - 1) := by rw [← zpow_add₀ ten]; congr 1; omega
      _ ≤ b.interval.value := leastReal
  · rw [div_lt_iff₀ real]
    calc (b.interval.value : ℚ) < 10 ^ (top : Int) := mostReal
      _ = 10 ^ ((top : Int) - bottom + 1) * 10 ^ ((bottom : Int) - 1) := by rw [← zpow_add₀ ten]; congr 1; omega
      _ ≤ 10 ^ ((top : Int) - bottom + 1) * b.interval.denominator := mul_le_mul_of_nonneg_left fewReal (by positivity)

-- A power of ten that is no more than half a unit has a multiple in the interval.
theorem fine_multiple (place : Int) (fine : (10 : ℚ) ^ place ≤ 2 ^ b.exponent / 2) :
    ∃ digits : Nat, Nearest (digits * 10 ^ place) b.significand b.exponent := by
  have unit : (0 : ℚ) < 10 ^ place := by positivity
  have power : (0 : ℚ) < 2 ^ b.exponent := by positivity
  have quarter := mul_le_mul_of_nonneg_right (gap_bounds b.significand b.exponent).1 power.le
  have start : (0 : ℚ) ≤ b.value / 10 ^ place := by
    rw [value]
    positivity
  obtain ⟨digits, low, high⟩ : ∃ digits : Nat, b.value ≤ digits * 10 ^ place ∧ digits * 10 ^ place < b.value + 10 ^ place := by
    refine ⟨⌈b.value / 10 ^ place⌉₊, ?_, ?_⟩
    · rw [← div_le_iff₀ unit]
      exact Nat.le_ceil _
    · rw [← lt_div_iff₀ unit, add_div, div_self unit.ne']
      exact Nat.ceil_lt_add_one start
  rw [value] at low high
  refine ⟨digits, ?_, ?_, fun _ => ⟨?_, ?_⟩⟩
  · rw [sub_mul]
    linarith
  · rw [add_mul]
    linarith
  · rw [sub_mul]
    linarith
  · rw [add_mul]
    linarith

theorem search_hits (canonical : Canonical b.significand b.exponent) : ∃ back : Nat, back < 20 ∧ ∃ digits,
    b.interval.neighbour? ((digitCount b.interval.value : Int) - digitCount b.interval.denominator + 1 - back) = some digits := by
  have below := (b.search_start canonical.positive).1
  generalize (digitCount b.interval.value : Int) - digitCount b.interval.denominator + 1 = start at below ⊢
  have short : (b.significand : ℚ) < 2 ^ 53 := by exact_mod_cast canonical.short
  have power : (0 : ℚ) < 2 ^ b.exponent := by positivity
  have fine : (10 : ℚ) ^ (start - (19 : ℕ)) ≤ 2 ^ b.exponent / 2 := by
    have split : (10 : ℚ) ^ (start - (19 : ℕ)) = 10 ^ (start - 2) / 10 ^ 17 := by
      rw [← zpow_natCast, ← zpow_sub₀ (by norm_num)]
      congr 1
      omega
    rw [split, div_le_iff₀ (by positivity)]
    calc (10 : ℚ) ^ (start - 2) ≤ b.significand * 2 ^ b.exponent := below.le
      _ ≤ 2 ^ 53 * 2 ^ b.exponent := mul_le_mul_of_nonneg_right short.le power.le
      _ ≤ 2 ^ b.exponent / 2 * 10 ^ 17 := by nlinarith
  obtain ⟨digits, nearest⟩ := b.fine_multiple _ fine
  obtain ⟨other, found⟩ := Interval.holds_found (b.interval_ordered canonical.positive)
    ((b.holds_iff_nearest canonical.positive digits _).mpr nearest)
  exact ⟨19, by decide, other, found⟩

-- The shortest decimal of a double is rounded to that double.
theorem shortest_nearest (canonical : Canonical b.significand b.exponent) : Nearest b.shortest.value b.significand b.exponent := by
  have found := (Interval.search_first 20 _ (b.search_hits canonical)).1
  exact (b.holds_iff_nearest canonical.positive _ _).mp (Interval.found_holds (b.interval_ordered canonical.positive) found)

-- Whole numbers are further apart than the digits of a double that is not whole.
theorem whole_of_nearest (n : Nat) (nearest : Nearest n b.significand b.exponent) : b.numerator % b.denominator = 0 := by
  rcases le_or_gt 0 b.exponent with above | below
  · rw [denominator, show (-b.exponent).toNat = 0 by omega]
    exact Nat.mod_one _
  · have split := split_power 2 two_ne_zero b.exponent
    rw [show b.exponent.toNat = 0 by omega, pow_zero] at split
    have scaled : (n : ℚ) = (n * 2 ^ (-b.exponent).toNat : ℕ) * 2 ^ b.exponent := by
      push_cast
      rw [mul_assoc, mul_comm ((2 : ℚ) ^ (-b.exponent).toNat), split, mul_one]
    have quarters := (gap_bounds b.significand b.exponent).2
    obtain ⟨low, high, -⟩ := nearest.scaled scaled
    have least : b.significand < n * 2 ^ (-b.exponent).toNat + 1 := by
      exact_mod_cast (by linarith : (b.significand : ℚ) < (n * 2 ^ (-b.exponent).toNat : ℕ) + 1)
    have most : n * 2 ^ (-b.exponent).toNat < b.significand + 1 := by
      exact_mod_cast (by linarith : ((n * 2 ^ (-b.exponent).toNat : ℕ) : ℚ) < b.significand + 1)
    have same : b.numerator = n * b.denominator := by
      rw [numerator, denominator, show b.exponent.toNat = 0 by omega, Nat.pow_eq, Nat.pow_eq, pow_zero, mul_one]
      omega
    rw [same, Nat.mul_mod_left]

theorem shortest_whole (canonical : Canonical b.significand b.exponent) :
    0 ≤ b.shortest.exponent ↔ b.numerator % b.denominator = 0 := by
  have nearest := b.shortest_nearest canonical
  constructor
  · intro above
    obtain ⟨zeros, same⟩ := Int.eq_ofNat_of_zero_le above
    refine b.whole_of_nearest (b.shortest.digits * 10 ^ zeros) ?_
    rw [Decimal.value, same, zpow_natCast] at nearest
    exact_mod_cast nearest
  · intro whole
    by_contra below
    have first := (Interval.search_first 20 _ (b.search_hits canonical)).2 0 (by exact lt_of_not_ge below)
    have value := b.whole_value whole
    have filled : (1 : ℚ) ≤ b.value := by
      have some : (0 : ℚ) < b.value := mul_pos (by exact_mod_cast canonical.positive) (by positivity)
      rw [value] at some ⊢
      exact_mod_cast some
    have start : 0 ≤ (digitCount b.interval.value : Int) - digitCount b.interval.denominator + 1 := by
      by_contra early
      have small := (b.search_start canonical.positive).2
      have tiny : (10 : ℚ) ^ ((digitCount b.interval.value : Int) - digitCount b.interval.denominator + 1) ≤ 10 ^ (0 : Int) :=
        zpow_le_zpow_right₀ (by norm_num) (by omega)
      rw [zpow_zero] at tiny
      linarith
    have self : Nearest ((b.numerator / b.denominator : ℕ) * 10 ^ (0 : Int)) b.significand b.exponent := by
      rw [zpow_zero, mul_one, ← value]
      exact nearest_self _ _
    obtain ⟨other, found⟩ := Interval.holds_found (b.interval_ordered canonical.positive)
      ((b.holds_iff_nearest canonical.positive _ 0).mpr self)
    rw [first start] at found
    cases found

end Binary

end CommandScript.Number
