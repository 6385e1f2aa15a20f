import CommandScript.Proofs.Number.Canonical

set_option autoImplicit false

namespace CommandScript.Number

open Float.Model.Format (binary64)
open Float.Model (UnpackedFloat)
open Float.Model.UnpackedFloat

-- What the bits behind a mantissa tell of the number that it was cut from.
inductive Stands : ExtendedMantissa → ℚ → Prop where
  | exact (mantissa : Nat) (v : ℚ) (same : v = mantissa) : Stands ⟨mantissa, false, false⟩ v
  | less (mantissa : Nat) (v : ℚ) (low : (mantissa : ℚ) < v) (high : v < mantissa + 1 / 2) : Stands ⟨mantissa, false, true⟩ v
  | half (mantissa : Nat) (v : ℚ) (same : v = mantissa + 1 / 2) : Stands ⟨mantissa, true, false⟩ v
  | more (mantissa : Nat) (v : ℚ) (low : (mantissa : ℚ) + 1 / 2 < v) (high : v < mantissa + 1) : Stands ⟨mantissa, true, true⟩ v

namespace Stands

theorem of_exact (mantissa : Nat) : Stands (ExtendedMantissa.ofMantissaAndAccuracy mantissa .exact) mantissa :=
  .exact mantissa mantissa rfl

theorem of_fraction (numerator denominator : Nat) (positive : 0 < denominator) :
    Stands (ExtendedMantissa.ofMantissaAndAccuracy (numerator / denominator)
      (accuracyOfFraction (numerator % denominator) denominator)) (numerator / denominator) := by
  have whole : (denominator : ℚ) * (numerator / denominator : ℕ) + (numerator % denominator : ℕ) = numerator := by
    exact_mod_cast Nat.div_add_mod numerator denominator
  have below := Nat.mod_lt numerator positive
  generalize numerator / denominator = quotient at whole ⊢
  generalize numerator % denominator = remainder at whole below ⊢
  have real : (0 : ℚ) < denominator := by exact_mod_cast positive
  have value : (numerator : ℚ) / denominator = quotient + remainder / denominator := by
    rw [← whole]
    field_simp
  rw [value, accuracyOfFraction]
  by_cases exact : remainder = 0
  · rw [if_pos exact, exact, Nat.cast_zero, zero_div, add_zero]
    exact of_exact quotient
  · rw [if_neg exact]
    rcases lt_trichotomy (2 * remainder) denominator with less | half | more
    · rw [Nat.compare_eq_lt.mpr less]
      refine .less quotient _ (lt_add_of_pos_right _ ?_) (add_lt_add_right ?_ _)
      · exact div_pos (by exact_mod_cast Nat.pos_of_ne_zero exact) real
      · rw [div_lt_div_iff₀ real two_pos]
        exact_mod_cast (by omega : remainder * 2 < 1 * denominator)
    · rw [Nat.compare_eq_eq.mpr half]
      refine .half quotient _ ?_
      rw [add_right_inj, div_eq_div_iff real.ne' two_ne_zero]
      exact_mod_cast (by omega : remainder * 2 = 1 * denominator)
    · rw [Nat.compare_eq_gt.mpr more]
      refine .more quotient _ (add_lt_add_right ?_ _) (add_lt_add_right ?_ _)
      · rw [div_lt_div_iff₀ two_pos real]
        exact_mod_cast (by omega : 1 * denominator < remainder * 2)
      · rw [div_lt_one real]
        exact_mod_cast below

theorem shift_one {cut : ExtendedMantissa} {v : ℚ} (stands : Stands cut v) : Stands cut.shiftRightOne (v / 2) := by
  have even (k : Nat) (round sticky : Bool) :
      ExtendedMantissa.shiftRightOne ⟨2 * k, round, sticky⟩ = ⟨k, false, round || sticky⟩ := by
    simp [ExtendedMantissa.shiftRightOne]
  have odd (k : Nat) (round sticky : Bool) :
      ExtendedMantissa.shiftRightOne ⟨2 * k + 1, round, sticky⟩ = ⟨k, true, round || sticky⟩ := by
    simp [ExtendedMantissa.shiftRightOne, Nat.add_mod]
    omega
  cases stands with
  | exact mantissa _ same =>
    obtain ⟨k, rfl | rfl⟩ := Nat.even_or_odd' mantissa <;> push_cast at same
    · exact even k _ _ ▸ .exact k _ (by linarith)
    · exact odd k _ _ ▸ .half k _ (by linarith)
  | less mantissa _ low high =>
    obtain ⟨k, rfl | rfl⟩ := Nat.even_or_odd' mantissa <;> push_cast at low high
    · exact even k _ _ ▸ .less k _ (by linarith) (by linarith)
    · exact odd k _ _ ▸ .more k _ (by linarith) (by linarith)
  | half mantissa _ same =>
    obtain ⟨k, rfl | rfl⟩ := Nat.even_or_odd' mantissa <;> push_cast at same
    · exact even k _ _ ▸ .less k _ (by linarith) (by linarith)
    · exact odd k _ _ ▸ .more k _ (by linarith) (by linarith)
  | more mantissa _ low high =>
    obtain ⟨k, rfl | rfl⟩ := Nat.even_or_odd' mantissa <;> push_cast at low high
    · exact even k _ _ ▸ .less k _ (by linarith) (by linarith)
    · exact odd k _ _ ▸ .more k _ (by linarith) (by linarith)

theorem shift {cut : ExtendedMantissa} {v : ℚ} (stands : Stands cut v) (places : Nat) : Stands (cut >>> places) (v / 2 ^ places) := by
  change Stands (places.repeat ExtendedMantissa.shiftRightOne cut) _
  induction places with
  | zero =>
    rw [pow_zero, div_one]
    exact stands
  | succ places ih =>
    rw [pow_succ, ← div_div]
    exact ih.shift_one

theorem bounds {cut : ExtendedMantissa} {v : ℚ} (stands : Stands cut v) : (cut.mantissa : ℚ) ≤ v ∧ v < cut.mantissa + 1 := by
  cases stands with
  | exact mantissa _ same | half mantissa _ same => constructor <;> dsimp only <;> linarith
  | less mantissa _ low high | more mantissa _ low high => constructor <;> dsimp only <;> linarith

theorem whole {cut : ExtendedMantissa} {n : Nat} (stands : Stands cut n) : cut.mantissa = n := by
  obtain ⟨low, high⟩ := stands.bounds
  have least : cut.mantissa ≤ n := by exact_mod_cast low
  have most : n < cut.mantissa + 1 := by exact_mod_cast high
  omega

-- A number is rounded to the whole number that is at most a half away, and to the even one of two.
theorem rounded {cut : ExtendedMantissa} {v : ℚ} (stands : Stands cut v) (n : Nat) (low : (n : ℚ) - 1 / 2 ≤ v)
    (high : v ≤ n + 1 / 2) (inner : n % 2 = 1 → (n : ℚ) - 1 / 2 < v ∧ v < n + 1 / 2) : cut.roundedMantissa = n := by
  cases stands with
  | exact mantissa _ same =>
    have least : n < mantissa + 1 := by exact_mod_cast (by linarith : (n : ℚ) < mantissa + 1)
    have most : mantissa < n + 1 := by exact_mod_cast (by linarith : (mantissa : ℚ) < n + 1)
    change mantissa = n
    omega
  | less mantissa _ above below =>
    have least : n < mantissa + 1 := by exact_mod_cast (by linarith : (n : ℚ) < mantissa + 1)
    have most : mantissa < n + 1 := by exact_mod_cast (by linarith : (mantissa : ℚ) < n + 1)
    change mantissa = n
    omega
  | half mantissa _ same =>
    have least : n ≤ mantissa + 1 := by exact_mod_cast (by linarith : (n : ℚ) ≤ mantissa + 1)
    have most : mantissa ≤ n := by exact_mod_cast (by linarith : (mantissa : ℚ) ≤ n)
    have even : n % 2 = 0 := by
      by_contra odd
      obtain ⟨above, below⟩ := inner (by omega)
      have one : n < mantissa + 1 := by exact_mod_cast (by linarith : (n : ℚ) < mantissa + 1)
      have other : mantissa < n := by exact_mod_cast (by linarith : (mantissa : ℚ) < n)
      omega
    change mantissa + mantissa % 2 = n
    omega
  | more mantissa _ above below =>
    have least : n < mantissa + 2 := by exact_mod_cast (by linarith : (n : ℚ) < mantissa + 2)
    have most : mantissa < n := by exact_mod_cast (by linarith : (mantissa : ℚ) < n)
    change mantissa + 1 = n
    omega

end Stands

-- How far below a double the numbers reach that are rounded to it, in units of its last digit: below
-- a power of two the neighbour is only half as far away.
def gap (mantissa : Nat) (exponent : Int) : ℚ :=
  if mantissa = 2 ^ 52 ∧ exponent ≠ -1074 then 1 / 4 else 1 / 2

-- The numbers that are rounded to a double. The ends belong to them if the double is even.
structure Nearest (v : ℚ) (mantissa : Nat) (exponent : Int) : Prop where
  low : (mantissa - gap mantissa exponent) * 2 ^ exponent ≤ v
  high : v ≤ (mantissa + 1 / 2) * 2 ^ exponent
  inner : mantissa % 2 = 1 → (mantissa - gap mantissa exponent) * 2 ^ exponent < v ∧ v < (mantissa + 1 / 2) * 2 ^ exponent

theorem gap_bounds (mantissa : Nat) (exponent : Int) : 1 / 4 ≤ gap mantissa exponent ∧ gap mantissa exponent ≤ 1 / 2 := by
  unfold gap
  split <;> norm_num

-- The place at which a mantissa is cut: never before its last digit.
def place (mantissa : Nat) (exponent : Int) : Int :=
  max exponent (max ((mantissa.log2 : Int) + 1 + exponent - 53) (-1074))

theorem shifted_stands (mantissa : Nat) (exponent : Int) (accuracy : Accuracy) (v : ℚ)
    (stands : Stands (ExtendedMantissa.ofMantissaAndAccuracy mantissa accuracy) v) :
    ∃ cut, shiftToTargetExponent binary64 mantissa exponent accuracy = (cut, place mantissa exponent) ∧
      Stands cut (v * 2 ^ (exponent - place mantissa exponent)) := by
  simp only [shiftToTargetExponent, shiftToExponent, target_exponent, Float.Model.totalExponent]
  generalize reach : max ((mantissa.log2 : Int) + 1 + exponent - 53) (-1074) = target
  have last : place mantissa exponent = max exponent target := by rw [place, reach]
  have amount : exponent + ((target - exponent).toNat : Int) = place mantissa exponent := by omega
  refine ⟨_, Prod.ext rfl amount, ?_⟩
  have power : (2 : ℚ) ^ (exponent - place mantissa exponent) = (2 ^ (target - exponent).toNat)⁻¹ := by
    rw [← amount, ← zpow_natCast, ← zpow_neg]
    congr 1
    omega
  rw [power, ← div_eq_mul_inv]
  exact stands.shift _

-- Rounding may carry into one more digit, so the mantissa is cut a second time.
theorem rounded_twice (sign : Sign) (mantissa rounded final : Nat) (exponent middle last : Int) (accuracy : Accuracy) (v : ℚ)
    (stands : Stands (ExtendedMantissa.ofMantissaAndAccuracy mantissa accuracy) v) (first : place mantissa exponent = middle)
    (low : (rounded : ℚ) - 1 / 2 ≤ v * 2 ^ (exponent - middle)) (high : v * 2 ^ (exponent - middle) ≤ rounded + 1 / 2)
    (inner : rounded % 2 = 1 → (rounded : ℚ) - 1 / 2 < v * 2 ^ (exponent - middle) ∧ v * 2 ^ (exponent - middle) < rounded + 1 / 2)
    (second : place rounded middle = last) (kept : (rounded : ℚ) * 2 ^ (middle - last) = final) (positive : 0 < final) :
    roundWithAccuracy binary64 sign mantissa exponent accuracy = .finite sign final last positive := by
  obtain ⟨cut, shifted, near⟩ := shifted_stands mantissa exponent accuracy v stands
  rw [first] at shifted near
  have whole := near.rounded rounded low high inner
  obtain ⟨again, settled, exact⟩ := shifted_stands rounded middle .exact rounded (.of_exact rounded)
  rw [second, kept] at exact
  rw [second] at settled
  have same : again.mantissa = final := exact.whole
  rw [roundWithAccuracy]
  simp only [shifted, whole, settled, same]
  rw [dif_neg (Nat.ne_of_gt positive)]

theorem place_of_bounds (mantissa digits : Nat) (exponent : Int) (low : 2 ^ digits ≤ mantissa) (high : mantissa < 2 ^ (digits + 1)) :
    place mantissa exponent = max exponent (max ((digits : Int) + 1 + exponent - 53) (-1074)) := by
  rw [place, log2_eq_of_bounds mantissa digits low high]

theorem place_of_short (mantissa digits : Nat) (exponent : Int) (short : mantissa < 2 ^ digits) :
    place mantissa exponent ≤ max exponent (max ((digits : Int) + 1 + exponent - 53) (-1074)) := by
  have last := log2_le_of_lt mantissa digits short
  rw [place]
  omega

theorem Canonical.place_same {mantissa : Nat} {exponent : Int} (canonical : Canonical mantissa exponent) :
    place mantissa exponent = exponent := by
  have last : mantissa.log2 < 53 := (Nat.log2_lt (Nat.ne_of_gt canonical.positive)).mpr canonical.short
  have least := canonical.least
  rw [place]
  omega

-- The same bounds, counted in units of the last digit.
theorem Nearest.scaled {v w : ℚ} {mantissa : Nat} {exponent : Int} (nearest : Nearest v mantissa exponent) (same : v = w * 2 ^ exponent) :
    mantissa - gap mantissa exponent ≤ w ∧ w ≤ mantissa + 1 / 2 ∧
      (mantissa % 2 = 1 → mantissa - gap mantissa exponent < w ∧ w < mantissa + 1 / 2) := by
  have unit : (0 : ℚ) < 2 ^ exponent := by positivity
  obtain ⟨low, high, inner⟩ := nearest
  rw [same, mul_le_mul_iff_left₀ unit] at low high
  rw [same, mul_lt_mul_iff_left₀ unit, mul_lt_mul_iff_left₀ unit] at inner
  exact ⟨low, high, inner⟩

theorem made_mantissa (mantissa : Nat) (accuracy : Accuracy) :
    (ExtendedMantissa.ofMantissaAndAccuracy mantissa accuracy).mantissa = mantissa := by
  rcases accuracy with _ | side
  · rfl
  · cases side <;> rfl

-- Enough digits are worked out if the last one is not beyond the last digit of the double.
theorem fine_exponent (mantissa significand : Nat) (exponent power : Int) (v : ℚ) (floor : (mantissa : ℚ) ≤ v)
    (canonical : Canonical significand power) (high : v * 2 ^ (exponent - power) ≤ significand + 1 / 2)
    (fine : 2 ^ 52 ≤ mantissa ∨ exponent ≤ -1074) : exponent ≤ power := by
  by_contra beyond
  have least := canonical.least
  have many : (2 : ℚ) ^ 52 ≤ mantissa := by exact_mod_cast fine.resolve_right (by omega)
  have short : (significand : ℚ) + 1 ≤ 2 ^ 53 := by exact_mod_cast canonical.short
  have twice : (2 : ℚ) ≤ 2 ^ (exponent - power) := by
    calc (2 : ℚ) = 2 ^ (1 : Int) := by norm_num
      _ ≤ 2 ^ (exponent - power) := zpow_le_zpow_right₀ one_le_two (by omega)
  have product : (2 : ℚ) ^ 52 * 2 ≤ v * 2 ^ (exponent - power) :=
    mul_le_mul (many.trans floor) twice (by positivity) (le_trans (by positivity) (many.trans floor))
  linarith

section Cut

variable {sign : Sign} {mantissa significand places : Nat} {exponent : Int} {accuracy : Accuracy} {v w : ℚ}

-- The mantissa is cut where the double ends.
theorem round_level (stands : Stands (ExtendedMantissa.ofMantissaAndAccuracy mantissa accuracy) v)
    (canonical : Canonical significand (exponent + places)) (counted : v * 2 ^ (exponent - (exponent + places)) = w)
    (low : significand - gap significand (exponent + places) ≤ w) (high : w ≤ significand + 1 / 2)
    (inner : significand % 2 = 1 → significand - gap significand (exponent + places) < w ∧ w < significand + 1 / 2)
    (wide : mantissa < 2 ^ 53 * 2 ^ places) (level : 2 ^ 52 * 2 ^ places ≤ mantissa ∨ exponent + places = -1074) :
    roundWithAccuracy binary64 sign mantissa exponent accuracy = .finite sign significand (exponent + places) canonical.positive := by
  have least := canonical.least
  have middle : place mantissa exponent = exponent + places := by
    by_cases many : 2 ^ 52 * 2 ^ places ≤ mantissa
    · rw [place_of_bounds mantissa (52 + places) exponent (by rw [pow_add]; exact many) (by rw [add_right_comm, pow_add]; exact wide)]
      omega
    · have last := level.resolve_left many
      have short := place_of_short mantissa (52 + places) exponent (by rw [pow_add]; exact Nat.lt_of_not_le many)
      have bottom : -1074 ≤ place mantissa exponent := by rw [place]; omega
      omega
  have halves := (gap_bounds significand (exponent + places)).2
  apply rounded_twice sign mantissa significand significand exponent _ _ accuracy v stands middle
  · rw [counted]
    linarith
  · rw [counted]
    exact high
  · rw [counted]
    intro odd
    obtain ⟨above, below⟩ := inner odd
    exact ⟨by linarith, below⟩
  · exact canonical.place_same
  · rw [sub_self, zpow_zero, mul_one]

-- Just below a power of two there is room for one more digit, and the mantissa carries.
theorem round_carry (stands : Stands (ExtendedMantissa.ofMantissaAndAccuracy mantissa accuracy) v)
    (least : -1074 ≤ exponent + places) (counted : v * 2 ^ (exponent - (exponent + places)) = w) (low : 2 ^ 52 - 1 / 4 ≤ w) (below : w < 2 ^ 52)
    (room : places ≠ 0) (many : 2 ^ 51 * 2 ^ places ≤ mantissa) (few : mantissa < 2 ^ 52 * 2 ^ places)
    (later : exponent + places ≠ -1074) :
    roundWithAccuracy binary64 sign mantissa exponent accuracy = .finite sign (2 ^ 52) (exponent + places) (by decide) := by
  have middle : place mantissa exponent = exponent + places - 1 := by
    rw [place_of_bounds mantissa (51 + places) exponent (by rw [pow_add]; exact many) (by rw [add_right_comm, pow_add]; exact few)]
    omega
  have doubled : v * 2 ^ (exponent - (exponent + places - 1)) = 2 * w := by
    rw [← counted, show exponent - (exponent + (places : Int) - 1) = exponent - (exponent + places) + 1 by omega,
      zpow_add_one₀ two_ne_zero]
    ring
  apply rounded_twice sign mantissa (2 ^ 53) (2 ^ 52) exponent _ _ accuracy v stands middle
  · rw [doubled]
    push_cast
    linarith
  · rw [doubled]
    push_cast
    linarith
  · intro odd
    exact absurd odd (by decide)
  · rw [place_of_bounds (2 ^ 53) 53 _ (Nat.le_refl _) (by decide)]
    omega
  · rw [show exponent + (places : Int) - 1 - (exponent + places) = -1 by omega]
    norm_num

end Cut

-- Rounding is correct: whatever lies nearest to a double becomes that double, as long as enough digits
-- were worked out.
theorem round_nearest (sign : Sign) (mantissa significand : Nat) (exponent power : Int) (accuracy : Accuracy) (v : ℚ)
    (stands : Stands (ExtendedMantissa.ofMantissaAndAccuracy mantissa accuracy) v) (canonical : Canonical significand power)
    (nearest : Nearest (v * 2 ^ exponent) significand power) (fine : 2 ^ 52 ≤ mantissa ∨ exponent ≤ -1074) :
    roundWithAccuracy binary64 sign mantissa exponent accuracy = .finite sign significand power canonical.positive := by
  have bounds := stands.bounds
  rw [made_mantissa] at bounds
  obtain ⟨floor, ceil⟩ := bounds
  obtain ⟨low, high, inner⟩ := nearest.scaled (by
    rw [mul_assoc, ← zpow_add₀ two_ne_zero, sub_add_cancel] : v * 2 ^ exponent = v * 2 ^ (exponent - power) * 2 ^ power)
  have reach := fine_exponent mantissa significand exponent power v floor canonical high fine
  obtain ⟨places, rfl⟩ : ∃ places : Nat, power = exponent + places := ⟨(power - exponent).toNat, by omega⟩
  obtain ⟨w, counted⟩ : ∃ w, v * 2 ^ (exponent - (exponent + places)) = w := ⟨_, rfl⟩
  have scale : (0 : ℚ) < 2 ^ places := by positivity
  have value : v = w * 2 ^ places := by
    rw [← counted, sub_add_cancel_left, zpow_neg, zpow_natCast, inv_mul_cancel_right₀ scale.ne']
  rw [counted] at low high inner
  by_cases level : 2 ^ 52 * 2 ^ places ≤ mantissa ∨ exponent + places = -1074
  · have top : (significand : ℚ) + 1 ≤ 2 ^ 53 := by exact_mod_cast canonical.short
    have real : (mantissa : ℚ) < 2 ^ 53 * 2 ^ places := by
      rw [value] at floor
      exact lt_of_le_of_lt floor ((mul_lt_mul_iff_left₀ scale).mpr (by linarith))
    exact round_level stands canonical counted low high inner (by exact_mod_cast real) level
  · obtain ⟨few, later⟩ := not_or.mp level
    have below : w < 2 ^ 52 := by
      have real : (mantissa : ℚ) + 1 ≤ 2 ^ 52 * 2 ^ places := by exact_mod_cast Nat.lt_of_not_le few
      rw [value] at ceil
      exact (mul_lt_mul_iff_left₀ scale).mp (lt_of_lt_of_le ceil real)
    have halves := (gap_bounds significand (exponent + places)).2
    have full := canonical.full.resolve_right later
    obtain rfl : significand = 2 ^ 52 := by
      have real : (significand : ℚ) < 2 ^ 52 + 1 := by linarith
      have least : significand < 2 ^ 52 + 1 := by exact_mod_cast real
      omega
    rw [gap, if_pos ⟨rfl, later⟩] at low
    push_cast at low
    have many : 2 ^ 51 * 2 ^ places < mantissa + 1 := by
      have real : (2 : ℚ) ^ 51 * 2 ^ places < mantissa + 1 := by
        rw [value] at ceil
        exact lt_of_le_of_lt ((mul_le_mul_iff_left₀ scale).mpr (by linarith)) ceil
      exact_mod_cast real
    have room : places ≠ 0 := by
      rintro rfl
      rcases fine with filled | last
      · exact few (by simpa using filled)
      · have least := canonical.least
        omega
    exact round_carry stands canonical.least counted low below room (Nat.le_of_lt_succ many) (Nat.lt_of_not_le few) later

end CommandScript.Number
