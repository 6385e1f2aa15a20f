import CommandScript.Proofs.Number.Nearest

set_option autoImplicit false

namespace CommandScript.Number

open Float.Model.Format (binary64)
open Float.Model (UnpackedFloat)
open Float.Model.UnpackedFloat

theorem nearest_self (mantissa : Nat) (exponent : Int) : Nearest (mantissa * 2 ^ exponent) mantissa exponent := by
  have unit : (0 : ℚ) < 2 ^ exponent := by positivity
  have quarters := gap_bounds mantissa exponent
  refine ⟨?_, ?_, fun _ => ⟨?_, ?_⟩⟩
  · exact (mul_le_mul_iff_left₀ unit).mpr (by linarith)
  · exact (mul_le_mul_iff_left₀ unit).mpr (by linarith)
  · exact (mul_lt_mul_iff_left₀ unit).mpr (by linarith)
  · exact (mul_lt_mul_iff_left₀ unit).mpr (by linarith)

theorem product_nearest (sign other : Sign) (first second mantissa : Nat) (low high exponent : Int) (firstPositive : 0 < first)
    (secondPositive : 0 < second) (canonical : Canonical mantissa exponent) (long : 2 ^ 52 ≤ first * second)
    (nearest : Nearest (first * 2 ^ low * (second * 2 ^ high)) mantissa exponent) :
    mul binary64 (.finite sign first low firstPositive) (.finite other second high secondPositive) =
      .finite (sign * other) mantissa exponent canonical.positive := by
  have value : (first : ℚ) * 2 ^ low * (second * 2 ^ high) = (first * second : ℕ) * 2 ^ (low + high) := by
    rw [zpow_add₀ two_ne_zero]
    push_cast
    ring
  rw [value] at nearest
  exact round_nearest _ _ _ _ _ .exact _ (.of_exact _) canonical nearest (.inl long)

-- The quotient is worked out to more digits than a double has.
theorem quotient_fine (first second shift : Nat) (firstPositive : 0 < first) (secondPositive : 0 < second)
    (aligned : second.log2 + 53 ≤ first.log2 + shift) : 2 ^ 52 ≤ first * 2 ^ shift / second := by
  rw [Nat.le_div_iff_mul_le secondPositive]
  calc 2 ^ 52 * second ≤ 2 ^ 52 * 2 ^ (second.log2 + 1) := Nat.mul_le_mul_left _ (Nat.le_of_lt Nat.lt_log2_self)
    _ = 2 ^ (second.log2 + 53) := by rw [← Nat.pow_add]; congr 1; omega
    _ ≤ 2 ^ (first.log2 + shift) := Nat.pow_le_pow_right (by decide) aligned
    _ = 2 ^ first.log2 * 2 ^ shift := Nat.pow_add _ _ _
    _ ≤ first * 2 ^ shift := Nat.mul_le_mul_right _ (Nat.log2_self_le (Nat.ne_of_gt firstPositive))

theorem quotient_nearest (sign other : Sign) (first second mantissa : Nat) (low high exponent : Int) (firstPositive : 0 < first)
    (secondPositive : 0 < second) (canonical : Canonical mantissa exponent)
    (nearest : Nearest (first * 2 ^ low / (second * 2 ^ high)) mantissa exponent) :
    div binary64 (.finite sign first low firstPositive) (.finite other second high secondPositive) =
      .finite (sign / other) mantissa exponent canonical.positive := by
  delta div
  simp only [divCore, target_exponent, Float.Model.totalExponent]
  generalize aim : min (low - high) (max _ _) = target
  obtain ⟨shift, apart⟩ : ∃ shift : Nat, low - high - target = shift := ⟨(low - high - target).toNat, by omega⟩
  rw [apart, Int.toNat_natCast, Nat.shiftLeft_eq]
  have value : (first : ℚ) * 2 ^ low / (second * 2 ^ high) = ((first * 2 ^ shift : ℕ) / second : ℚ) * 2 ^ target := by
    have real : (second : ℚ) ≠ 0 := by exact_mod_cast Nat.ne_of_gt secondPositive
    have place : low = shift + target + high := by omega
    rw [place, zpow_add₀ two_ne_zero, zpow_add₀ two_ne_zero, zpow_natCast]
    push_cast
    field_simp
  rw [value] at nearest
  refine round_nearest _ _ _ _ _ _ _ (.of_fraction _ _ secondPositive) canonical nearest ?_
  by_cases bottom : target ≤ -1074
  · exact .inr bottom
  · exact .inl (quotient_fine first second shift firstPositive secondPositive (by omega))

-- A natural number of at most 53 digits is a double.
theorem of_nat_exact (n : Nat) (positive : 0 < n) (short : n < 2 ^ 53) :
    ∃ mantissa exponent, ∃ canonical : Canonical mantissa exponent, 2 ^ 52 ≤ mantissa ∧ (mantissa : ℚ) * 2 ^ exponent = n ∧
      UnpackedFloat.ofNat binary64 n = .finite .positive mantissa exponent canonical.positive := by
  have last : n.log2 < 53 := (Nat.log2_lt (Nat.ne_of_gt positive)).mpr short
  obtain ⟨shift, digits⟩ : ∃ shift, n.log2 + shift = 52 := ⟨52 - n.log2, by omega⟩
  have low : 2 ^ 52 ≤ n * 2 ^ shift := by
    rw [← digits, Nat.pow_add]
    exact Nat.mul_le_mul_right _ (Nat.log2_self_le (Nat.ne_of_gt positive))
  have high : n * 2 ^ shift < 2 ^ 53 := by
    have power : 2 ^ (n.log2 + 1) * 2 ^ shift = 2 ^ 53 := by
      rw [← Nat.pow_add]
      congr 1
      omega
    rw [← power]
    exact Nat.mul_lt_mul_of_pos_right Nat.lt_log2_self (Nat.pow_pos (by decide))
  have canonical : Canonical (n * 2 ^ shift) (-shift) := ⟨by omega, high, by omega, by omega, .inl low⟩
  refine ⟨n * 2 ^ shift, -shift, canonical, low, ?_, ?_⟩
  · push_cast
    rw [mul_assoc, zpow_neg, zpow_natCast, mul_inv_cancel₀ (by positivity), mul_one]
  · have aim : binary64.targetExponent (Float.Model.totalExponent n 0) = -shift := by
      rw [target_exponent, Float.Model.totalExponent]
      omega
    rw [UnpackedFloat.ofNat, UnpackedFloat.ofInt, UnpackedFloat.normalize, Int.compare_eq_gt.mpr (by omega)]
    simp only [Int.toNat_natCast, UnpackedFloat.round, decreaseExponent, aim, sub_neg_eq_add, zero_add, zero_sub, Nat.shiftLeft_eq]
    exact round_nearest _ _ _ _ _ .exact _ (.of_exact _) canonical (nearest_self _ _) (.inl low)

-- The float that a canonical number is.
def ofCanonical (mantissa : Nat) (exponent : Int) (canonical : Canonical mantissa exponent) : Float :=
  .ofModel (Float.Model.pack (.finite .positive mantissa exponent canonical.positive))

theorem split_power (base : ℚ) (nonzero : base ≠ 0) (exponent : Int) :
    base ^ exponent * base ^ (-exponent).toNat = base ^ exponent.toNat := by
  rw [← zpow_natCast, ← zpow_natCast, ← zpow_add₀ nonzero]
  congr 1
  omega

theorem power_of_ten (power : Nat) (known : power < 23) :
    ∃ mantissa exponent, ∃ canonical : Canonical mantissa exponent, 2 ^ 52 ≤ mantissa ∧ (mantissa : ℚ) * 2 ^ exponent = 10 ^ power ∧
      Float.exactlyRepresentablePowersOfTen[power].toModel.unpack = .finite .positive mantissa exponent canonical.positive := by
  have entries : ∀ place : Fin 23, (Binary.ofFloat? Float.exactlyRepresentablePowersOfTen[place]).any (fun b =>
      !b.negative && decide (2 ^ 52 ≤ b.significand) &&
        b.significand * 2 ^ b.exponent.toNat == 10 ^ place.val * 2 ^ (-b.exponent).toNat) = true := by decide +kernel
  have entry := entries ⟨power, known⟩
  obtain ⟨b, parts, facts⟩ := (Option.any_eq_true _ _).mp entry
  simp only [Bool.and_eq_true, Bool.not_eq_true', decide_eq_true_eq, beq_iff_eq] at facts
  obtain ⟨⟨plus, many⟩, same⟩ := facts
  have sign : b.sign = .positive := by rw [Binary.sign, plus, if_neg Bool.false_ne_true]
  rcases unpacked_parts _ b parts with ⟨none, -⟩ | ⟨canonical, unpacked⟩
  · omega
  · rw [sign] at unpacked
    refine ⟨b.significand, b.exponent, canonical, many, ?_, unpacked⟩
    have real : (b.significand : ℚ) * 2 ^ b.exponent.toNat = 10 ^ power * 2 ^ (-b.exponent).toNat := by exact_mod_cast same
    rw [← split_power 2 two_ne_zero, ← mul_assoc] at real
    exact mul_right_cancel₀ (by positivity) real

theorem Nearest.bounds {v : ℚ} {mantissa : Nat} {exponent : Int} (nearest : Nearest v mantissa exponent)
    (canonical : Canonical mantissa exponent) : 2 ^ (-1075 : Int) ≤ v ∧ v < 2 ^ (1024 : Int) := by
  have halves := (gap_bounds mantissa exponent).2
  constructor
  · have one : (1 : ℚ) ≤ mantissa := by exact_mod_cast canonical.positive
    calc (2 : ℚ) ^ (-1075 : Int) = 1 / 2 * 2 ^ (-1074 : Int) := by
          rw [one_div, ← zpow_neg_one, ← zpow_add₀ two_ne_zero]
          rfl
      _ ≤ (mantissa - gap mantissa exponent) * 2 ^ exponent :=
        mul_le_mul (by linarith) (zpow_le_zpow_right₀ one_le_two canonical.least) (by positivity) (by linarith)
      _ ≤ v := nearest.low
  · have top : (mantissa : ℚ) + 1 ≤ 2 ^ 53 := by exact_mod_cast canonical.short
    calc v ≤ (mantissa + 1 / 2) * 2 ^ exponent := nearest.high
      _ < 2 ^ 53 * 2 ^ (971 : Int) :=
        mul_lt_mul (by linarith) (zpow_le_zpow_right₀ one_le_two canonical.greatest) (by positivity) (by positivity)
      _ = 2 ^ (1024 : Int) := by
        rw [← zpow_natCast, ← zpow_add₀ two_ne_zero]
        rfl

-- Far outside the range of a double nothing lies nearest to one.
theorem power_in_range (digits power mantissa : Nat) (exponent : Int) (canonical : Canonical mantissa exponent) (positive : 0 < digits) :
    (Nearest (digits * 10 ^ (power : Int)) mantissa exponent → power ≤ 2 ^ 11) ∧
      (Nearest (digits * 10 ^ (-power : Int)) mantissa exponent → power ≤ 2 ^ 11 + digits.log2) := by
  have growth : (2 : ℚ) ^ power ≤ 10 ^ power := pow_le_pow_left₀ (by norm_num) (by norm_num) power
  constructor
  · intro nearest
    by_contra beyond
    have high := (nearest.bounds canonical).2
    have one : (1 : ℚ) ≤ digits := by exact_mod_cast positive
    have large : (2 : ℚ) ^ (1024 : Int) ≤ 2 ^ power := by
      rw [← zpow_natCast]
      exact zpow_le_zpow_right₀ one_le_two (by omega)
    have product : (2 : ℚ) ^ power ≤ digits * 10 ^ power := by
      calc (2 : ℚ) ^ power = 1 * 2 ^ power := (one_mul _).symm
        _ ≤ digits * 10 ^ power := mul_le_mul one growth (by positivity) (by positivity)
    rw [zpow_natCast (10 : ℚ)] at high
    linarith
  · intro nearest
    by_contra beyond
    have low := (nearest.bounds canonical).1
    have short : (digits : ℚ) < 2 ^ (digits.log2 + 1) := by exact_mod_cast Nat.lt_log2_self
    have tiny : (2 : ℚ) ^ (digits.log2 + 1) ≤ 2 ^ (-1075 : Int) * 2 ^ power := by
      rw [← zpow_natCast, ← zpow_natCast, ← zpow_add₀ two_ne_zero]
      exact zpow_le_zpow_right₀ one_le_two (by push_cast; omega)
    rw [zpow_neg (10 : ℚ), zpow_natCast (10 : ℚ), ← div_eq_mul_inv, le_div_iff₀ (by positivity)] at low
    have product : (2 : ℚ) ^ (-1075 : Int) * 2 ^ power ≤ 2 ^ (-1075 : Int) * 10 ^ power := by gcongr
    linarith

section Decimal

variable {digits mantissa : Nat} {exponent : Int} (canonical : Canonical mantissa exponent)

-- Few digits and a small power are exact doubles, and one operation is left.
theorem small_nearest (power : Nat) (positive : 0 < digits) (short : digits < 2 ^ 53) (known : power < 23) :
    (Nearest (digits * 10 ^ (power : Int)) mantissa exponent →
      digits.toUInt64.toFloat * Float.exactlyRepresentablePowersOfTen[power] = ofCanonical mantissa exponent canonical) ∧
    (Nearest (digits * 10 ^ (-power : Int)) mantissa exponent →
      digits.toUInt64.toFloat / Float.exactlyRepresentablePowersOfTen[power] = ofCanonical mantissa exponent canonical) := by
  obtain ⟨first, low, firstCanonical, firstMany, firstValue, made⟩ := of_nat_exact digits positive short
  obtain ⟨second, high, secondCanonical, secondMany, secondValue, unpacked⟩ := power_of_ten power known
  have whole : digits.toUInt64.toFloat.toModel.unpack = .finite .positive first low firstCanonical.positive := by
    have same : digits.toUInt64.toNat = digits := Nat.mod_eq_of_lt (Nat.lt_trans short (by decide))
    change (Float.Model.pack (UnpackedFloat.ofNat binary64 digits.toUInt64.toNat)).unpack = _
    rw [same, made]
    exact unpack_pack _ _ _ firstCanonical
  constructor
  · intro nearest
    have many : 2 ^ 52 ≤ first * second :=
      Nat.le_trans (by decide) (Nat.mul_le_mul firstMany secondMany)
    rw [zpow_natCast, ← firstValue, ← secondValue] at nearest
    have product := product_nearest .positive .positive first second mantissa low high exponent firstCanonical.positive
      secondCanonical.positive canonical many nearest
    change Float.ofModel (Float.Model.pack (mul binary64 digits.toUInt64.toFloat.toModel.unpack
      Float.exactlyRepresentablePowersOfTen[power].toModel.unpack)) = _
    rw [whole, unpacked, product]
    rfl
  · intro nearest
    rw [zpow_neg, zpow_natCast, ← firstValue, ← secondValue, ← div_eq_mul_inv] at nearest
    have quotient := quotient_nearest .positive .positive first second mantissa low high exponent firstCanonical.positive
      secondCanonical.positive canonical nearest
    change Float.ofModel (Float.Model.pack (div binary64 digits.toUInt64.toFloat.toModel.unpack
      Float.exactlyRepresentablePowersOfTen[power].toModel.unpack)) = _
    rw [whole, unpacked, quotient]
    rfl

theorem large_nearest (power : Int) (positive : 0 < digits) (nearest : Nearest (digits * 10 ^ power) mantissa exponent) :
    UnpackedFloat.ofScientific binary64 digits power = .finite .positive mantissa exponent canonical.positive := by
  have range : (2 : Int) ^ binary64.exponentBits = 2 ^ 11 := rfl
  have width : binary64.mantissaBits = 53 := rfl
  rw [UnpackedFloat.ofScientific, dif_neg (Nat.ne_of_gt positive), range]
  rcases le_or_gt 0 power with above | below
  · obtain ⟨zeros, rfl⟩ := Int.eq_ofNat_of_zero_le above
    have few := (power_in_range digits zeros mantissa exponent canonical positive).1 nearest
    have many : 2 ^ 52 ≤ digits <<< 53 * 10 ^ zeros := by
      rw [Nat.shiftLeft_eq]
      calc 2 ^ 52 ≤ 1 * 2 ^ 53 * 1 := by decide
        _ ≤ digits * 2 ^ 53 * 10 ^ zeros := Nat.mul_le_mul (Nat.mul_le_mul_right _ positive) (Nat.pow_pos (by decide))
    have value : (digits : ℚ) * (10 : ℚ) ^ (zeros : Int) = (digits <<< 53 : ℕ) * 2 ^ (-53 : Int) * ((10 ^ zeros : ℕ) * 2 ^ (0 : Int)) := by
      rw [Nat.shiftLeft_eq, zpow_natCast, zpow_neg, zpow_zero]
      push_cast
      field_simp
    rw [if_neg (by omega), if_neg (by omega), if_pos above]
    rw [value] at nearest
    exact product_nearest .positive .positive _ _ mantissa _ _ exponent _ _ canonical many nearest
  · obtain ⟨zeros, rfl⟩ : ∃ zeros : Nat, power = -zeros := ⟨(-power).toNat, by omega⟩
    have few := (power_in_range digits zeros mantissa exponent canonical positive).2 nearest
    have value : (digits : ℚ) * (10 : ℚ) ^ (-zeros : Int) = digits * 2 ^ (0 : Int) / ((10 ^ zeros : ℕ) * 2 ^ (0 : Int)) := by
      rw [zpow_neg, zpow_natCast, zpow_zero]
      push_cast
      ring
    rw [if_neg (by omega), if_neg (by omega), if_neg (by omega)]
    rw [value] at nearest
    simp only [neg_neg, Int.toNat_natCast]
    exact quotient_nearest .positive .positive _ _ mantissa _ _ exponent _ _ canonical nearest

end Decimal

-- A decimal becomes the double that it lies nearest to.
theorem scientific_nearest (digits power mantissa : Nat) (below : Bool) (exponent : Int) (canonical : Canonical mantissa exponent)
    (nearest : Nearest (digits * 10 ^ (if below then -(power : Int) else power)) mantissa exponent) :
    Float.ofScientific digits below power = ofCanonical mantissa exponent canonical := by
  have positive : 0 < digits := by
    rcases Nat.eq_zero_or_pos digits with rfl | positive
    · have least := (nearest.bounds canonical).1
      rw [Nat.cast_zero, zero_mul] at least
      exact absurd least (not_le.mpr (by positivity))
    · exact positive
  rw [Float.ofScientific]
  split
  · rename_i small
    obtain ⟨product, quotient⟩ := small_nearest canonical power positive small.1 (by omega)
    cases below with
    | true => exact quotient nearest
    | false => exact product nearest
  · cases below with
    | true =>
      rw [if_pos rfl] at nearest
      change Float.ofModel (Float.Model.pack (UnpackedFloat.ofScientific binary64 digits (Int.negOfNat power))) = _
      rw [Int.negOfNat_eq, Int.ofNat_eq_natCast, large_nearest canonical _ positive nearest]
      rfl
    | false =>
      rw [if_neg Bool.false_ne_true] at nearest
      change Float.ofModel (Float.Model.pack (UnpackedFloat.ofScientific binary64 digits power)) = _
      rw [large_nearest canonical _ positive nearest]
      rfl

end CommandScript.Number
