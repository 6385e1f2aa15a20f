import CommandScript.Value.Numeric
import Mathlib.Algebra.Order.Ring.Int
import Mathlib.Tactic.NormNum

set_option autoImplicit false

namespace CommandScript.Number

open Float.Model.Format (binary64)
open Float.Model (UnpackedFloat)
open Float.Model.UnpackedFloat

-- Zero, or a number whose exponent is at most the bound.
def Within (bound : Int) : UnpackedFloat → Prop
  | .zero _ => True
  | .finite _ _ exponent _ => exponent ≤ bound
  | .infinity _ => False
  | .notANumber => False

theorem within_finite (bound : Int) (sign : Sign) (mantissa : Nat) (exponent : Int) (positive : 0 < mantissa) :
    Within bound (.finite sign mantissa exponent positive) ↔ exponent ≤ bound :=
  Iff.rfl

theorem finite_of_within {bound : Int} {x : UnpackedFloat} (within : Within bound x) : x.isFinite = true := by
  cases x with
  | zero | finite => rfl
  | infinity | notANumber => exact within.elim

theorem neg_within {bound : Int} {x : UnpackedFloat} (within : Within bound x) : Within bound x.neg := by
  cases x with
  | zero | finite => exact within
  | infinity | notANumber => exact within.elim

theorem log2_le_of_lt (n digits : Nat) (below : n < 2 ^ digits) : n.log2 ≤ digits := by
  by_cases zero : n = 0
  · simp [zero]
  · exact Nat.le_of_lt ((Nat.log2_lt zero).mpr below)

theorem shifted_mantissa_le (shifted : ExtendedMantissa) (places : Nat) :
    (shifted >>> places).mantissa ≤ shifted.mantissa := by
  change (places.repeat ExtendedMantissa.shiftRightOne shifted).mantissa ≤ shifted.mantissa
  induction places with
  | zero => exact Nat.le_refl _
  | succ places ih => exact Nat.le_trans (Nat.div_le_self _ 2) ih

theorem rounded_mantissa_le (shifted : ExtendedMantissa) : shifted.roundedMantissa ≤ shifted.mantissa + 1 := by
  obtain ⟨mantissa, round, sticky⟩ := shifted
  cases round <;> cases sticky <;>
    simp only [ExtendedMantissa.roundedMantissa, ExtendedMantissa.accuracy, Accuracy.roundToNearestEven] <;> omega

theorem shift_mantissa_le (mantissa : Nat) (exponent : Int) (accuracy : Accuracy) :
    (shiftToTargetExponent binary64 mantissa exponent accuracy).1.mantissa ≤ mantissa := by
  refine Nat.le_trans (shifted_mantissa_le _ _) ?_
  rcases accuracy with _ | side
  · exact Nat.le_refl _
  · cases side <;> exact Nat.le_refl _

-- The exponent at which a number of so many digits is cut: 53 of them are kept.
theorem target_exponent (total : Int) : binary64.targetExponent total = max (total - 53) (-1074) :=
  rfl

theorem shift_exponent_le (mantissa digits : Nat) (exponent bound : Int) (accuracy : Accuracy)
    (short : mantissa < 2 ^ digits) (low : -1074 ≤ bound) (high : exponent ≤ bound) :
    (shiftToTargetExponent binary64 mantissa exponent accuracy).2 ≤ bound + digits := by
  have last := log2_le_of_lt mantissa digits short
  simp only [shiftToTargetExponent, shiftToExponent, target_exponent, Float.Model.totalExponent]
  omega

-- Rounding may carry into one more digit, so the exponent is adjusted twice.
theorem round_within (sign : Sign) (mantissa digits : Nat) (exponent bound limit : Int) (accuracy : Accuracy)
    (short : mantissa < 2 ^ digits) (low : -1074 ≤ bound) (high : exponent ≤ bound) (room : bound + 2 * digits + 1 ≤ limit) :
    Within limit (roundWithAccuracy binary64 sign mantissa exponent accuracy) := by
  have shrunk := shift_mantissa_le mantissa exponent accuracy
  have lifted := shift_exponent_le mantissa digits exponent bound accuracy short low high
  rw [roundWithAccuracy]
  generalize shiftToTargetExponent binary64 mantissa exponent accuracy = first at shrunk lifted ⊢
  obtain ⟨shifted, middle⟩ := first
  dsimp only at shrunk lifted ⊢
  have carried : shifted.roundedMantissa < 2 ^ (digits + 1) := by
    have rounded := rounded_mantissa_le shifted
    rw [Nat.pow_succ]
    omega
  have again := shift_exponent_le shifted.roundedMantissa (digits + 1) middle (bound + digits) .exact carried (by omega) lifted
  by_cases vanishes : (shiftToTargetExponent binary64 shifted.roundedMantissa middle .exact).1.mantissa = 0
  · rw [dif_pos vanishes]
    trivial
  · rw [dif_neg vanishes, within_finite]
    omega

-- The encoding of a number: infinity if it is out of range, and no exponent without a leading digit.
theorem pack_finite (sign : Sign) (mantissa : Nat) (exponent : Int) (positive : 0 < mantissa) :
    pack binary64 (.finite sign mantissa exponent positive) =
      if 2047 ≤ (exponent + 1075).toNat then packedInfinity binary64 sign
      else packComponents binary64 sign (if mantissa.log2 = 52 then BitVec.ofNat 11 (exponent + 1075).toNat else 0#11)
        (BitVec.ofNat 52 mantissa) := by
  have bias : (binary64.exponentBias : Int) = 1023 := rfl
  have fraction : (binary64.mantissaBitsWithoutImplicit : Int) = 52 := rfl
  have codes : 2 ^ binary64.exponentBits = 2048 := rfl
  have width : binary64.mantissaBits = 53 := rfl
  have code : exponent + 1023 + 52 = exponent + 1075 := by omega
  delta pack
  dsimp only
  rw [bias, fraction, codes, width, code]
  by_cases far : 2047 ≤ (exponent + 1075).toNat
  · rw [if_pos far, if_pos (by omega)]
  · rw [if_neg far, if_neg (by omega)]
    by_cases leading : mantissa.log2 = 52
    · rw [if_pos leading, if_pos (by omega)]
    · rw [if_neg leading, if_neg (by omega)]

theorem pack_exponent (x : UnpackedFloat) (bound : Int) (within : Within bound x) (low : -1074 ≤ bound) (high : bound ≤ 971) :
    ((unpackExponent (pack binary64 x)).toNat : Int) ≤ bound + 1075 := by
  have least : (0 : Int) ≤ bound + 1075 := by omega
  cases x with
  | zero sign =>
    delta pack packedZero
    rw [unpackExponent_packComponents]
    exact least
  | finite sign mantissa exponent positive =>
    rw [within_finite] at within
    rw [pack_finite, if_neg (by omega), @unpackExponent_packComponents binary64]
    split
    · rw [BitVec.toNat_ofNat]
      change (((exponent + 1075).toNat % 2 ^ 11 : Nat) : Int) ≤ bound + 1075
      omega
    · exact least
  | infinity | notANumber => exact within.elim

-- The number that the fields of an encoding stand for.
def ofFields (sign : Sign) (code : BitVec 11) (fraction : BitVec 52) : UnpackedFloat :=
  if code = -1#11 then if fraction = 0#52 then .infinity sign else .notANumber
  else if code = 0#11 then
    if zero : fraction.toNat = 0 then .zero sign else .finite sign fraction.toNat (-1074) (Nat.pos_of_ne_zero zero)
  else .finite sign (2 ^ 52 + fraction.toNat) ((code.toNat : Int) - 1075) (Nat.add_pos_left (Nat.pow_pos Nat.two_pos) _)

theorem leading_value (fraction : BitVec 52) : (1#1 ++ fraction).toNat = 2 ^ 52 + fraction.toNat := by
  rw [BitVec.toNat_append, ← Nat.shiftLeft_add_eq_or_of_lt (BitVec.isLt _)]
  rfl

theorem finite_same {mantissa other : Nat} {exponent power : Int} (sign : Sign) (positive : 0 < mantissa) (otherPositive : 0 < other)
    (same : mantissa = other) (level : exponent = power) :
    UnpackedFloat.finite sign mantissa exponent positive = .finite sign other power otherPositive := by
  subst same level
  rfl

theorem unpack_fields (bits : BitVec 64) : unpack binary64 bits =
    ofFields (Sign.ofBitVec (@unpackSign binary64 bits)) (@unpackExponent binary64 bits) (@unpackMantissa binary64 bits) := by
  delta unpack ofFields
  dsimp only
  by_cases full : @unpackExponent binary64 bits = -1#11
  · rw [if_pos full, if_pos full]
  · rw [if_neg full, if_neg full]
    by_cases subnormal : @unpackExponent binary64 bits = 0#11
    · rw [if_pos subnormal, if_pos subnormal]
      by_cases zero : @unpackMantissa binary64 bits = 0#52
      · have none : (@unpackMantissa binary64 bits).toNat = 0 := congrArg BitVec.toNat zero
        rw [dif_pos zero, dif_pos none]
      · have some : (@unpackMantissa binary64 bits).toNat ≠ 0 := fun none => zero (BitVec.eq_of_toNat_eq none)
        have last : ((@unpackExponent binary64 bits).toNat : Int) - (1023 + 52) + 1 = -1074 := by
          rw [subnormal]
          rfl
        rw [dif_neg zero, dif_neg some]
        exact finite_same _ _ _ rfl last
    · rw [if_neg subnormal, if_neg subnormal]
      exact finite_same _ _ _ (leading_value _) rfl

-- What an encoding can stand for: nothing finite, a zero, or a number of at most 53 binary digits.
theorem unpack_cases (bits : BitVec 64) :
    (@unpackExponent binary64 bits = -1#_ ∧ (unpack binary64 bits).isFinite = false) ∨
      (∃ sign, unpack binary64 bits = .zero sign) ∨
      ∃ sign mantissa exponent positive, unpack binary64 bits = .finite sign mantissa exponent positive ∧
        mantissa < 2 ^ 53 ∧ exponent ≤ 971 ∧ exponent ≤ max 1 ((@unpackExponent binary64 bits).toNat : Int) - 1075 := by
  rw [unpack_fields]
  generalize @unpackExponent binary64 bits = code
  generalize @unpackMantissa binary64 bits = fraction
  change BitVec 11 at code
  change BitVec 52 at fraction
  have codes : code.toNat < 2 ^ 11 := code.isLt
  have short : fraction.toNat < 2 ^ 52 := fraction.isLt
  unfold ofFields
  by_cases full : code = -1#11
  · rw [if_pos full]
    refine .inl ⟨full, ?_⟩
    split <;> rfl
  · have inside : code.toNat ≠ 2047 := fun last => full (BitVec.eq_of_toNat_eq last)
    rw [if_neg full]
    refine .inr ?_
    by_cases subnormal : code = 0#11
    · rw [if_pos subnormal]
      by_cases zero : fraction.toNat = 0
      · rw [dif_pos zero]
        exact .inl ⟨_, rfl⟩
      · rw [dif_neg zero]
        refine .inr ⟨_, _, _, _, rfl, by omega, by decide, ?_⟩
        omega
    · rw [if_neg subnormal]
      refine .inr ⟨_, _, _, _, rfl, by omega, ?_, ?_⟩
      · omega
      · omega

theorem unpack_within (bits : BitVec 64) (bound : Int) (low : -1074 ≤ bound) (high : bound ≤ 971)
    (exponent : ((@unpackExponent binary64 bits).toNat : Int) ≤ bound + 1075) : Within bound (unpack binary64 bits) := by
  rcases unpack_cases bits with ⟨full, -⟩ | ⟨sign, same⟩ | ⟨sign, mantissa, own, positive, same, -, -, last⟩
  · rw [full] at exponent
    change (2047 : Int) ≤ bound + 1075 at exponent
    omega
  · rw [same]
    trivial
  · rw [same, within_finite]
    omega

-- What is packed and unpacked again is no further out, as long as the format reaches it.
theorem packed_within (x : UnpackedFloat) (bound : Int) (within : Within bound x) (low : -1074 ≤ bound)
    (high : bound ≤ 971) : Within bound (Float.Model.pack x).unpack := by
  have exponent := pack_exponent x bound within low high
  rw [Float.Model.unpack, Float.Model.pack]
  exact unpack_within _ bound low high exponent

theorem unpacked_within (x : Float.Model) (finite : x.isFinite = true) : Within 971 x.unpack := by
  rw [Float.Model.isFinite, Float.Model.unpack] at finite
  rw [Float.Model.unpack]
  rcases unpack_cases x.toBits.toBitVec with ⟨-, infinite⟩ | ⟨sign, same⟩ | ⟨sign, mantissa, exponent, positive, same, -, top, -⟩
  · rw [infinite] at finite
    exact absurd finite Bool.false_ne_true
  · rw [same]
    trivial
  · rw [same, within_finite]
    exact top

theorem unpacked_mantissa (x : Float.Model) (sign : Sign) (mantissa : Nat) (exponent : Int) (positive : 0 < mantissa)
    (unpacked : x.unpack = .finite sign mantissa exponent positive) : mantissa < 2 ^ 53 := by
  rw [Float.Model.unpack] at unpacked
  rcases unpack_cases x.toBits.toBitVec with ⟨-, infinite⟩ | ⟨sign, same⟩ | ⟨sign, own, exponent, positive, same, short, -⟩
  · rw [unpacked] at infinite
    exact absurd infinite.symm Bool.false_ne_true
  · rw [unpacked] at same
    contradiction
  · rw [unpacked] at same
    exact (UnpackedFloat.finite.inj same).2.1 ▸ short

theorem product_within (x y : Float.Model) (low high : Int) (first : Within low x.unpack) (second : Within high y.unpack)
    (least : -1074 ≤ low + high) : Within (low + high + 213) (mul binary64 x.unpack y.unpack) := by
  rcases left : x.unpack with _ | _ | _ | ⟨sign, mantissa, exponent, positive⟩
  · exact (left ▸ first).elim
  · exact (left ▸ first).elim
  · rcases right : y.unpack with _ | _ | _ | ⟨sign, mantissa, exponent, positive⟩
    · exact (right ▸ second).elim
    · exact (right ▸ second).elim
    · trivial
    · trivial
  · rcases right : y.unpack with _ | _ | _ | ⟨otherSign, otherMantissa, otherExponent, otherPositive⟩
    · exact (right ▸ second).elim
    · exact (right ▸ second).elim
    · trivial
    · rw [left] at first
      rw [right] at second
      have short : mantissa * otherMantissa < 2 ^ 106 := calc
        mantissa * otherMantissa < 2 ^ 53 * 2 ^ 53 :=
          Nat.mul_lt_mul'' (unpacked_mantissa x _ _ _ _ left) (unpacked_mantissa y _ _ _ _ right)
        _ = 2 ^ 106 := by norm_num
      exact round_within _ _ 106 _ (low + high) _ .exact short least (Int.add_le_add first second) (by omega)

theorem of_nat_within (n : Nat) (short : n < 2 ^ 53) : Within 211 (UnpackedFloat.ofNat binary64 n) := by
  rw [UnpackedFloat.ofNat, UnpackedFloat.ofInt, UnpackedFloat.normalize]
  split
  · rename_i negative
    exact absurd (Int.compare_eq_lt.mp negative) (by omega)
  · trivial
  · have target : -52 ≤ binary64.targetExponent (Float.Model.totalExponent n 0) := by
      rw [target_exponent, Float.Model.totalExponent]
      omega
    rw [Int.toNat_natCast, UnpackedFloat.round]
    simp only [decreaseExponent]
    generalize binary64.targetExponent (Float.Model.totalExponent n 0) = least at target
    have aligned : n <<< (0 - least).toNat < 2 ^ 105 := by
      have power : 2 ^ (0 - least).toNat ≤ 2 ^ 52 := Nat.pow_le_pow_right (by decide) (by omega)
      calc n <<< (0 - least).toNat = n * 2 ^ (0 - least).toNat := Nat.shiftLeft_eq _ _
        _ < 2 ^ 53 * 2 ^ 52 := Nat.mul_lt_mul_of_lt_of_le short power (by norm_num)
        _ = 2 ^ 105 := by norm_num
    exact round_within _ _ 105 _ 0 _ .exact aligned (by decide) (by omega) (by decide)

theorem scientific_within (n : Nat) (short : n < 2 ^ 64) : Within 182 (UnpackedFloat.ofScientific binary64 n 0) := by
  rw [UnpackedFloat.ofScientific]
  by_cases zero : n = 0
  · rw [dif_pos zero]
    trivial
  · rw [dif_neg zero]
    have wide : (0 : Int) < 2 ^ binary64.exponentBits := by decide
    rw [if_neg (by omega), if_neg (by omega), if_pos (Int.le_refl 0)]
    delta UnpackedFloat.mul
    dsimp only
    have aligned : n <<< binary64.mantissaBits * 10 ^ Int.toNat 0 < 2 ^ 117 := by
      have width : binary64.mantissaBits = 53 := rfl
      rw [Nat.shiftLeft_eq, width, Int.toNat_zero, Nat.pow_zero, Nat.mul_one]
      omega
    generalize n <<< binary64.mantissaBits * 10 ^ Int.toNat 0 = mantissa at aligned ⊢
    exact round_within _ mantissa 117 _ (-53) _ .exact aligned (by decide) (by decide) (by decide)

theorem neg_finite (x : Float) (finite : x.isFinite = true) : x.neg.isFinite = true := by
  have inside := unpacked_within x.toModel finite
  exact finite_of_within (packed_within _ 971 (neg_within inside) (by decide) (by decide))

-- Small naturals are converted as a product with one, large ones as a decimal.
theorem of_nat_finite (n : Nat) (short : n < 2 ^ 64) : (Float.ofNat n).isFinite = true := by
  rw [Float.ofNat]
  change (Float.ofScientific n false 0).isFinite = true
  rw [Float.ofScientific]
  split
  · rename_i small
    have whole : Within 211 (Float.Model.ofUInt64 n.toUInt64).unpack := by
      refine packed_within _ 211 ?_ (by decide) (by decide)
      have same : n.toUInt64.toNat = n := Nat.mod_eq_of_lt short
      rw [UnpackedFloat.ofUInt64, same]
      exact of_nat_within n small.1
    have one : Within (-52) (Float.ofBits 0x3FF0000000000000).toModel.unpack :=
      unpack_within _ (-52) (by decide) (by decide) (by decide +kernel)
    have product := product_within _ _ 211 (-52) whole one (by decide)
    exact finite_of_within (packed_within _ 372 product (by decide) (by decide))
  · exact finite_of_within (packed_within _ 182 (scientific_within n short) (by decide) (by decide))

theorem of_int64_finite (n : Int64) : (Value.floatOfInt64 n).isFinite = true := by
  rw [Value.floatOfInt64]
  have low := n.le_toInt
  have high := n.toInt_lt
  cases exact : n.toInt with
  | ofNat k =>
    rw [exact, Int.ofNat_eq_natCast] at high
    rw [Float.ofInt]
    exact of_nat_finite k (by omega)
  | negSucc k =>
    rw [exact] at low
    rw [Float.ofInt]
    exact neg_finite _ (of_nat_finite k.succ (by omega))

end CommandScript.Number
