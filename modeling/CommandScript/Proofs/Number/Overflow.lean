import CommandScript.Proofs.Number.Nearest

set_option autoImplicit false

namespace CommandScript.Number

open Float.Model.Format (binary64)
open Float.Model (UnpackedFloat)
open Float.Model.UnpackedFloat

-- Zero, or a number above it. Infinity is such a number.
def Upward : UnpackedFloat → Prop
  | .zero _ => True
  | .finite sign _ _ _ => sign = .positive
  | .infinity sign => sign = .positive
  | .notANumber => False

theorem unpack_infinity (sign : Sign) : (Float.Model.pack (.infinity sign)).unpack = .infinity sign := by
  cases sign <;> rfl

theorem unpack_zero (sign : Sign) : (Float.Model.pack (.zero sign)).unpack = .zero sign := by
  cases sign <;> rfl

theorem fields_upward (code : BitVec 11) (fraction : BitVec 52) (inside : code ≠ -1#11) :
    Upward (ofFields .positive code fraction) := by
  unfold ofFields
  rw [if_neg inside]
  split
  · split
    · trivial
    · rfl
  · rfl

-- A positive number stays one in the encoding, unless it becomes zero or infinite.
theorem packed_upward (x : UnpackedFloat) (upward : Upward x) : Upward (Float.Model.pack x).unpack := by
  cases x with
  | notANumber => exact upward.elim
  | infinity sign =>
    rw [unpack_infinity]
    exact upward
  | zero sign =>
    rw [unpack_zero]
    trivial
  | finite sign mantissa exponent positive =>
    obtain rfl : sign = .positive := upward
    change Upward (unpack binary64 (pack binary64 (.finite .positive mantissa exponent positive)))
    rw [pack_finite]
    by_cases far : 2047 ≤ (exponent + 1075).toNat
    · have infinite : unpack binary64 (packedInfinity binary64 .positive) = .infinity .positive := unpack_infinity .positive
      rw [if_pos far, infinite]
      rfl
    · rw [if_neg far, packed_fields]
      refine fields_upward _ _ fun last => ?_
      split at last
      · have code := congrArg BitVec.toNat last
        rw [BitVec.toNat_ofNat] at code
        change (exponent + 1075).toNat % 2048 = 2047 at code
        omega
      · exact absurd last (by decide)

theorem round_upward (mantissa : Nat) (exponent : Int) (accuracy : Accuracy) :
    Upward (roundWithAccuracy binary64 .positive mantissa exponent accuracy) := by
  rw [roundWithAccuracy]
  dsimp only
  split
  · trivial
  · rfl

theorem square_upward (x : UnpackedFloat) (finite : x.isFinite = true) : Upward (mul binary64 x x) := by
  cases x with
  | notANumber | infinity => cases finite
  | zero => trivial
  | finite sign mantissa exponent positive =>
    have sign : sign * sign = .positive := by cases sign <;> rfl
    change Upward (roundWithAccuracy binary64 (_ * _) _ _ _)
    rw [sign]
    exact round_upward _ _ _

theorem sum_upward (x y : UnpackedFloat) (first : Upward x) (second : Upward y) : Upward (add binary64 x y) := by
  cases x with
  | notANumber => exact first.elim
  | infinity sign =>
    obtain rfl : sign = .positive := first
    cases y with
    | notANumber => exact second.elim
    | infinity sign =>
      obtain rfl : sign = .positive := second
      rfl
    | zero | finite => rfl
  | zero sign =>
    cases y with
    | notANumber => exact second.elim
    | infinity | finite => exact second
    | zero other => cases sign <;> cases other <;> trivial
  | finite sign mantissa exponent positive =>
    obtain rfl : sign = .positive := first
    cases y with
    | notANumber => exact second.elim
    | infinity => exact second
    | zero => rfl
    | finite sign other power otherPositive =>
      obtain rfl : sign = .positive := second
      delta add
      dsimp only
      rw [UnpackedFloat.normalize]
      split
      · rename_i negative
        exact absurd (Int.compare_eq_lt.mp negative) (not_lt.mpr (Int.add_nonneg (Int.natCast_nonneg _) (Int.natCast_nonneg _)))
      · trivial
      · exact round_upward _ _ _

theorem sum_infinite (x y : UnpackedFloat) (first : Upward x) (second : Upward y)
    (infinite : x = .infinity .positive ∨ y = .infinity .positive) : add binary64 x y = .infinity .positive := by
  rcases infinite with rfl | rfl
  · cases y with
    | notANumber => exact second.elim
    | infinity sign =>
      obtain rfl : sign = .positive := second
      rfl
    | zero | finite => rfl
  · cases x with
    | notANumber => exact first.elim
    | infinity sign =>
      obtain rfl : sign = .positive := first
      rfl
    | zero | finite => rfl

theorem root_upward (x : UnpackedFloat) (upward : Upward x) : Upward (sqrt binary64 x) := by
  cases x with
  | notANumber => exact upward.elim
  | infinity sign =>
    obtain rfl : sign = .positive := upward
    rfl
  | zero => trivial
  | finite sign mantissa exponent positive =>
    obtain rfl : sign = .positive := upward
    exact round_upward _ _ _

-- A cut at the last digit keeps the leading one.
theorem shifted_filled (mantissa : Nat) (exponent : Int) (filled : 0 < mantissa) (least : -1074 ≤ exponent) :
    ∃ cut, shiftToTargetExponent binary64 mantissa exponent .exact = (cut, place mantissa exponent) ∧ 0 < cut.mantissa := by
  obtain ⟨cut, shifted, stands⟩ := shifted_stands mantissa exponent .exact mantissa (.of_exact mantissa)
  refine ⟨cut, shifted, ?_⟩
  have leading : (2 : ℚ) ^ (mantissa.log2 : Int) ≤ mantissa := by
    rw [zpow_natCast]
    exact_mod_cast Nat.log2_self_le (Nat.ne_of_gt filled)
  have near : 0 ≤ (mantissa.log2 : Int) + (exponent - place mantissa exponent) := by
    rw [place]
    omega
  have one : (1 : ℚ) ≤ mantissa * 2 ^ (exponent - place mantissa exponent) := calc
    (1 : ℚ) ≤ 2 ^ ((mantissa.log2 : Int) + (exponent - place mantissa exponent)) := one_le_zpow₀ one_le_two near
    _ = 2 ^ (mantissa.log2 : Int) * 2 ^ (exponent - place mantissa exponent) := zpow_add₀ two_ne_zero _ _
    _ ≤ mantissa * 2 ^ (exponent - place mantissa exponent) := mul_le_mul_of_nonneg_right leading (by positivity)
  have above : (0 : ℚ) < cut.mantissa := by linarith [stands.bounds.2]
  exact_mod_cast above

theorem rounded_mantissa_ge (cut : ExtendedMantissa) : cut.mantissa ≤ cut.roundedMantissa := by
  obtain ⟨mantissa, round, sticky⟩ := cut
  cases round <;> cases sticky <;>
    simp only [ExtendedMantissa.roundedMantissa, ExtendedMantissa.accuracy, Accuracy.roundToNearestEven] <;> omega

theorem packed_infinite (sign : Sign) (mantissa : Nat) (exponent : Int) (positive : 0 < mantissa) (far : 972 ≤ exponent) :
    (Float.Model.pack (.finite sign mantissa exponent positive)).unpack = .infinity sign := by
  change unpack binary64 (pack binary64 (.finite sign mantissa exponent positive)) = _
  rw [pack_finite, if_pos (by omega)]
  exact unpack_infinity sign

-- A number from about `2 ^ 512` on has an infinite square.
theorem square_infinite (sign : Sign) (mantissa : Nat) (exponent : Int) (canonical : Canonical mantissa exponent) (far : 460 ≤ exponent) :
    (Float.Model.pack (mul binary64 (.finite sign mantissa exponent canonical.positive)
      (.finite sign mantissa exponent canonical.positive))).unpack = .infinity .positive := by
  have many : 2 ^ 52 ≤ mantissa := canonical.full.resolve_right (by omega)
  have product : 2 ^ 104 ≤ mantissa * mantissa := calc
    2 ^ 104 = 2 ^ 52 * 2 ^ 52 := by decide
    _ ≤ mantissa * mantissa := Nat.mul_le_mul many many
  have filled : 0 < mantissa * mantissa := Nat.lt_of_lt_of_le (by decide) product
  have digits : 104 ≤ (mantissa * mantissa).log2 := (Nat.le_log2 (Nat.ne_of_gt filled)).mpr product
  have beyond : 972 ≤ place (mantissa * mantissa) (exponent + exponent) := by
    rw [place]
    omega
  obtain ⟨cut, shifted, kept⟩ := shifted_filled _ (exponent + exponent) filled (by omega)
  generalize place (mantissa * mantissa) (exponent + exponent) = middle at shifted beyond
  have rounded := Nat.lt_of_lt_of_le kept (rounded_mantissa_ge cut)
  obtain ⟨again, settled, left⟩ := shifted_filled cut.roundedMantissa middle rounded (by omega)
  have last : 972 ≤ place cut.roundedMantissa middle := Int.le_trans beyond (le_max_left _ _)
  have plus : sign * sign = .positive := by cases sign <;> rfl
  have value : mul binary64 (.finite sign mantissa exponent canonical.positive) (.finite sign mantissa exponent canonical.positive) =
      .finite .positive again.mantissa (place cut.roundedMantissa middle) left := by
    change roundWithAccuracy binary64 (sign * sign) _ _ _ = _
    rw [roundWithAccuracy, plus]
    simp only [shifted, settled]
    exact dif_neg (Nat.ne_of_gt left)
  rw [value]
  exact packed_infinite _ _ _ _ last

-- A quotient by a number that is not too small is no further out than this.
theorem quotient_within (sign other : Sign) (first second : Nat) (low high bound : Int) (firstPositive : 0 < first)
    (secondPositive : 0 < second) (short : first < 2 ^ 53) (least : -1074 ≤ bound) (apart : low - high ≤ bound) :
    Within (bound + 109) (div binary64 (.finite sign first low firstPositive) (.finite other second high secondPositive)) := by
  delta div
  simp only [divCore, target_exponent, Float.Model.totalExponent]
  generalize aim : min (low - high) (max _ _) = target
  have quotient : first <<< (low - high - target).toNat / second < 2 ^ 54 := by
    rw [Nat.shiftLeft_eq, Nat.div_lt_iff_lt_mul secondPositive]
    have few : first.log2 ≤ 52 := Nat.le_of_lt_succ ((Nat.log2_lt (Nat.ne_of_gt firstPositive)).mpr short)
    calc first * 2 ^ (low - high - target).toNat < 2 ^ (first.log2 + 1) * 2 ^ (low - high - target).toNat :=
          Nat.mul_lt_mul_of_pos_right Nat.lt_log2_self (Nat.pow_pos (by decide))
      _ = 2 ^ (first.log2 + 1 + (low - high - target).toNat) := (Nat.pow_add _ _ _).symm
      _ ≤ 2 ^ (54 + second.log2) := Nat.pow_le_pow_right (by decide) (by omega)
      _ = 2 ^ 54 * 2 ^ second.log2 := Nat.pow_add _ _ _
      _ ≤ 2 ^ 54 * second := Nat.mul_le_mul_left _ (Nat.log2_self_le (Nat.ne_of_gt secondPositive))
  exact round_within _ _ 54 _ bound _ _ quotient least (by omega) (by omega)

-- A square is no negative number, and it is infinite unless its root is small enough.
theorem square_cases (x : Float) (finite : x.isFinite = true) :
    Upward (x * x).toModel.unpack ∧ (Within 459 x.toModel.unpack ∨ (x * x).toModel.unpack = .infinity .positive) := by
  change Upward (Float.Model.pack (mul binary64 x.toModel.unpack x.toModel.unpack)).unpack ∧
    (_ ∨ (Float.Model.pack (mul binary64 x.toModel.unpack x.toModel.unpack)).unpack = _)
  refine ⟨packed_upward _ (square_upward _ finite), ?_⟩
  obtain ⟨b, parts⟩ := parts_of_finite x finite
  rcases unpacked_parts x b parts with ⟨-, zero⟩ | ⟨canonical, same⟩
  · rw [zero]
    exact .inl trivial
  · rw [same]
    rcases Int.lt_or_le b.exponent 460 with near | far
    · exact .inl (Int.le_of_lt_add_one near)
    · exact .inr (square_infinite _ _ _ canonical far)

theorem add_cases (x y : Float) (first : Upward x.toModel.unpack) (second : Upward y.toModel.unpack) :
    Upward (x + y).toModel.unpack ∧
      (x.toModel.unpack = .infinity .positive ∨ y.toModel.unpack = .infinity .positive → (x + y).toModel.unpack = .infinity .positive) := by
  change Upward (Float.Model.pack (add binary64 x.toModel.unpack y.toModel.unpack)).unpack ∧
    (_ → (Float.Model.pack (add binary64 x.toModel.unpack y.toModel.unpack)).unpack = _)
  refine ⟨packed_upward _ (sum_upward _ _ first second), fun infinite => ?_⟩
  rw [sum_infinite _ _ first second infinite]
  exact unpack_infinity .positive

end CommandScript.Number
