import CommandScript.Proofs.Number.Finite
import Mathlib

set_option autoImplicit false

namespace CommandScript.Number

open Float.Model.Format (binary64)
open Float.Model (UnpackedFloat)
open Float.Model.UnpackedFloat

-- A positive number as a double holds it: all 53 digits are used, unless the exponent is the least.
structure Canonical (mantissa : Nat) (exponent : Int) : Prop where
  positive : 0 < mantissa
  short : mantissa < 2 ^ 53
  least : -1074 ≤ exponent
  greatest : exponent ≤ 971
  full : 2 ^ 52 ≤ mantissa ∨ exponent = -1074

def Binary.sign (b : Binary) : Sign :=
  if b.negative then .negative else .positive

theorem exponent_field (bits : BitVec 64) : (@unpackExponent binary64 bits).toNat = exponentField bits.toNat := by
  rw [unpackExponent_def, BitVec.extractLsb'_toNat, Nat.shiftRight_eq_div_pow]
  rfl

theorem fraction_field (bits : BitVec 64) : (@unpackMantissa binary64 bits).toNat = fractionField bits.toNat := by
  rw [unpackMantissa_def, BitVec.extractLsb'_toNat]
  rfl

theorem sign_field (bits : BitVec 64) :
    Sign.ofBitVec (@unpackSign binary64 bits) = if bits.toNat / Nat.pow 2 63 == 1 then .negative else .positive := by
  have top : (@unpackSign binary64 bits).toNat = bits.toNat / Nat.pow 2 63 := by
    rw [unpackSign_def, BitVec.extractLsb'_toNat, Nat.shiftRight_eq_div_pow]
    have below : bits.toNat / 2 ^ 63 < 2 := Nat.div_lt_of_lt_mul bits.isLt
    exact Nat.mod_eq_of_lt below
  rw [← top]
  rcases BitVec.eq_zero_or_eq_one (@unpackSign binary64 bits) with clear | set
  · rw [clear]
    rfl
  · rw [set]
    rfl

-- The parts of a double are what the arithmetic works on.
theorem unpacked_parts (x : Float) (b : Binary) (parts : Binary.ofFloat? x = some b) :
    (b.significand = 0 ∧ x.toModel.unpack = .zero b.sign) ∨
      ∃ canonical : Canonical b.significand b.exponent,
        x.toModel.unpack = .finite b.sign b.significand b.exponent canonical.positive := by
  have sign := sign_field x.toBits.toBitVec
  have exponents : _ = exponentField x.toBits.toNat := exponent_field x.toBits.toBitVec
  have fractions : _ = fractionField x.toBits.toNat := fraction_field x.toBits.toBitVec
  change (_ ∧ unpack binary64 x.toBits.toBitVec = _) ∨ ∃ canonical, unpack binary64 x.toBits.toBitVec = _
  change Sign.ofBitVec _ = if x.toBits.toNat / Nat.pow 2 63 == 1 then .negative else .positive at sign
  unfold Binary.ofFloat? at parts
  dsimp only at parts
  rw [unpack_fields, sign]
  rw [← exponents, ← fractions] at parts
  generalize @unpackExponent binary64 x.toBits.toBitVec = code at parts exponents ⊢
  generalize @unpackMantissa binary64 x.toBits.toBitVec = fraction at parts fractions ⊢
  change BitVec 11 at code
  change BitVec 52 at fraction
  have codes : code.toNat < 2 ^ 11 := code.isLt
  have short : fraction.toNat < 2 ^ 52 := fraction.isLt
  unfold ofFields
  by_cases full : code.toNat = 2047
  · rw [if_pos full] at parts
    cases parts
  · have inside : code ≠ -1#11 := fun last => full (congrArg BitVec.toNat last)
    rw [if_neg full] at parts
    rw [if_neg inside]
    by_cases subnormal : code.toNat = 0
    · have clear : code = 0#11 := BitVec.eq_of_toNat_eq subnormal
      rw [if_pos subnormal] at parts
      obtain rfl := Option.some.inj parts
      rw [if_pos clear]
      by_cases zero : fraction.toNat = 0
      · rw [dif_pos zero]
        exact .inl ⟨zero, rfl⟩
      · rw [dif_neg zero]
        exact .inr ⟨⟨Nat.pos_of_ne_zero zero, Nat.lt_trans short (by decide), Int.le_refl _, Int.neg_le_of_neg_le (by decide), .inr rfl⟩, rfl⟩
    · have filled : code ≠ 0#11 := fun clear => subnormal (congrArg BitVec.toNat clear)
      rw [if_neg subnormal] at parts
      obtain rfl := Option.some.inj parts
      rw [if_neg filled]
      have room : 2 ^ 52 + fraction.toNat < 2 ^ 53 := by omega
      have low : -1074 ≤ (code.toNat : Int) - 1075 := by omega
      have high : (code.toNat : Int) - 1075 ≤ 971 := by omega
      exact .inr ⟨⟨Nat.add_pos_left (by decide) _, room, low, high, .inl (Nat.le_add_right _ _)⟩, rfl⟩

theorem parts_of_finite (x : Float) (finite : x.isFinite = true) : ∃ b, Binary.ofFloat? x = some b := by
  have inside : exponentField x.toBits.toNat ≠ 2047 := by
    intro full
    have last : @unpackExponent binary64 x.toBits.toBitVec = -1#_ :=
      BitVec.eq_of_toNat_eq ((exponent_field x.toBits.toBitVec).trans full)
    change (unpack binary64 x.toBits.toBitVec).isFinite = true at finite
    rw [unpack_fields, last, ofFields, if_pos rfl] at finite
    split at finite <;> cases finite
  unfold Binary.ofFloat?
  dsimp only
  rw [if_neg inside]
  split
  · exact ⟨_, rfl⟩
  · exact ⟨_, rfl⟩

theorem log2_eq_of_bounds (n digits : Nat) (low : 2 ^ digits ≤ n) (high : n < 2 ^ (digits + 1)) : n.log2 = digits := by
  have filled : n ≠ 0 := by
    have power : 0 < 2 ^ digits := Nat.pow_pos (by decide)
    omega
  exact (Nat.log2_eq_iff filled).mpr ⟨low, high⟩

theorem packed_fields (sign : Sign) (code : BitVec 11) (fraction : BitVec 52) :
    unpack binary64 (packComponents binary64 sign code fraction) = ofFields sign code fraction := by
  rw [unpack_fields, @unpackSign_packComponents binary64 sign code fraction, @unpackExponent_packComponents binary64 sign code fraction,
    @unpackMantissa_packComponents binary64 sign code fraction, Sign.ofBitVec_toBitVec]

theorem unpack_pack (sign : Sign) (mantissa : Nat) (exponent : Int) (canonical : Canonical mantissa exponent) :
    (Float.Model.pack (.finite sign mantissa exponent canonical.positive)).unpack =
      .finite sign mantissa exponent canonical.positive := by
  obtain ⟨positive, short, least, greatest, full⟩ := canonical
  change unpack binary64 (pack binary64 (.finite sign mantissa exponent positive)) = _
  rw [pack_finite, if_neg (by omega), packed_fields]
  unfold ofFields
  by_cases normal : 2 ^ 52 ≤ mantissa
  · have code : (BitVec.ofNat 11 (exponent + 1075).toNat).toNat = (exponent + 1075).toNat := by
      rw [BitVec.toNat_ofNat]
      omega
    have inside : BitVec.ofNat 11 (exponent + 1075).toNat ≠ -1#11 := by
      intro last
      rw [last] at code
      change 2047 = _ at code
      omega
    have filled : BitVec.ofNat 11 (exponent + 1075).toNat ≠ 0#11 := by
      intro none
      rw [none] at code
      change 0 = _ at code
      omega
    have leading : 2 ^ 52 + (BitVec.ofNat 52 mantissa).toNat = mantissa := by
      rw [BitVec.toNat_ofNat]
      omega
    rw [if_pos (log2_eq_of_bounds mantissa 52 normal short), if_neg inside, if_neg filled]
    exact finite_same _ _ _ leading (by omega)
  · obtain rfl : exponent = -1074 := full.resolve_left normal
    have below := (Nat.log2_lt (Nat.ne_of_gt positive)).mpr (Nat.lt_of_not_le normal)
    have kept : (BitVec.ofNat 52 mantissa).toNat = mantissa := by
      rw [BitVec.toNat_ofNat]
      exact Nat.mod_eq_of_lt (Nat.lt_of_not_le normal)
    rw [if_neg (Nat.ne_of_lt below), if_neg (by decide), if_pos rfl, dif_neg (by rw [kept]; exact Nat.ne_of_gt positive)]
    exact finite_same _ _ _ kept rfl

theorem pack_unpack (x : Float) : Float.ofModel (Float.Model.pack x.toModel.unpack) = x :=
  Float.ofBits_toBits x

end CommandScript.Number
