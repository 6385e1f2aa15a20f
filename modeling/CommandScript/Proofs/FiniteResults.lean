import CommandScript.Proofs.Command.NormalForm
import CommandScript.Proofs.Effects
import CommandScript.Proofs.Number.Overflow
import CommandScript.Proofs.Stopping

set_option autoImplicit false

namespace CommandScript

open Float.Model.Format (binary64)
open Float.Model (UnpackedFloat)
open Float.Model.UnpackedFloat

namespace Value.Vector

structure Finite (v : Value.Vector) : Prop where
  x : v.x.isFinite = true
  y : v.y.isFinite = true
  z : v.z.isFinite = true

-- The length of a vector of finite numbers is no negative number. It may be infinite, and it is
-- unless the numbers are small enough to be squared.
theorem magnitude_cases (v : Value.Vector) (finite : v.Finite) : Number.Upward v.magnitude.toModel.unpack ∧
    ((Number.Within 459 v.x.toModel.unpack ∧ Number.Within 459 v.y.toModel.unpack ∧ Number.Within 459 v.z.toModel.unpack) ∨
      v.magnitude.toModel.unpack = .infinity .positive) := by
  obtain ⟨upwardX, nearX⟩ := Number.square_cases v.x finite.x
  obtain ⟨upwardY, nearY⟩ := Number.square_cases v.y finite.y
  obtain ⟨upwardZ, nearZ⟩ := Number.square_cases v.z finite.z
  obtain ⟨upwardXY, infiniteXY⟩ := Number.add_cases _ _ upwardX upwardY
  obtain ⟨upward, infinite⟩ := Number.add_cases _ _ upwardXY upwardZ
  change Number.Upward (Float.Model.pack (sqrt binary64 (v.x * v.x + v.y * v.y + v.z * v.z).toModel.unpack)).unpack ∧
    (_ ∨ (Float.Model.pack (sqrt binary64 (v.x * v.x + v.y * v.y + v.z * v.z).toModel.unpack)).unpack = _)
  refine ⟨Number.packed_upward _ (Number.root_upward _ upward), ?_⟩
  have root (far : (v.x * v.x + v.y * v.y + v.z * v.z).toModel.unpack = .infinity .positive) :
      (Float.Model.pack (sqrt binary64 (v.x * v.x + v.y * v.y + v.z * v.z).toModel.unpack)).unpack = .infinity .positive := by
    rw [far]
    exact Number.unpack_infinity .positive
  rcases nearX with nearX | far
  · rcases nearY with nearY | far
    · rcases nearZ with nearZ | far
      · exact .inl ⟨nearX, nearY, nearZ⟩
      · exact .inr (root (infinite (.inr far)))
    · exact .inr (root (infinite (.inl (infiniteXY (.inr far)))))
  · exact .inr (root (infinite (.inl (infiniteXY (.inl far)))))

theorem epsilon_parts : ∃ canonical : Number.Canonical (2 ^ 52) (-104),
    machineEpsilon.toModel.unpack = .finite .positive (2 ^ 52) (-104) canonical.positive := by
  have parts : Number.Binary.ofFloat? machineEpsilon = some ⟨false, 2 ^ 52, -104⟩ := by decide +kernel
  exact (Number.unpacked_parts _ _ parts).resolve_left fun zero => absurd zero.1 (by decide)

-- A number divided by a length that is not tiny is finite.
theorem quotient_finite (x length : Float) (finite : x.isFinite = true) (upward : Number.Upward length.toModel.unpack)
    (long : ¬ length ≤ machineEpsilon) (near : Number.Within 459 x.toModel.unpack ∨ length.toModel.unpack = .infinity .positive) :
    (x / length).isFinite = true := by
  obtain ⟨_, tiny⟩ := epsilon_parts
  have apart : ¬ length.toModel.unpack.le machineEpsilon.toModel.unpack = true := by
    intro less
    refine long ?_
    change decide (length.toModel ≤ machineEpsilon.toModel) = true
    exact decide_eq_true less
  rw [tiny] at apart
  have short := Number.unpacked_mantissa x.toModel
  change x.toModel.unpack.isFinite = true at finite
  change (Float.Model.pack (div binary64 x.toModel.unpack length.toModel.unpack)).unpack.isFinite = true
  cases own : length.toModel.unpack with
  | notANumber =>
    rw [own] at upward
    exact upward.elim
  | zero sign =>
    rw [own] at apart
    exact absurd rfl apart
  | infinity sign =>
    generalize x.toModel.unpack = numerator at finite
    cases numerator with
    | notANumber | infinity => cases finite
    | zero | finite => exact congrArg UnpackedFloat.isFinite (Number.unpack_zero _)
  | finite sign mantissa exponent positive =>
    rw [own] at upward apart near
    obtain rfl : sign = .positive := upward
    have least : -104 ≤ exponent := by
      by_contra less
      refine apart ?_
      change ((compare exponent (-104)).then (compare mantissa (2 ^ 52))).isLE = true
      rw [Int.compare_eq_lt.mpr (not_le.mp less)]
      rfl
    replace near := near.resolve_right nofun
    generalize x.toModel.unpack = numerator at finite short near
    cases numerator with
    | notANumber | infinity => cases finite
    | zero => exact congrArg UnpackedFloat.isFinite (Number.unpack_zero _)
    | finite other first low firstPositive =>
      have reach : low ≤ 459 := near
      have within := Number.quotient_within other .positive first mantissa low exponent 563 firstPositive positive
        (short _ _ _ _ rfl) (by decide) (by omega)
      exact Number.finite_of_within (Number.packed_within _ 672 within (by decide) (by decide))

theorem normalized_finite (v : Value.Vector) (finite : v.Finite) : v.normalized.Finite := by
  obtain ⟨upward, near⟩ := v.magnitude_cases finite
  rw [normalized]
  split
  · exact ⟨by decide +kernel, by decide +kernel, by decide +kernel⟩
  · rename_i long
    exact ⟨quotient_finite v.x _ finite.x upward long (near.imp_left fun all => all.1),
      quotient_finite v.y _ finite.y upward long (near.imp_left fun all => all.2.1),
      quotient_finite v.z _ finite.z upward long (near.imp_left fun all => all.2.2)⟩

end Value.Vector

namespace Value

-- Every float in a value is a finite number.
inductive Finite : Value → Prop where
  | null : Finite .null
  | bool (b : Bool) : Finite (.bool b)
  | int (n : Int64) : Finite (.int n)
  | float (x : Float) (own : x.isFinite = true) : Finite (.float (.ofFloat x))
  | text (s : String) : Finite (.text s)
  | composite (kind : CompositeKind) (fields : List Value) (each : ∀ field ∈ fields, Finite field) : Finite (.composite kind fields)
  | reference (name : String) : Finite (.reference name)
  | component (id : ComponentId) : Finite (.component id)

theorem Vector.Finite.value {v : Value.Vector} (finite : v.Finite) : (ofVector v).Finite := by
  refine .composite .vector3 _ ?_
  rintro field (_ | ⟨_, _ | ⟨_, _ | ⟨_, ⟨⟩⟩⟩⟩)
  · exact .float v.x finite.x
  · exact .float v.y finite.y
  · exact .float v.z finite.z

theorem number_finite (value : Value) (finite : value.Finite) (number : Number.Double) (reads : value.number? = some number) :
    ∃ x, number = .ofFloat x ∧ x.isFinite = true := by
  cases finite with
  | int n =>
    obtain rfl := Option.some.inj reads
    exact ⟨_, rfl, Number.of_int64_finite n⟩
  | float x own =>
    obtain rfl := Option.some.inj reads
    exact ⟨x, rfl, own⟩
  | text s =>
    obtain ⟨x, read, rfl⟩ := Option.map_eq_some_iff.mp reads
    exact ⟨x, rfl, Literal.read_finite_finite _ x read⟩
  | null | bool | composite | reference | component => cases reads

theorem vector_finite (value : Value) (finite : value.Finite) (v : Value.Vector) (reads : value.vector? = some v) : v.Finite := by
  unfold vector? at reads
  split at reads
  · rename_i first second third
    cases finite with
    | composite _ _ each =>
      obtain ⟨x, readX, reads⟩ := Option.bind_eq_some_iff.mp reads
      obtain ⟨y, readY, reads⟩ := Option.bind_eq_some_iff.mp reads
      obtain ⟨z, readZ, reads⟩ := Option.bind_eq_some_iff.mp reads
      obtain rfl := Option.some.inj reads
      obtain ⟨_, rfl, finiteX⟩ := first.number_finite (each first (by simp)) x readX
      obtain ⟨_, rfl, finiteY⟩ := second.number_finite (each second (by simp)) y readY
      obtain ⟨_, rfl, finiteZ⟩ := third.number_finite (each third (by simp)) z readZ
      exact ⟨finiteX, finiteY, finiteZ⟩
  · cases reads

end Value

namespace Call

variable (call : Call) (finite : ∀ value ∈ call.arguments, value.Finite)

include finite

theorem number_finite (position : Nat) (number : Number.Double) (reads : call.number position = .ok number) :
    ∃ x, number = .ofFloat x ∧ x.isFinite = true := by
  unfold Call.number at reads
  split at reads
  · obtain rfl := Except.ok.inj reads
    exact ⟨0.0, rfl, by decide +kernel⟩
  · obtain rfl := Except.ok.inj reads
    exact ⟨0.0, rfl, by decide +kernel⟩
  · rename_i value _ held
    split at reads
    · rename_i x own
      obtain rfl := Except.ok.inj reads
      exact value.number_finite (finite value (List.mem_of_getElem? held)) x own
    · cases reads

theorem float_finite (position : Nat) (x : Float) (reads : call.float position = .ok x) : x.isFinite = true := by
  unfold Call.float at reads
  cases read : call.number position with
  | error stop =>
    rw [read] at reads
    cases reads
  | ok number =>
    obtain ⟨y, rfl, own⟩ := call.number_finite finite position number read
    rw [read] at reads
    exact Except.ok.inj reads ▸ own

theorem vector_finite (position : Nat) (v : Value.Vector) (reads : call.vector position = .ok v) : v.Finite := by
  obtain ⟨value, held, own⟩ := expected_argument call position .vector Value.vector? v reads
  exact value.vector_finite (finite value (List.mem_of_getElem? held)) v own

end Call

-- The operations on vectors whose results nothing checks and nothing bounds.
def VectorOperation.unchecked : List VectorOperation :=
  [.distance, .magnitude, .dot, .cross]

theorem VectorOperation.run_finite (operation : VectorOperation) (checked : operation ∉ unchecked) (arguments : List Value)
    (finite : ∀ value ∈ arguments, value.Finite) : Yields (operation.run arguments) Value.Finite := by
  cases operation with
  | create =>
    refine .bind fun x readX => .bind fun y readY => .bind fun z readZ => ?_
    obtain ⟨x, rfl, finiteX⟩ := Call.number_finite _ finite 0 x readX
    obtain ⟨y, rfl, finiteY⟩ := Call.number_finite _ finite 1 y readY
    obtain ⟨z, rfl, finiteZ⟩ := Call.number_finite _ finite 2 z readZ
    exact .of_ok (Value.Vector.Finite.value (v := ⟨x, y, z⟩) ⟨finiteX, finiteY, finiteZ⟩)
  | zero | one =>
    exact .of_ok (Value.Vector.Finite.value ⟨by decide +kernel, by decide +kernel, by decide +kernel⟩)
  | normalized =>
    refine .bind fun v read => .of_ok ?_
    exact (v.normalized_finite (Call.vector_finite _ finite 0 v read)).value
  | distance | magnitude | dot | cross => exact absurd (by decide) checked

namespace MathOperation

def arity : MathOperation → Nat
  | .abs | .sqrt | .floor | .ceil | .round | .sin | .cos | .tan => 1
  | .min | .max | .pow | .atan2 => 2
  | .clamp | .lerp => 3
  | .pi | .deg2Rad | .rad2Deg => 0

-- What an operation computes from its numbers, before anything is checked.
def formula (operation : MathOperation) (numbers : Nat → Float) : Float :=
  let x := numbers 0
  let y := numbers 1
  let z := numbers 2
  match operation with
  | .abs => x.abs
  | .sqrt => x.sqrt
  | .floor => Number.Rounding.down.apply x
  | .ceil => Number.Rounding.up.apply x
  | .round => Number.Rounding.nearestEven.apply x
  | .sin => x.sin
  | .cos => x.cos
  | .tan => x.tan
  | .min => lesser x y
  | .max => greater x y
  | .pow => x.pow y
  | .atan2 => x.atan2 y
  | .clamp => (clamped (.ofFloat x) y z).toFloat
  | .lerp => x + (y - x) * (clamped (.ofFloat z) 0.0 1.0).toFloat
  | .pi => circleRatio
  | .deg2Rad => circleRatio / 180.0
  | .rad2Deg => 180.0 / circleRatio

-- The arguments are read as these numbers.
def Reads (operation : MathOperation) (arguments : List Value) (numbers : Nat → Float) : Prop :=
  ∀ position < operation.arity, (Call.mk ("Mathf." ++ operation.key) arguments).number position = .ok (.ofFloat (numbers position))

theorem finite_finite (call : Call) (x : Float) : Yields (finite call x) Value.Finite := by
  unfold finite
  split
  · rename_i own
    exact .of_ok (.float x own)
  · exact .of_error _

theorem clamped_finite (x low high : Float) (finite : x.isFinite = true) (finiteLow : low.isFinite = true)
    (finiteHigh : high.isFinite = true) : ∃ y, clamped (.ofFloat x) low high = .ofFloat y ∧ y.isFinite = true := by
  unfold clamped
  split
  · exact ⟨low, rfl, finiteLow⟩
  · split
    · exact ⟨high, rfl, finiteHigh⟩
    · exact ⟨x, rfl, finite⟩

variable (operation : MathOperation) (arguments : List Value) (every : ∀ value ∈ arguments, value.Finite)

include every in
theorem run_finite : Yields (operation.run arguments) Value.Finite := by
  cases operation with
  | abs | sqrt | floor | ceil | round | sin | cos | tan => exact .bind fun _ _ => finite_finite _ _
  | min | max | atan2 | pow => exact .bind fun _ _ => .bind fun _ _ => finite_finite _ _
  | lerp => exact .bind fun _ _ => .bind fun _ _ => .bind fun _ _ => finite_finite _ _
  | pi | deg2Rad | rad2Deg => exact .of_ok (.float _ (by decide +kernel))
  | clamp =>
    refine .bind fun x readX => .bind fun low readLow => .bind fun high readHigh => ?_
    obtain ⟨x, rfl, finiteX⟩ := Call.number_finite _ every 0 x readX
    have finiteLow := Call.float_finite _ every 1 low readLow
    have finiteHigh := Call.float_finite _ every 2 high readHigh
    obtain ⟨y, same, finiteY⟩ := clamped_finite x low high finiteX finiteLow finiteHigh
    dsimp only
    rw [same]
    split
    · exact .bind fun _ never => nomatch never
    · split
      · exact .bind fun _ never => nomatch never
      · exact .of_ok (.float y finiteY)

variable {numbers : Nat → Float} (reads : operation.Reads arguments numbers)

include reads

theorem float_read (position : Nat) (inside : position < operation.arity) :
    (Call.mk ("Mathf." ++ operation.key) arguments).float position = .ok (numbers position) := by
  rw [Call.float, reads position inside]
  rfl

-- Every operation but a clamp checks what its formula gives.
theorem run_formula (checked : operation ≠ .clamp) :
    operation.run arguments = finite ⟨"Mathf." ++ operation.key, arguments⟩ (operation.formula numbers) := by
  have float := operation.float_read arguments reads
  cases operation with
  | abs | sqrt | floor | ceil | round | sin | cos | tan =>
    rw [run, unary, float 0 (by decide)]
    rfl
  | min | max | atan2 =>
    rw [run, binary, float 0 (by decide), float 1 (by decide)]
    rfl
  | pow =>
    rw [run, runPower, reads 0 (by decide), reads 1 (by decide)]
    rfl
  | lerp =>
    rw [run, runLerp, float 0 (by decide), float 1 (by decide), reads 2 (by decide)]
    rfl
  | pi => exact (if_pos (by decide +kernel : circleRatio.isFinite = true)).symm
  | deg2Rad => exact (if_pos (by decide +kernel : (circleRatio / 180.0).isFinite = true)).symm
  | rad2Deg => exact (if_pos (by decide +kernel : (180.0 / circleRatio).isFinite = true)).symm
  | clamp => exact absurd rfl checked

include every

-- A formula without a finite result is a fault. A clamp has none: it answers with one of its numbers.
theorem run_infinite (infinite : (operation.formula numbers).isFinite = false) :
    operation.run arguments = .error (.fault (.runtime (.notFinite ("Mathf." ++ operation.key)))) := by
  by_cases checked : operation = .clamp
  · subst checked
    have number (position : Nat) (inside : position < 3) : (numbers position).isFinite = true := by
      obtain ⟨x, same, own⟩ := Call.number_finite _ every position _ (reads position inside)
      exact Number.Double.ofFloat.inj same ▸ own
    obtain ⟨y, same, own⟩ := clamped_finite _ _ _ (number 0 (by decide)) (number 1 (by decide)) (number 2 (by decide))
    rw [formula, same] at infinite
    exact absurd own (Bool.eq_false_iff.mp infinite)
  · rw [operation.run_formula arguments reads checked, finite, infinite]
    rfl

end MathOperation

-- Finite arguments give finite results, and a formula without one gives a fault instead. The four
-- operations on vectors that check nothing are left out, and none on vectors fails over its result.
theorem numeric_results_finite (arguments : List Value) (every : ∀ value ∈ arguments, value.Finite) :
    (∀ operation : MathOperation, Yields (operation.run arguments) Value.Finite) ∧
    (∀ (operation : MathOperation) (numbers : Nat → Float), operation.Reads arguments numbers →
      (operation.formula numbers).isFinite = false →
      operation.run arguments = .error (.fault (.runtime (.notFinite ("Mathf." ++ operation.key))))) ∧
    (∀ operation : VectorOperation, operation ∉ VectorOperation.unchecked → Yields (operation.run arguments) Value.Finite) ∧
    (∀ operation : VectorOperation, RefusesFor (Stop.Among [.argument]) (operation.run arguments)) :=
  ⟨fun operation => operation.run_finite arguments every,
    fun operation _ reads infinite => operation.run_infinite arguments every reads infinite,
    fun operation checked => operation.run_finite checked arguments every,
    fun operation => operation.run_refuses arguments⟩

theorem root_of_minus_one_fails : (∀ value ∈ [Value.int (-1)], value.Finite) ∧
    MathOperation.sqrt.run [.int (-1)] = .error (.fault (.runtime (.notFinite "Mathf.Sqrt"))) := by
  have every : ∀ value ∈ [Value.int (-1)], value.Finite := List.forall_mem_singleton.mpr (.int (-1))
  have reads : MathOperation.sqrt.Reads [.int (-1)] fun _ => Value.floatOfInt64 (-1) := by
    rintro (_ | position) inside
    · rfl
    · exact absurd (Nat.lt_of_succ_lt_succ inside) (Nat.not_lt_zero position)
  exact ⟨every, (numeric_results_finite _ every).2.1 .sqrt _ reads (by decide +kernel)⟩

-- Two vectors of finite numbers that are too far out to be multiplied.
def vastVectors : List Value :=
  [Value.ofVector ⟨1e200, 0.0, 0.0⟩, Value.ofVector ⟨-1e200, 0.0, 1e200⟩]

theorem unchecked_vectors_overflow : (∀ value ∈ vastVectors, value.Finite) ∧
    ∀ operation ∈ VectorOperation.unchecked, ∃ value, operation.run vastVectors = .ok value ∧ ¬ value.Finite := by
  constructor
  · refine List.forall_mem_cons.mpr ⟨Value.Vector.Finite.value ?_, List.forall_mem_singleton.mpr (Value.Vector.Finite.value ?_)⟩
    · exact ⟨by decide +kernel, by decide +kernel, by decide +kernel⟩
    · exact ⟨by decide +kernel, by decide +kernel, by decide +kernel⟩
  · intro operation unchecked
    have float (x : Float) (finite : (Value.ofFloat x).Finite) : x.isFinite = true := by
      cases finite with
      | float _ own => exact own
    cases operation with
    | distance | magnitude | dot => exact ⟨_, rfl, fun finite => absurd (float _ finite) (by decide +kernel)⟩
    | cross =>
      refine ⟨_, rfl, fun finite => ?_⟩
      cases finite with
      | composite _ _ each =>
        exact absurd (float _ (each _ (.tail _ (.head _)))) (by decide +kernel)
    | create | zero | one | normalized => exact absurd unchecked (by decide)

end CommandScript
