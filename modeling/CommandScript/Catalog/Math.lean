import CommandScript.Number.Rounding
import CommandScript.Operation.Call

/-!
# Operations on vectors and numbers

Numbers are doubles, and integer arguments become doubles. `Mathf` answers with finite numbers only:
a result that is infinite or no number is a fault, except that `Clamp` hands on the value it was
given. `Vector3` answers with whatever the arithmetic gives.
-/

set_option autoImplicit false

namespace CommandScript

-- The lesser of two numbers; a NaN yields to the other, and of two equal ones, such as the two
-- zeros, the second counts.
def lesser (a b : Float) : Float :=
  if b.isNaN then a else if a < b then a else b

-- The greater of two numbers; a NaN yields to the other, and of two equal ones, such as the two
-- zeros, the second counts.
def greater (a b : Float) : Float :=
  if b.isNaN then a else if b < a then a else b

-- A number moved into a range from `low` to `high`; a NaN stays as it is.
def clamped (x : Number.Double) (low high : Float) : Number.Double :=
  if x.toFloat < low then .ofFloat low else if high < x.toFloat then .ofFloat high else x

-- A power. A quiet NaN gives way to a base of one and to an exponent of zero; with a NaN that
-- signals there is no power.
def power : Number.Double → Number.Double → Float
  | .ofFloat base, .ofFloat exponent => base.pow exponent
  | _, _ => 0.0 / 0.0

def circleRatio : Float :=
  3.141592653589793

def machineEpsilon : Float :=
  2.220446049250313e-16

namespace Value.Vector

def zero : Value.Vector :=
  ⟨0.0, 0.0, 0.0⟩

def one : Value.Vector :=
  ⟨1.0, 1.0, 1.0⟩

def sub (a b : Value.Vector) : Value.Vector :=
  ⟨a.x - b.x, a.y - b.y, a.z - b.z⟩

def dot (a b : Value.Vector) : Float :=
  a.x * b.x + a.y * b.y + a.z * b.z

def cross (a b : Value.Vector) : Value.Vector :=
  ⟨a.y * b.z - a.z * b.y, a.z * b.x - a.x * b.z, a.x * b.y - a.y * b.x⟩

def magnitude (v : Value.Vector) : Float :=
  (v.dot v).sqrt

-- The vector of length one in the same direction; zero if there is no length to divide by.
def normalized (v : Value.Vector) : Value.Vector :=
  if v.magnitude ≤ machineEpsilon then zero
  else ⟨v.x / v.magnitude, v.y / v.magnitude, v.z / v.magnitude⟩

end Value.Vector

inductive VectorOperation where
  | create
  | zero
  | one
  | distance
  | magnitude
  | normalized
  | dot
  | cross
deriving DecidableEq, Repr

namespace VectorOperation

def all : List VectorOperation :=
  [.create, .zero, .one, .distance, .magnitude, .normalized, .dot, .cross]

def key : VectorOperation → String
  | .create => "Create"
  | .zero => "Zero"
  | .one => "One"
  | .distance => "Distance"
  | .magnitude => "Magnitude"
  | .normalized => "Normalized"
  | .dot => "Dot"
  | .cross => "Cross"

def run (operation : VectorOperation) (arguments : List Value) : Except Stop Value :=
  let call : Call := ⟨"Vector3." ++ operation.key, arguments⟩
  match operation with
  | .create => do
    let x ← call.number 0
    let y ← call.number 1
    let z ← call.number 2
    return .composite .vector3 [.float x, .float y, .float z]
  | .zero => .ok (Value.ofVector .zero)
  | .one => .ok (Value.ofVector .one)
  | .distance => do
    let a ← call.vector 0
    let b ← call.vector 1
    return .ofFloat (a.sub b).magnitude
  | .magnitude => do
    let v ← call.vector 0
    return .ofFloat v.magnitude
  | .normalized => do
    let v ← call.vector 0
    return Value.ofVector v.normalized
  | .dot => do
    let a ← call.vector 0
    let b ← call.vector 1
    return .ofFloat (a.dot b)
  | .cross => do
    let a ← call.vector 0
    let b ← call.vector 1
    return Value.ofVector (a.cross b)

end VectorOperation

inductive MathOperation where
  | abs
  | sqrt
  | floor
  | ceil
  | round
  | sin
  | cos
  | tan
  | min
  | max
  | pow
  | atan2
  | clamp
  | lerp
  | pi
  | deg2Rad
  | rad2Deg
deriving DecidableEq, Repr

namespace MathOperation

def all : List MathOperation :=
  [.abs, .sqrt, .floor, .ceil, .round, .sin, .cos, .tan, .min, .max, .pow, .atan2, .clamp, .lerp,
    .pi, .deg2Rad, .rad2Deg]

def key : MathOperation → String
  | .abs => "Abs"
  | .sqrt => "Sqrt"
  | .floor => "Floor"
  | .ceil => "Ceil"
  | .round => "Round"
  | .sin => "Sin"
  | .cos => "Cos"
  | .tan => "Tan"
  | .min => "Min"
  | .max => "Max"
  | .pow => "Pow"
  | .atan2 => "Atan2"
  | .clamp => "Clamp"
  | .lerp => "Lerp"
  | .pi => "PI"
  | .deg2Rad => "Deg2Rad"
  | .rad2Deg => "Rad2Deg"

def finite (call : Call) (x : Float) : Except Stop Value :=
  if x.isFinite then .ok (.ofFloat x)
  else .error (.fault (.runtime (.notFinite call.operation)))

def unary (call : Call) (f : Float → Float) : Except Stop Value := do
  let x ← call.float 0
  finite call (f x)

def binary (call : Call) (f : Float → Float → Float) : Except Stop Value := do
  let x ← call.float 0
  let y ← call.float 1
  finite call (f x y)

def runPower (call : Call) : Except Stop Value := do
  let base ← call.number 0
  let exponent ← call.number 1
  finite call (power base exponent)

def rangeReport (low high : Float) : String :=
  "min > max, or either was NaN. min = " ++ Number.reportText low ++ ", max = " ++
    Number.reportText high

-- Runs `Clamp(value, min, max)`. A range that runs backwards is refused; a bound that is no number
-- makes the operation crash.
def runClamp (call : Call) : Except Stop Value := do
  let x ← call.number 0
  let low ← call.float 1
  let high ← call.float 2
  if high < low then Call.refuse (.invertedRange call.operation low high)
  if low.isNaN || high.isNaN then throw (.crash (some (rangeReport low high)))
  return .float (clamped x low high)

def runLerp (call : Call) : Except Stop Value := do
  let a ← call.float 0
  let b ← call.float 1
  let t ← call.number 2
  finite call (a + (b - a) * (clamped t 0.0 1.0).toFloat)

def run (operation : MathOperation) (arguments : List Value) : Except Stop Value :=
  let call : Call := ⟨"Mathf." ++ operation.key, arguments⟩
  match operation with
  | .abs => unary call Float.abs
  | .sqrt => unary call Float.sqrt
  | .floor => unary call Number.Rounding.down.apply
  | .ceil => unary call Number.Rounding.up.apply
  | .round => unary call Number.Rounding.nearestEven.apply
  | .sin => unary call Float.sin
  | .cos => unary call Float.cos
  | .tan => unary call Float.tan
  | .min => binary call lesser
  | .max => binary call greater
  | .pow => runPower call
  | .atan2 => binary call Float.atan2
  | .clamp => runClamp call
  | .lerp => runLerp call
  | .pi => .ok (.ofFloat circleRatio)
  | .deg2Rad => .ok (.ofFloat (circleRatio / 180.0))
  | .rad2Deg => .ok (.ofFloat (180.0 / circleRatio))

end MathOperation

end CommandScript
