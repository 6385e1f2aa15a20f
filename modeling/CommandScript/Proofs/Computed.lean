import CommandScript.Catalog.Color
import CommandScript.Catalog.Widgets
import CommandScript.Proofs.Work

set_option autoImplicit false

namespace CommandScript

-- A value that an operation makes itself: no component is in it, and no variable.
inductive Value.Computed : Value → Prop where
  | null : Computed .null
  | bool (b : Bool) : Computed (.bool b)
  | int (n : Int64) : Computed (.int n)
  | float (x : Number.Double) : Computed (.float x)
  | text (s : String) : Computed (.text s)
  | numbers (kind : CompositeKind) (numbers : List Number.Double) : Computed (.composite kind (numbers.map .float))

namespace Value

theorem of_float_computed (x : Float) : Computed (ofFloat x) := .float _

theorem of_vector_computed (v : Vector) : Computed (ofVector v) :=
  .numbers .vector3 [.ofFloat v.x, .ofFloat v.y, .ofFloat v.z]

theorem of_channels_computed (c : Channels) : Computed (ofChannels c) :=
  .numbers .color [c.red, c.green, c.blue, c.alpha]

end Value

theorem VectorOperation.run_computed (operation : VectorOperation) (arguments : List Value) :
    Yields (operation.run arguments) Value.Computed := by
  cases operation with
  | create =>
    apply Yields.bind
    intro x _
    apply Yields.bind
    intro y _
    apply Yields.bind
    intro z _
    exact .of_ok (.numbers .vector3 [x, y, z])
  | zero | one => exact .of_ok (Value.of_vector_computed _)
  | distance | dot => exact .bind fun _ _ => .bind fun _ _ => .of_ok (Value.of_float_computed _)
  | cross => exact .bind fun _ _ => .bind fun _ _ => .of_ok (Value.of_vector_computed _)
  | magnitude => exact .bind fun _ _ => .of_ok (Value.of_float_computed _)
  | normalized => exact .bind fun _ _ => .of_ok (Value.of_vector_computed _)

namespace MathOperation

theorem finite_computed (call : Call) (x : Float) : Yields (finite call x) Value.Computed := by
  unfold finite
  split
  · exact .of_ok (Value.of_float_computed x)
  · exact .of_error _

theorem clamp_computed (call : Call) : Yields (runClamp call) Value.Computed := by
  apply Yields.bind
  intro x _
  apply Yields.bind
  intro low _
  apply Yields.bind
  intro high _
  dsimp only
  split
  · exact .bind fun _ never => nomatch never
  · split
    · exact .bind fun _ never => nomatch never
    · exact .of_ok (.float _)

theorem run_computed (operation : MathOperation) (arguments : List Value) :
    Yields (operation.run arguments) Value.Computed := by
  cases operation with
  | abs | sqrt | floor | ceil | round | sin | cos | tan => exact .bind fun _ _ => finite_computed _ _
  | min | max | pow | atan2 => exact .bind fun _ _ => .bind fun _ _ => finite_computed _ _
  | clamp => exact clamp_computed _
  | lerp => exact .bind fun _ _ => .bind fun _ _ => .bind fun _ _ => finite_computed _ _
  | pi | deg2Rad | rad2Deg => exact .of_ok (Value.of_float_computed _)

end MathOperation

theorem ColorOperation.run_computed (operation : ColorOperation) (arguments : List Value) :
    Yields (operation.run arguments) Value.Computed := by
  cases operation with
  | create =>
    simp only [run, runCreate]
    split
    · exact .bind fun _ _ => .bind fun _ _ => .bind fun _ _ => .bind fun _ _ => .of_ok (Value.of_channels_computed _)
    · exact .bind fun _ _ => .bind fun _ _ => .bind fun _ _ => .bind fun _ _ => .of_ok (Value.of_channels_computed _)
  | named color => exact .of_ok (Value.of_channels_computed color.channels)

theorem font_size_computed (call : Call) : Yields (fontSizeValue call) Value.Computed := by
  apply Yields.bind
  intro size _
  dsimp only
  split
  · exact .of_ok (.int _)
  · exact .of_error _

theorem color_computed (call : Call) : Yields (colorValue call) Value.Computed :=
  .bind fun channels _ => .of_ok (Value.of_channels_computed channels)

theorem fill_computed (call : Call) : Yields (fillValue call) Value.Computed :=
  .bind fun _ _ => .of_ok (.float _)

end CommandScript
