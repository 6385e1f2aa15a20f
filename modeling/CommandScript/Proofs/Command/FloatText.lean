import CommandScript.Proofs.Command.Atom
import CommandScript.Proofs.Number.Display
import CommandScript.Value.Text

set_option autoImplicit false

namespace CommandScript.Literal

-- A text that holds a decimal fraction is a number, and an integer if it also holds one of 64 bits.
theorem read_number (text : List Char) (x : Float) (reads : Number.readFinite text = some x) :
    read text = .ok (((Number.readInt64 text).map Value.int).getD (.ofFloat x)) := by
  have nonempty := Number.read_finite_ne_nil text x reads
  have numerals := Number.read_finite_numerals text x reads
  have atom := Writing.atom_unnamed text (Writing.numerals_unnamed text nonempty numerals)
  rw [read, readNested, readWith, Text.trim_tight text (Writing.numerals_tight text nonempty numerals), atom, reads]
  cases Number.readInt64 text <;> rfl

-- A finite float is read back from its text, unless the text is that of an integer of 64 bits: a whole
-- float from `10 ^ 15` on is shown without a point.
theorem float_text_reads_back (x : Float) (finite : x.isFinite = true) (component : ComponentId → String) :
    if Number.isIntegral x = true ∧ 10 ^ 15 ≤ (Number.truncate x).natAbs ∧ (Number.truncate x).natAbs < 2 ^ 63 then
      ∃ n, read ((Value.ofFloat x).textWith component).toList = .ok (.int n) ∧ Value.floatOfInt64 n = x
    else read ((Value.ofFloat x).textWith component).toList = .ok (.ofFloat x) := by
  have text : (Value.ofFloat x).textWith component = Number.displayText x := rfl
  have reads := read_number _ x (Number.display_read x finite)
  obtain ⟨inside, outside⟩ := Number.display_int64 x finite
  rw [text]
  split
  · rename_i range
    obtain ⟨n, integer, same⟩ := inside range
    refine ⟨n, ?_, same⟩
    rw [reads, integer]
    rfl
  · rename_i range
    rw [reads, outside range]
    rfl

theorem quadrillion_reads_as_integer : (1e15 : Float).isFinite = true ∧
    ∃ n, read ((Value.ofFloat 1e15).textWith fun _ => "").toList = .ok (.int n) ∧ Value.floatOfInt64 n = 1e15 := by
  have finite : (1e15 : Float).isFinite = true := by decide +kernel
  have reads := float_text_reads_back 1e15 finite fun _ => ""
  rw [if_pos (by decide +kernel)] at reads
  exact ⟨finite, reads⟩

theorem quadrillion_is_no_float :
    ¬ ∀ (x : Float) (component : ComponentId → String), x.isFinite = true →
      ∃ y : Float, read ((Value.ofFloat x).textWith component).toList = .ok (.ofFloat y) := by
  intro claimed
  obtain ⟨y, float⟩ := claimed 1e15 (fun _ => "") (by decide +kernel)
  have text : (Value.ofFloat 1e15).textWith (fun _ => "") = "1000000000000000" := by
    change Number.displayText 1e15 = _
    decide +kernel
  have integer : read "1000000000000000".toList = .ok (.int 1000000000000000) := rfl
  rw [text, integer] at float
  cases float

end CommandScript.Literal
