import CommandScript.Proofs.Command.FloatText
import CommandScript.Proofs.Command.NormalForm
import CommandScript.Proofs.Command.Reading

set_option autoImplicit false

namespace CommandScript

namespace Number

-- The value of a row of digits: each counts by its place.
def placeValue : List Char → Nat
  | [] => 0
  | c :: rest => (c.toNat - '0'.toNat) * 10 ^ rest.length + placeValue rest

theorem place_value_digits (digits : List Char) : placeValue digits = digitsValue digits := by
  induction digits with
  | nil => rfl
  | cons c rest ih =>
    have first : digitsValue [c] = c.toNat - '0'.toNat := Nat.zero_add _
    rw [placeValue, ih, ← List.singleton_append, digits_value_append, first]

-- How a whole number may be written: an optional sign, then digits, and zeros may lead them.
inductive WholeText : List Char → Int → Prop where
  | plain (digits : List Char) (nonempty : digits ≠ []) (all : ∀ c ∈ digits, isDigit c = true) :
      WholeText digits (placeValue digits)
  | plus (digits : List Char) (nonempty : digits ≠ []) (all : ∀ c ∈ digits, isDigit c = true) :
      WholeText ('+' :: digits) (placeValue digits)
  | minus (digits : List Char) (nonempty : digits ≠ []) (all : ∀ c ∈ digits, isDigit c = true) :
      WholeText ('-' :: digits) (-(placeValue digits : Int))

theorem split_sign_cases (s : List Char) :
    (∃ digits, s = '-' :: digits ∧ splitSign s = (true, digits)) ∨
      (∃ digits, s = '+' :: digits ∧ splitSign s = (false, digits)) ∨ splitSign s = (false, s) := by
  unfold splitSign
  split
  · exact .inl ⟨_, rfl, rfl⟩
  · exact .inr (.inl ⟨_, rfl, rfl⟩)
  · exact .inr (.inr rfl)

theorem read_integer_some (s digits : List Char) (negative : Bool) (n : Int) (split : splitSign s = (negative, digits)) :
    readInteger s = some n ↔ (digits ≠ [] ∧ ∀ c ∈ digits, isDigit c = true) ∧
      (if negative then -(placeValue digits : Int) else placeValue digits) = n := by
  rw [readInteger, split, ← digits_iff, place_value_digits]
  exact Option.ite_none_right_eq_some.trans (and_congr_right fun _ => Option.some_inj)

theorem read_integer_iff (s : List Char) (n : Int) : readInteger s = some n ↔ WholeText s n := by
  constructor
  · intro read
    rcases split_sign_cases s with ⟨digits, rfl, split⟩ | ⟨digits, rfl, split⟩ | split
    · obtain ⟨⟨nonempty, all⟩, rfl⟩ := (read_integer_some _ digits true n split).mp read
      exact .minus digits nonempty all
    · obtain ⟨⟨nonempty, all⟩, rfl⟩ := (read_integer_some _ digits false n split).mp read
      exact .plus digits nonempty all
    · obtain ⟨⟨nonempty, all⟩, rfl⟩ := (read_integer_some s s false n split).mp read
      exact .plain s nonempty all
  · intro written
    cases written with
    | plain _ nonempty all =>
      have split := split_sign_digits s ((digits_iff s).mpr ⟨nonempty, all⟩)
      exact (read_integer_some s s false _ split).mpr ⟨⟨nonempty, all⟩, rfl⟩
    | plus digits nonempty all => exact (read_integer_some _ digits false _ rfl).mpr ⟨⟨nonempty, all⟩, rfl⟩
    | minus digits nonempty all => exact (read_integer_some _ digits true _ rfl).mpr ⟨⟨nonempty, all⟩, rfl⟩

theorem to_int64_some (n : Int) (m : Int64) :
    toInt64? n = some m ↔ m.toInt = n ∧ -2 ^ 63 ≤ n ∧ n ≤ 2 ^ 63 - 1 := by
  have low := m.le_toInt
  have high := m.toInt_lt
  rw [toInt64?, Option.ite_none_right_eq_some, Option.some_inj]
  constructor
  · rintro ⟨range, rfl⟩
    exact ⟨Int64.toInt_ofInt_of_le (by omega) (by omega), by omega⟩
  · rintro ⟨rfl, _⟩
    exact ⟨by omega, Int64.ofInt_toInt m⟩

theorem read_int64_iff (s : List Char) (m : Int64) : readInt64 s = some m ↔ WholeText s m.toInt := by
  have low := m.le_toInt
  have high := m.toInt_lt
  rw [readInt64, Option.bind_eq_some_iff]
  constructor
  · rintro ⟨n, read, fits⟩
    obtain ⟨rfl, _⟩ := (to_int64_some n m).mp fits
    exact (read_integer_iff s _).mp read
  · intro written
    exact ⟨m.toInt, (read_integer_iff s _).mpr written, (to_int64_some _ m).mpr ⟨rfl, by omega⟩⟩

theorem whole_text_numerals (s : List Char) (n : Int) (written : WholeText s n) : s ≠ [] ∧ ∀ c ∈ s, isNumeral c = true := by
  refine ⟨?_, read_integer_numerals s n ((read_integer_iff s n).mpr written)⟩
  cases written with
  | plain _ nonempty _ => exact nonempty
  | plus | minus => exact List.cons_ne_nil _ _

end Number

namespace Literal

theorem read_integer_value (text : List Char) (m : Int64) :
    read text = .ok (.int m) ↔ Number.readInt64 (Text.trim text) = some m := by
  constructor
  · intro reads
    rcases read_nested_cases 2 text _ reads with atom | ⟨kind, fields, never⟩ | ⟨name, _, never⟩
    · exact atom_integer _ m atom
    · cases never
    · cases never
  · intro integer
    obtain ⟨nonempty, numerals⟩ := Number.whole_text_numerals _ _ ((Number.read_int64_iff _ m).mp integer)
    have atom := Writing.atom_unnamed _ (Writing.numerals_unnamed _ nonempty numerals)
    rw [integer, Option.map_some, Option.some_or] at atom
    rw [read, readNested, readWith, atom]

-- What is made of the characters of numbers and is none is no value at all.
theorem read_numerals_none (text : List Char) (nonempty : Text.trim text ≠ [])
    (numerals : ∀ c ∈ Text.trim text, Number.isNumeral c = true)
    (noInteger : Number.readInt64 (Text.trim text) = none) (noFraction : Number.readFinite (Text.trim text) = none) :
    read text = .error (.unreadableValue (String.ofList (Text.trim text))) := by
  have atom := Writing.atom_unnamed _ (Writing.numerals_unnamed _ nonempty numerals)
  rw [noInteger, noFraction, Option.map_none, Option.map_none, Option.none_or] at atom
  have noOpening : '(' ∉ Text.trim text := fun member => absurd (numerals '(' member) (by decide)
  have noComposite : constructor? (Text.trim text) = none := by
    rw [constructor?, Text.cut_at_none '(' _ noOpening]
    rfl
  have noReference : reference? (Text.trim text) = none := by
    cases refers : reference? (Text.trim text) with
    | none => rfl
    | some name =>
      have dollar : '$' ∈ Text.trim text := (reference_written _ name refers).1 ▸ List.mem_cons_self
      exact absurd (numerals '$' dollar) (by decide)
  rw [read, readNested, readWith, atom, noComposite, noReference]

-- The integers of 64 bits are the values of whole numbers as written, as long as they are in range;
-- out of range a whole number is a float, or too large for one.
theorem integers_read_exactly (text : String) :
    (∀ n : Int, (∃ m : Int64, m.toInt = n ∧ read text.toList = .ok (.int m)) ↔
      Number.WholeText (Text.trim text.toList) n ∧ -2 ^ 63 ≤ n ∧ n ≤ 2 ^ 63 - 1) ∧
    ∀ n : Int, Number.WholeText (Text.trim text.toList) n → ¬ (-2 ^ 63 ≤ n ∧ n ≤ 2 ^ 63 - 1) →
      (∃ x, Number.readFinite (Text.trim text.toList) = some x ∧ x.isFinite = true ∧ read text.toList = .ok (.ofFloat x)) ∨
        Number.readFinite (Text.trim text.toList) = none ∧
          read text.toList = .error (.unreadableValue (String.ofList (Text.trim text.toList))) := by
  constructor
  · intro n
    constructor
    · rintro ⟨m, rfl, reads⟩
      have low := m.le_toInt
      have high := m.toInt_lt
      exact ⟨(Number.read_int64_iff _ m).mp ((read_integer_value _ m).mp reads), by omega⟩
    · rintro ⟨written, range⟩
      have fits : (Int64.ofInt n).toInt = n := Int64.toInt_ofInt_of_le (by omega) (by omega)
      refine ⟨Int64.ofInt n, fits, (read_integer_value _ _).mpr ((Number.read_int64_iff _ _).mpr ?_)⟩
      rwa [fits]
  · intro n written outside
    obtain ⟨nonempty, numerals⟩ := Number.whole_text_numerals _ n written
    have noInteger : Number.readInt64 (Text.trim text.toList) = none := by
      rw [Option.eq_none_iff_forall_ne_some]
      intro m integer
      obtain ⟨exact, same, fits⟩ := Option.bind_eq_some_iff.mp integer
      obtain rfl : n = exact := Option.some.inj (((Number.read_integer_iff _ n).mpr written).symm.trans same)
      exact outside ((Number.to_int64_some n m).mp fits).2
    cases fraction : Number.readFinite (Text.trim text.toList) with
    | none => exact .inr ⟨rfl, read_numerals_none _ nonempty numerals noInteger fraction⟩
    | some x =>
      refine .inl ⟨x, rfl, read_finite_finite _ x fraction, ?_⟩
      rw [← read_trim, read_number _ x fraction, noInteger]
      rfl

-- The last integer of 64 bits on the negative side, with a sign and zeros, and the number next to it.
theorem lowest_integer_is_read :
    (∃ m : Int64, m.toInt = -9223372036854775808 ∧ read "\t-009223372036854775808 ".toList = .ok (.int m)) ∧
      ∃ x, Number.readFinite (Text.trim "-9223372036854775809".toList) = some x ∧ x.isFinite = true ∧
        read "-9223372036854775809".toList = .ok (.ofFloat x) := by
  constructor
  · have spelled : Text.trim "\t-009223372036854775808 ".toList = '-' :: "009223372036854775808".toList := by decide +kernel
    have value : (Number.placeValue "009223372036854775808".toList : Int) = 9223372036854775808 := by decide +kernel
    refine ((integers_read_exactly "\t-009223372036854775808 ").1 _).mpr ⟨?_, by omega⟩
    rw [spelled, ← value]
    exact .minus _ (by decide) (List.all_eq_true.mp (by decide))
  · have spelled : Text.trim "-9223372036854775809".toList = '-' :: "9223372036854775809".toList := by decide +kernel
    have value : (Number.placeValue "9223372036854775809".toList : Int) = 9223372036854775809 := by decide +kernel
    have written : Number.WholeText (Text.trim "-9223372036854775809".toList) (-9223372036854775809) := by
      rw [spelled, ← value]
      exact .minus _ (by decide) (List.all_eq_true.mp (by decide))
    rcases (integers_read_exactly "-9223372036854775809").2 _ written (by omega) with float | ⟨_, refused⟩
    · exact float
    · have accepted : (read "-9223372036854775809".toList).isOk = true := by decide +kernel
      rw [refused] at accepted
      exact absurd accepted Bool.false_ne_true

end Literal

end CommandScript
