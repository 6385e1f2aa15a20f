import CommandScript.Proofs.Catalog
import CommandScript.Proofs.Command.FloatText
import CommandScript.Proofs.Command.Reading
import CommandScript.Proofs.Command.Substitution

set_option autoImplicit false

namespace CommandScript

namespace Value

-- The double that a value stands for; what is no number counts as zero.
def double (value : Value) : Number.Double :=
  value.number?.getD 0.0

-- What numbers come to in a composite: all are floats, and a color of three channels is opaque.
def ofNumbers (kind : CompositeKind) (numbers : List Value) : Value :=
  .composite kind (numbers.map widened ++ Literal.opacity kind numbers.length)

theorem IsNumber.closed {number : Value} (isNumber : number.IsNumber) : number.Closed := by
  cases isNumber with
  | int n => exact .int n
  | float x => exact .float x

theorem IsNumber.widened_double {number : Value} (isNumber : number.IsNumber) : number.widened = .float number.double := by
  cases isNumber <;> rfl

theorem of_numbers_closed (kind : CompositeKind) (numbers : List Value) (each : ∀ number ∈ numbers, number.IsNumber) :
    (ofNumbers kind numbers).Closed := by
  refine .composite kind _ fun field listed => ?_
  rcases List.mem_append.mp listed with own | added
  · obtain ⟨number, known, rfl⟩ := List.mem_map.mp own
    rw [(each number known).widened_double]
    exact .float _
  · rw [Literal.opacity] at added
    split at added
    · obtain rfl := List.mem_singleton.mp added
      exact .float _
    · cases added

end Value

theorem Call.number_held (call : Call) (position : Nat) (number : Value) (isNumber : number.IsNumber)
    (held : call.arguments[position]? = some number) : call.number position = .ok number.double := by
  rw [Call.number, held]
  cases isNumber <;> rfl

theorem VectorOperation.create_numbers (numbers : List Value) (counted : numbers.length ∈ CompositeKind.vector3.fieldCounts)
    (each : ∀ number ∈ numbers, number.IsNumber) : VectorOperation.create.run numbers = .ok (Value.ofNumbers .vector3 numbers) := by
  have widened := List.map_congr_left fun number listed => (each number listed).widened_double
  obtain ⟨a, b, c, rfl⟩ := List.length_eq_three.mp (List.mem_singleton.mp counted)
  have held := Call.number_held ⟨"Vector3." ++ VectorOperation.create.key, [a, b, c]⟩
  rw [VectorOperation.run, held 0 a (each a (by simp)) rfl, held 1 b (each b (by simp)) rfl, held 2 c (each c (by simp)) rfl,
    Value.ofNumbers, widened]
  rfl

theorem ColorOperation.create_numbers (numbers : List Value) (counted : numbers.length ∈ CompositeKind.color.fieldCounts)
    (each : ∀ number ∈ numbers, number.IsNumber) : ColorOperation.create.run numbers = .ok (Value.ofNumbers .color numbers) := by
  have widened := List.map_congr_left fun number listed => (each number listed).widened_double
  rcases List.mem_cons.mp counted with three | four
  · obtain ⟨a, b, c, rfl⟩ := List.length_eq_three.mp three
    have held := Call.number_held ⟨"Color." ++ ColorOperation.create.key, [a, b, c]⟩
    rw [ColorOperation.run, ColorOperation.runCreate, held 0 a (each a (by simp)) rfl, held 1 b (each b (by simp)) rfl,
      held 2 c (each c (by simp)) rfl, Value.ofNumbers, widened]
    rfl
  · obtain ⟨a, b, c, d, rfl⟩ := List.length_eq_four.mp (List.mem_singleton.mp four)
    have held := Call.number_held ⟨"Color." ++ ColorOperation.create.key, [a, b, c, d]⟩
    rw [ColorOperation.run, ColorOperation.runCreate, held 0 a (each a (by simp)) rfl, held 1 b (each b (by simp)) rfl,
      held 2 c (each c (by simp)) rfl, held 3 d (each d (by simp)) rfl, Value.ofNumbers, widened]
    rfl

namespace StandardOperation

-- The operations that make composites out of numbers.
inductive Creates : CompositeKind → StandardOperation → Prop where
  | vector : Creates .vector3 (.vector .create)
  | color : Creates .color (.color .create)

namespace Creates

variable {kind : CompositeKind} {operation : StandardOperation}

theorem not_bounds (creates : Creates kind operation) : kind ≠ .bounds := by
  cases creates <;> decide

theorem path_identifiers (creates : Creates kind operation) :
    operation.path ≠ [] ∧ ∀ segment ∈ operation.path, Text.isIdentifier segment.toList = true := by
  cases creates <;> decide

theorem run_numbers (creates : Creates kind operation) (numbers : List Value) (counted : numbers.length ∈ kind.fieldCounts)
    (each : ∀ number ∈ numbers, number.IsNumber) (world : World) :
    (operation.run numbers).run world = (.ok (Value.ofNumbers kind numbers), world) := by
  cases creates with
  | vector =>
    rw [StandardOperation.run, VectorOperation.create_numbers numbers counted each]
    rfl
  | color =>
    rw [StandardOperation.run, ColorOperation.create_numbers numbers counted each]
    rfl

end Creates

end StandardOperation

namespace Literal

-- A token that is read as a number.
structure Numeral (number : Value) (token : String) : Prop where
  reads : read token.toList = .ok number
  isNumber : number.IsNumber

-- A number is read alike inside a composite and outside of one.
theorem Numeral.reads_nested {number : Value} {token : String} (numeral : Numeral number token) (levels : Nat) :
    readNested levels (Text.trim token.toList) = .ok number := by
  obtain ⟨reads, isNumber⟩ := numeral
  have atom : atom? (Text.trim token.toList) = some number := by
    rcases read_nested_cases 2 _ number reads with atom | ⟨kind, fields, rfl⟩ | ⟨name, _, rfl⟩
    · exact atom
    · cases isNumber
    · cases isNumber
  cases levels <;> rw [readNested, readWith, Text.trim_again, atom]

-- Numerals for the fields of a composite, as many as its kind takes.
structure Fills (kind : CompositeKind) (numbers : List Value) (tokens : List String) : Prop where
  matched : List.Forall₂ Numeral numbers tokens
  counted : numbers.length ∈ kind.fieldCounts

namespace Fills

variable {kind : CompositeKind} {numbers : List Value} {tokens : List String} (fills : Fills kind numbers tokens)

include fills

theorem members : (∀ number ∈ numbers, number.IsNumber) ∧ ∀ token ∈ tokens, ∃ number, Numeral number token := by
  have matched := fills.matched
  clear fills
  induction matched with
  | nil => simp
  | cons numeral _ ih =>
    obtain ⟨numbersLater, tokensLater⟩ := ih
    exact ⟨List.forall_mem_cons.mpr ⟨numeral.isNumber, numbersLater⟩, List.forall_mem_cons.mpr ⟨⟨_, numeral⟩, tokensLater⟩⟩

theorem nonempty : tokens ≠ [] := by
  obtain ⟨matched, counted⟩ := fills
  rintro rfl
  cases matched
  cases kind <;> exact absurd counted (by decide)

theorem cut : Arguments.split (", ".intercalate tokens).toList = .ok (tokens.map fun token => Text.trim token.toList) := by
  have sound : ∀ piece ∈ tokens.map String.toList, Arguments.Closed piece ∧ Text.allBlank piece = false := by
    refine List.forall_mem_map.mpr fun token listed => ?_
    obtain ⟨number, numeral⟩ := fills.members.2 token listed
    exact ⟨read_closed _ number numeral.reads, read_filled _ number numeral.reads⟩
  rw [String.toList_intercalate]
  change Arguments.split ([',', ' '].intercalate (tokens.map String.toList)) = _
  rw [Arguments.split_spread _ (by simpa using fills.nonempty) sound, List.map_map]
  rfl

theorem reads (levels : Nat) : (tokens.map fun token => Text.trim token.toList).mapM (readNested levels) = .ok numbers := by
  refine Writing.map_matched (readNested levels) (fun _ _ reads => reads) (List.forall₂_map_right_iff.mpr ?_)
  exact fills.matched.imp fun _ _ numeral => numeral.reads_nested levels

end Fills

end Literal

namespace Command

-- The text of an operation or a composite with its arguments.
def callText (name : String) (arguments : List String) : String :=
  name ++ "(" ++ ", ".intercalate arguments ++ ")"

-- In every state a command hands back what a literal stands for, and nothing changes but the variable that
-- receives it.
structure StandsFor (command literal : String) (value : Value) : Prop where
  reads : Literal.read literal.toList = .ok value
  fixed : ∀ context : Context, context.resolve value = value
  executes : ∀ state : State, state.execute Catalog.tree command = (⟨command, .ok value⟩, state)
  stores : ∀ (state : State) (name : String), state.executeAndStore Catalog.tree name command =
    (⟨command, .ok value⟩, { state with context := state.context.set name value })

section

variable {kind : CompositeKind} {operation : StandardOperation} {numbers : List Value} {tokens : List String}
  (creates : StandardOperation.Creates kind operation) (fills : Literal.Fills kind numbers tokens)

include creates fills

theorem read_numerals : Literal.read (callText kind.name tokens).toList = .ok (Value.ofNumbers kind numbers) := by
  have normal := Literal.normal_fields_numbers kind creates.not_bounds numbers fun number listed =>
    Literal.numeric_field_number kind number (fills.members.1 number listed)
  have spelled : (callText kind.name tokens).toList =
      kind.name.toList ++ [] ++ '(' :: ((", ".intercalate tokens).toList ++ [')']) := by
    simp [callText]
  -- The tokens inside are read one level further down.
  rw [spelled, Literal.read, Writing.read_constructor 1 kind [] _ _ numbers rfl fills.cut (fills.reads 1)]
  exact Writing.assemble_normal numbers _ fills.counted normal

theorem parse_creation : parse (callText (joinPath operation.path) tokens) = .ok ⟨operation.path, numbers, none⟩ := by
  obtain ⟨leads, identifiers⟩ := creates.path_identifiers
  have reads : (tokens.map fun token => Text.trim token.toList).mapM Literal.read = .ok numbers := fills.reads 2
  rw [callText, parse_path_call operation.path leads identifiers, fills.cut]
  simp only [bind, Except.bind, reads]
  rfl

theorem creation_runs (state : State) (name : Option String) :
    state.executeWith Catalog.tree name (callText (joinPath operation.path) tokens) =
      (⟨callText (joinPath operation.path) tokens, .ok (Value.ofNumbers kind numbers)⟩,
        ⟨State.bound state.context name (Value.ofNumbers kind numbers), state.world⟩) := by
  obtain ⟨leads, identifiers⟩ := creates.path_identifiers
  have each := fills.members.1
  -- Numbers hold no variable, so the operation is given them as they were read.
  have resolved : state.context.resolveAll numbers = numbers := by
    have fixed : ∀ number ∈ numbers, state.context.resolve number = number := fun number listed =>
      state.context.resolve_of_closed number (each number listed).closed
    rw [Context.resolve_all_map, List.map_congr_left fixed, List.map_id']
  have trimmed : Text.trimmed (callText (joinPath operation.path) tokens) = callText (joinPath operation.path) tokens :=
    path_call_trimmed operation.path leads identifiers (", ".intercalate tokens)
  rw [State.execute_with_reached name _ state _ operation (parse_creation creates fills) (Catalog.reached_at_path operation),
    resolved, creates.run_numbers numbers fills.counted each state.world, trimmed]
  cases name <;> rfl

theorem creation_stands :
    StandsFor (callText (joinPath operation.path) tokens) (callText kind.name tokens) (Value.ofNumbers kind numbers) where
  reads := read_numerals creates fills
  fixed context := context.resolve_of_closed _ (Value.of_numbers_closed kind numbers fills.members.1)
  executes state := creation_runs creates fills state none
  stores state name := creation_runs creates fills state (some name)

end

-- A composite is the same value whether it is written out or made by an operation, however its numbers are
-- spelled.
theorem operations_create_what_literals_write (s t u v : String) (a b c d : Value) (first : Literal.Numeral a s)
    (second : Literal.Numeral b t) (third : Literal.Numeral c u) (fourth : Literal.Numeral d v) :
    StandsFor (callText "Engine.Color.Create" [s, t, u]) (callText "Color" [s, t, u])
      (.composite .color [a.widened, b.widened, c.widened, .float 1.0]) ∧
    StandsFor (callText "Engine.Color.Create" [s, t, u, v]) (callText "Color" [s, t, u, v])
      (.composite .color [a.widened, b.widened, c.widened, d.widened]) ∧
    StandsFor (callText "Engine.Vector3.Create" [s, t, u]) (callText "Vector3" [s, t, u])
      (.composite .vector3 [a.widened, b.widened, c.widened]) := by
  have three : List.Forall₂ Literal.Numeral [a, b, c] [s, t, u] := .cons first (.cons second (.cons third .nil))
  have four : List.Forall₂ Literal.Numeral [a, b, c, d] [s, t, u, v] :=
    .cons first (.cons second (.cons third (.cons fourth .nil)))
  have colorPath : joinPath (StandardOperation.color .create).path = "Engine.Color.Create" := by decide
  have vectorPath : joinPath (StandardOperation.vector .create).path = "Engine.Vector3.Create" := by decide
  have threeChannels := creation_stands .color ⟨three, List.mem_cons_self⟩
  have fourChannels := creation_stands .color ⟨four, List.mem_cons_of_mem 3 List.mem_cons_self⟩
  have vector := creation_stands .vector ⟨three, List.mem_cons_self⟩
  rw [colorPath] at threeChannels fourChannels
  rw [vectorPath] at vector
  exact ⟨threeChannels, fourChannels, vector⟩

-- The lowest integer of 64 bits among blanks and zeros, the number above the highest one, the zero below
-- zero, and a fraction without a whole part.
theorem extremes_are_created :
    Literal.Numeral (.int (-9223372036854775808)) "\t-009223372036854775808 " ∧
      Literal.Numeral (.ofFloat 9223372036854775808.0) "9223372036854775808" ∧
      Literal.Numeral (.ofFloat (-0.0)) "-0.0" ∧ Literal.Numeral (.ofFloat 0.0005) "+.5E-3" ∧
      StandsFor "Engine.Color.Create(\t-009223372036854775808 , 9223372036854775808, -0.0, +.5E-3)"
        "Color(\t-009223372036854775808 , 9223372036854775808, -0.0, +.5E-3)"
        (.composite .color [.ofFloat (-9223372036854775808.0), .ofFloat 9223372036854775808.0, .ofFloat (-0.0), .ofFloat 0.0005]) := by
  have lowest : Literal.Numeral (.int (-9223372036854775808)) "\t-009223372036854775808 " := ⟨rfl, .int _⟩
  have fraction (x : Float) (token : String) (reads : Number.readFinite token.toList = some x)
      (noInteger : Number.readInt64 token.toList = none) : Literal.Numeral (.ofFloat x) token := by
    refine ⟨?_, .float _⟩
    rw [Literal.read_number _ x reads, noInteger]
    rfl
  have beyond := fraction 9223372036854775808.0 "9223372036854775808" (by decide +kernel) (by decide +kernel)
  have zero := fraction (-0.0) "-0.0" (by decide +kernel) (by decide +kernel)
  have small := fraction 0.0005 "+.5E-3" (by decide +kernel) (by decide +kernel)
  have widened : (Value.int (-9223372036854775808)).widened = .ofFloat (-9223372036854775808.0) := by
    refine congrArg Value.ofFloat ?_
    decide +kernel
  refine ⟨lowest, beyond, zero, small, ?_⟩
  have stands := (operations_create_what_literals_write _ _ _ _ _ _ _ _ lowest beyond zero small).2.1
  rw [widened] at stands
  exact stands

end Command

end CommandScript
