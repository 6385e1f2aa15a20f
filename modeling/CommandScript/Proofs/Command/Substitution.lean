import CommandScript.Proofs.Closed
import CommandScript.Proofs.Command.RoundTrip
import CommandScript.Proofs.Plain

set_option autoImplicit false

namespace CommandScript

namespace Value

-- A value itself, and what stands in its fields at any depth.
inductive Part : Value → Value → Prop where
  | whole (value : Value) : Part value value
  | inner (kind : CompositeKind) (fields : List Value) (field part : Value) (listed : field ∈ fields) (within : Part field part) :
      Part (.composite kind fields) part

inductive IsNumber : Value → Prop where
  | int (n : Int64) : IsNumber (.int n)
  | float (x : Number.Double) : IsNumber (.float x)

def widened : Value → Value
  | .int n => .ofFloat (floatOfInt64 n)
  | other => other

theorem widened_fixed (value : Value) : value.widened = value ↔ ∀ n, value ≠ .int n := by
  cases value with
  | int n => exact ⟨nofun, fun other => absurd rfl (other n)⟩
  | null | bool | float | text | composite | reference | component => exact ⟨fun _ => nofun, fun _ => rfl⟩

end Value

theorem NormalNumber.no_composite (value : Value) (normal : NormalNumber value) (kind : CompositeKind) (fields : List Value) :
    ¬ value.Part (.composite kind fields) := by
  cases normal <;> exact nofun

theorem NormalCorner.numbers (value : Value) (normal : NormalCorner value) (kind : CompositeKind) (fields : List Value)
    (part : value.Part (.composite kind fields)) : ∀ field ∈ fields, NormalNumber field := by
  cases normal with
  | vector own _ numbers =>
    cases part with
    | whole => exact numbers
    | inner _ _ field _ listed within => exact absurd within (NormalNumber.no_composite field (numbers field listed) kind fields)
  | reference => cases part

-- Vectors and colors hold floats and variables wherever they stand in an argument.
theorem NormalValue.numbers (value : Value) (normal : NormalValue value) (kind : CompositeKind) (fields : List Value)
    (other : kind ≠ .bounds) (part : value.Part (.composite kind fields)) : ∀ field ∈ fields, NormalNumber field := by
  cases normal with
  | null | bool | int | text => cases part
  | number _ number => exact absurd part (number.no_composite value kind fields)
  | corner _ corner => exact corner.numbers value kind fields part
  | color own _ numbers =>
    cases part with
    | whole => exact numbers
    | inner _ _ field _ listed within => exact absurd within (NormalNumber.no_composite field (numbers field listed) kind fields)
  | bounds own _ corners =>
    cases part with
    | whole => exact absurd rfl other
    | inner _ _ field _ listed within => exact NormalCorner.numbers field (corners field listed) kind fields within

namespace Context

variable (context : Context)

theorem part_resolved {value part : Value} (within : value.Part part) : (context.resolve value).Part (context.resolve part) := by
  induction within with
  | whole value => exact .whole _
  | inner kind fields field part listed _ ih =>
    rw [resolve, resolve_all_map]
    exact .inner kind _ _ _ (List.mem_map_of_mem listed) ih

-- Every variable in a vector or a color of an argument is bound to a number.
def BindsNumbers (argument : Value) : Prop :=
  ∀ kind fields, kind ≠ .bounds → argument.Part (.composite kind fields) → ∀ name, .reference name ∈ fields →
    ∃ value, context.get? name = some value ∧ value.IsNumber

theorem number_resolved (field : Value) (normal : NormalNumber field)
    (bound : ∀ name, field = .reference name → ∃ value, context.get? name = some value ∧ value.IsNumber) :
    (∃ x, context.resolve field = .float x) ∨
      ∃ name n, field = .reference name ∧ context.get? name = some (.int n) ∧ context.resolve field = .int n := by
  cases normal with
  | float x => exact .inl ⟨x, rfl⟩
  | reference name =>
    obtain ⟨value, found, number⟩ := bound name rfl
    have resolved : context.resolve (.reference name) = value := by rw [resolve, found, Option.getD_some]
    cases number with
    | int n => exact .inr ⟨name, n, rfl, found, resolved⟩
    | float x => exact .inl ⟨x, resolved⟩

theorem resolve_integer (value : Value) (n : Int64) :
    context.resolve value = .int n ↔ value = .int n ∨ ∃ name, value = .reference name ∧ context.get? name = some (.int n) := by
  cases value with
  | reference name =>
    rw [resolve]
    cases found : context.get? name <;> simp [found]
  | null | bool | int | float | text | composite | component => simp [resolve]

theorem widened_resolve_widened (value : Value) : (context.resolve value.widened).widened = (context.resolve value).widened := by
  cases value <;> rfl

end Context

namespace Literal

theorem numeric_field_number (kind : CompositeKind) (value : Value) (number : value.IsNumber) :
    numericField kind value = .ok value.widened := by
  cases number <;> rfl

theorem numeric_field_replaced (context : Context) (kind : CompositeKind) (field : Value) (number : (context.resolve field).IsNumber) :
    numericField kind field = .ok field.widened := by
  cases field with
  | int | float | reference => rfl
  | null | bool | text | composite | component => cases number

-- Three channels get a fourth, the opacity.
def opacity (kind : CompositeKind) (count : Nat) : List Value :=
  if kind = .color ∧ count = 3 then [.float 1.0] else []

theorem normal_fields_numbers (kind : CompositeKind) (other : kind ≠ .bounds) (fields : List Value)
    (numbers : ∀ field ∈ fields, numericField kind field = .ok field.widened) :
    normalFields kind fields = .ok (fields.map Value.widened ++ opacity kind fields.length) := by
  have each : List.Forall₂ (fun value field => numericField kind field = .ok value) (fields.map Value.widened) fields :=
    List.forall₂_map_left_iff.mpr (List.forall₂_same.mpr numbers)
  have widened := Writing.map_matched (numericField kind) (fun _ _ read => read) each
  cases kind with
  | vector3 => simp [normalFields, widened, opacity]
  | color =>
    rw [normalFields, widened]
    by_cases three : fields.length = 3 <;> simp [opacity, three, bind, Except.bind, pure, Except.pure]
  | bounds => exact absurd rfl other

-- Among normal fields is no integer, and no variable that was not there before.
theorem normal_members (kind : CompositeKind) (fields : List Value) (count : Nat) (value : Value)
    (listed : value ∈ fields.map Value.widened ++ opacity kind count) :
    (∀ n, value ≠ .int n) ∧ ∀ name, value = .reference name → .reference name ∈ fields := by
  rcases List.mem_append.mp listed with own | added
  · obtain ⟨field, known, rfl⟩ := List.mem_map.mp own
    cases field with
    | reference name => exact ⟨fun _ => nofun, fun _ same => same ▸ known⟩
    | null | bool | int | float | text | composite | component => exact ⟨fun _ => nofun, fun _ => nofun⟩
  · rw [opacity] at added
    split at added
    · obtain rfl := List.mem_singleton.mp added
      exact ⟨fun _ => nofun, fun _ => nofun⟩
    · cases added

-- Replacing the variables in a composite and building it from their values differ in the integers only.
theorem assemble_resolved (context : Context) (kind : CompositeKind) (other : kind ≠ .bounds) (fields : List Value)
    (counted : fields.length ∈ kind.fieldCounts) (numbers : ∀ field ∈ fields, (context.resolve field).IsNumber) :
    ∃ normal, assemble kind fields = .ok (.composite kind normal) ∧
      assemble kind (fields.map context.resolve) = .ok (.composite kind ((normal.map context.resolve).map Value.widened)) ∧
      ((normal.map context.resolve).map Value.widened = normal.map context.resolve ↔
        ∀ name n, .reference name ∈ fields → context.get? name ≠ some (.int n)) := by
  refine ⟨fields.map Value.widened ++ opacity kind fields.length, ?before, ?after, ?same⟩
  case before =>
    exact Writing.assemble_normal _ _ counted
      (normal_fields_numbers kind other fields fun field listed => numeric_field_replaced context kind field (numbers field listed))
  case after =>
    have normalized := normal_fields_numbers kind other (fields.map context.resolve) fun value listed => by
      obtain ⟨field, known, rfl⟩ := List.mem_map.mp listed
      exact numeric_field_number kind _ (numbers field known)
    have unchanged : ((opacity kind fields.length).map context.resolve).map Value.widened = opacity kind fields.length := by
      rw [opacity]
      split <;> rfl
    rw [Writing.assemble_normal _ _ (by rwa [List.length_map]) normalized, List.map_append, List.map_append, unchanged, List.length_map]
    simp only [List.map_map, Function.comp_def, Context.widened_resolve_widened]
  case same =>
    rw [List.map_map, List.map_inj_left]
    constructor
    · intro fixed name n listed found
      have kept := fixed (.reference name) (List.mem_append_left _ (List.mem_map.mpr ⟨_, listed, rfl⟩))
      exact (Value.widened_fixed _).mp kept n ((context.resolve_integer _ n).mpr (.inr ⟨name, rfl, found⟩))
    · intro unbound value listed
      obtain ⟨noInteger, fromFields⟩ := normal_members kind fields fields.length value listed
      refine (Value.widened_fixed _).mpr fun n integer => ?_
      rcases (context.resolve_integer value n).mp integer with own | ⟨name, refers, found⟩
      · exact noInteger n own
      · exact unbound name n (fromFields name refers) found

-- A token of a composite, and the number that stands in its place once variables are replaced.
def Stands (context : Context) (levels : Nat) (token number : List Char) : Prop :=
  ∃ field, readNested levels token = .ok field ∧ (context.resolve field).IsNumber ∧
    readNested levels number = .ok (context.resolve field)

theorem stands_read (context : Context) (levels : Nat) (tokens numbers : List (List Char))
    (matched : List.Forall₂ (Stands context levels) tokens numbers) :
    ∃ fields, tokens.mapM (readNested levels) = .ok fields ∧ numbers.mapM (readNested levels) = .ok (fields.map context.resolve) ∧
      (∀ field ∈ fields, (context.resolve field).IsNumber) ∧ fields.length = tokens.length ∧
      ∀ value, value ∈ fields ↔ ∃ token ∈ tokens, readNested levels token = .ok value := by
  induction matched with
  | nil => exact ⟨[], rfl, rfl, by simp, rfl, by simp⟩
  | @cons token number tokens numbers stands _ ih =>
    obtain ⟨field, reads, isNumber, replaced⟩ := stands
    obtain ⟨fields, first, second, each, count, members⟩ := ih
    refine ⟨field :: fields, ?_, ?_, List.forall_mem_cons.mpr ⟨isNumber, each⟩, by simp [count], fun value => ?_⟩
    · rw [List.mapM_cons, reads, first]
      rfl
    · rw [List.mapM_cons, replaced, second]
      rfl
    · rw [List.mem_cons, members, List.exists_mem_cons_iff, reads, Except.ok.injEq, eq_comm]

end Literal

namespace Command

-- Replacing variables widens no integer. What a vector or a color holds then is a float, or the integer of a
-- variable; it is the composite of the same numbers written out only after these integers are widened too.
theorem substitution_widens_no_integer (context : Context) :
    (∀ (text : String) (command : Command), parse text = .ok command → ∀ argument ∈ command.arguments,
      context.BindsNumbers argument → ∀ kind fields, kind ≠ .bounds → argument.Part (.composite kind fields) →
        (context.resolve argument).Part (.composite kind (fields.map context.resolve)) ∧
        ∀ field ∈ fields, (∃ x, context.resolve field = .float x) ∨
          ∃ name n, field = .reference name ∧ context.get? name = some (.int n) ∧ context.resolve field = .int n) ∧
    ∀ (kind : CompositeKind) (levels : Nat) (inside numbers : List Char) (tokens written : List (List Char)), kind ≠ .bounds →
      Arguments.split inside = .ok tokens → Arguments.split numbers = .ok written → tokens.length ∈ kind.fieldCounts →
      List.Forall₂ (Literal.Stands context levels) tokens written →
        ∃ fields,
          Literal.readNested (levels + 1) (kind.name.toList ++ '(' :: (inside ++ [')'])) = .ok (.composite kind fields) ∧
          Literal.readNested (levels + 1) (kind.name.toList ++ '(' :: (numbers ++ [')'])) =
            .ok (.composite kind ((fields.map context.resolve).map Value.widened)) ∧
          context.resolve (.composite kind fields) = .composite kind (fields.map context.resolve) ∧
          ((fields.map context.resolve).map Value.widened = fields.map context.resolve ↔
            ∀ token ∈ tokens, ∀ name n, Literal.readNested levels token = .ok (.reference name) →
              context.get? name ≠ some (.int n)) := by
  constructor
  · intro text command parsed argument listed bound kind fields other part
    have reads : Reads (parse text) Normal := parse_chars_reads text.toList
    rw [parsed] at reads
    have normal := NormalValue.numbers argument (reads.arguments argument listed) kind fields other part
    refine ⟨?_, fun field member => ?_⟩
    · have resolved := context.part_resolved part
      rwa [Context.resolve, Context.resolve_all_map] at resolved
    · refine context.number_resolved field (normal field member) ?_
      rintro name rfl
      exact bound kind fields other part name member
  · intro kind levels inside numbers tokens written other cut cutNumbers counted matched
    obtain ⟨fields, reads, readsNumbers, each, count, members⟩ := Literal.stands_read context levels tokens written matched
    obtain ⟨normal, built, builtNumbers, same⟩ := Literal.assemble_resolved context kind other fields (count ▸ counted) each
    refine ⟨normal, ?_, ?_, by rw [Context.resolve, Context.resolve_all_map], ?_⟩
    · simpa [built] using Writing.read_constructor levels kind [] inside tokens fields rfl cut reads
    · simpa [builtNumbers] using Writing.read_constructor levels kind [] numbers written _ rfl cutNumbers readsNumbers
    · rw [same]
      constructor
      · intro unbound token listed name n refers
        exact unbound name n ((members _).mpr ⟨token, listed, refers⟩)
      · intro unbound name n listed
        obtain ⟨token, known, refers⟩ := (members _).mp listed
        exact unbound token known name n refers

def spot : Value :=
  .composite .vector3 [.reference "x", .ofFloat 0.0, .ofFloat 0.0]

def spotContext : Context :=
  Context.empty.set "x" (.int 1)

open Writing in
theorem spot_parses :
    parse "System.Console.WriteLine(Vector3($x, 0.0, 0.0))" = .ok ⟨["System", "Console", "WriteLine"], [spot], none⟩ := by
  have reference : NumberText (.reference "x") "$x".toList := ⟨rfl, .reference "x" (by decide)⟩
  have zero : NumberText (.ofFloat 0.0) "0.0".toList := ⟨rfl, .float 0.0 _ (by decide +kernel) (by decide)⟩
  have numbers : Joined ',' NumberText [.reference "x", .ofFloat 0.0, .ofFloat 0.0] "$x, 0.0, 0.0".toList :=
    .more _ "$x".toList _ _ (.intro _ [] _ [] rfl reference rfl)
      (.more _ " 0.0".toList _ _ (.intro _ [' '] _ [] rfl zero rfl) (.one _ _ (.intro _ [' '] _ [] rfl zero rfl)))
  have vector : ValueText spot "Vector3($x, 0.0, 0.0)".toList := .vector _ _ (.intro _ [] _ rfl rfl numbers)
  have segment (name : String) (identifier : Text.isIdentifier name.toList = true) : Padded SegmentText name ([] ++ name.toList ++ []) :=
    .intro name [] name.toList [] rfl ⟨identifier, rfl⟩ rfl
  have segments : Joined '.' SegmentText ["System", "Console", "WriteLine"] _ :=
    .more _ _ _ _ (segment "System" (by decide))
      (.more _ _ _ _ (segment "Console" (by decide)) (.one _ _ (segment "WriteLine" (by decide))))
  have written := CommandText.intro ["System", "Console", "WriteLine"] [spot] none [] _ _ _ [] rfl .none segments
    (.some _ _ (.one _ _ (.intro _ [] _ [] rfl vector rfl))) rfl
  refine parse_written _ _ (Eq.mp (congrArg (CommandText _) ?_) written)
  decide +kernel

theorem spot_resolves : spotContext.resolve (.reference "x") = .int 1 := by
  rw [spotContext, Context.resolve, Context.get_set, if_pos rfl, Option.getD_some]

theorem spot_bound : spotContext.BindsNumbers spot := by
  intro kind fields other part name listed
  cases part with
  | whole =>
    obtain rfl : name = "x" := by simpa [Value.ofFloat] using listed
    exact ⟨.int 1, by rw [spotContext, Context.get_set, if_pos rfl], .int 1⟩
  | inner _ _ field _ own within =>
    rcases List.mem_cons.mp own with rfl | others
    · cases within
    · obtain rfl : field = .ofFloat 0.0 := by simpa using others
      cases within

-- A vector whose first field is a variable that is bound to one holds the integer.
theorem spot_keeps_integer :
    ¬ ∀ (text : String) (command : Command), parse text = .ok command → ∀ argument ∈ command.arguments, ∀ context : Context,
      context.BindsNumbers argument → ∀ kind fields, kind ≠ .bounds → argument.Part (.composite kind fields) →
        ∀ field ∈ fields, ∃ x, context.resolve field = .float x := by
  intro claim
  obtain ⟨x, float⟩ := claim _ _ spot_parses spot (List.mem_singleton_self _) spotContext spot_bound .vector3 _ (by decide)
    (.whole spot) (.reference "x") List.mem_cons_self
  rw [spot_resolves] at float
  cases float

theorem spot_color_differs :
    (spotContext.resolve spot).Part (.composite .vector3 [.int 1, .ofFloat 0.0, .ofFloat 0.0]) ∧
      ∃ replaced written, Literal.read "Color($x, 2, 0.5)".toList = .ok replaced ∧
        Literal.read "Color(1, 2, 0.5)".toList = .ok written ∧ spotContext.resolve replaced ≠ written := by
  have parts := ((substitution_widens_no_integer spotContext).1 _ _ spot_parses spot (List.mem_singleton_self _) spot_bound
    .vector3 _ (by decide) (.whole spot)).1
  have atom := (Writing.atom_legible 1).reads
  have x : Literal.readNested 1 "$x".toList = .ok (.reference "x") := atom _ _ (.reference "x" (by decide))
  have one : Literal.readNested 1 "1".toList = .ok (.int 1) := atom _ _ (.int 1)
  have two : Literal.readNested 1 "2".toList = .ok (.int 2) := atom _ _ (.int 2)
  have half : Literal.readNested 1 "0.5".toList = .ok (.ofFloat 0.5) := atom _ _ (.float 0.5 _ (by decide +kernel) (by decide))
  have stands : List.Forall₂ (Literal.Stands spotContext 1) ["$x".toList, "2".toList, "0.5".toList]
      ["1".toList, "2".toList, "0.5".toList] :=
    .cons ⟨_, x, spot_resolves ▸ .int 1, spot_resolves ▸ one⟩
      (.cons ⟨_, two, .int 2, two⟩ (.cons ⟨_, half, .float _, half⟩ .nil))
  have cut : Arguments.split "$x, 2, 0.5".toList = .ok ["$x".toList, "2".toList, "0.5".toList] := by rfl
  have cutNumbers : Arguments.split "1, 2, 0.5".toList = .ok ["1".toList, "2".toList, "0.5".toList] := by rfl
  obtain ⟨fields, replaced, written, resolved, same⟩ := (substitution_widens_no_integer spotContext).2 .color 1 _ _ _ _ (by decide)
    cut cutNumbers (by decide) stands
  refine ⟨parts, _, _, replaced, written, fun equal => ?_⟩
  rw [resolved] at equal
  have kept := (Value.composite.inj equal).2
  exact same.mp kept.symm "$x".toList List.mem_cons_self "x" 1 x (by rw [spotContext, Context.get_set, if_pos rfl])

end Command

end CommandScript
