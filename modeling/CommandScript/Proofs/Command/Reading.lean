import CommandScript.Proofs.Command.SoleArgument

set_option autoImplicit false

namespace CommandScript.Literal

-- A token is a value by itself, a composite, or a variable.
theorem read_with_cases (composite : String → List Char → Except SyntaxError Value) (text : List Char) (value : Value)
    (reads : readWith composite text = .ok value) :
    atom? (Text.trim text) = some value ∨ (∃ name inside, composite name inside = .ok value) ∨
      ∃ name, reference? (Text.trim text) = some name ∧ value = .reference (String.ofList name) := by
  simp only [readWith] at reads
  split at reads
  · rename_i found
    exact .inl (found.trans (congrArg some (Except.ok.inj reads)))
  split at reads
  · exact .inr (.inl ⟨_, _, reads⟩)
  split at reads
  · rename_i name refers
    exact .inr (.inr ⟨name, refers, (Except.ok.inj reads).symm⟩)
  · cases reads

theorem assemble_composite (kind : CompositeKind) (fields : List Value) (value : Value)
    (built : assemble kind fields = .ok value) :
    fields.length ∈ kind.fieldCounts ∧ ∃ normal, normalFields kind fields = .ok normal ∧ value = .composite kind normal := by
  rw [assemble] at built
  by_cases counted : fields.length ∈ kind.fieldCounts
  · rw [if_neg (not_not_intro counted)] at built
    obtain ⟨normal, normalized, together⟩ := ok_of_bind built
    exact ⟨counted, normal, normalized, (Except.ok.inj together).symm⟩
  · rw [if_pos counted] at built
    cases built

theorem read_nested_cases (levels : Nat) (text : List Char) (value : Value) (reads : readNested levels text = .ok value) :
    atom? (Text.trim text) = some value ∨ (∃ kind fields, value = .composite kind fields) ∨
      ∃ name, reference? (Text.trim text) = some name ∧ value = .reference (String.ofList name) := by
  cases levels with
  | zero =>
    refine (read_with_cases _ text value reads).imp_right (Or.imp_left ?_)
    rintro ⟨name, inside, built⟩
    obtain ⟨kind, _, never⟩ := ok_of_bind built
    cases never
  | succ levels =>
    refine (read_with_cases _ text value reads).imp_right (Or.imp_left ?_)
    rintro ⟨name, inside, built⟩
    obtain ⟨kind, _, built⟩ := ok_of_bind built
    obtain ⟨tokens, _, built⟩ := ok_of_bind built
    obtain ⟨fields, _, built⟩ := ok_of_bind built
    obtain ⟨_, normal, _, rfl⟩ := assemble_composite kind fields value built
    exact ⟨kind, normal, rfl⟩

theorem atom_integer (token : List Char) (n : Int64) (read : atom? token = some (.int n)) : Number.readInt64 token = some n := by
  unfold atom? at read
  split at read
  · cases read
  split at read
  · cases read
  split at read
  · cases read
  split at read
  · cases read
  split at read
  · rename_i m integer
    obtain rfl := Value.int.inj (Option.some.inj read)
    exact integer
  split at read <;> cases read

theorem atom_no_reference (token : List Char) (name : String) : atom? token ≠ some (.reference name) := by
  intro read
  unfold atom? at read
  split at read
  · cases read
  split at read
  · cases read
  split at read
  · cases read
  split at read
  · cases read
  split at read
  · cases read
  split at read <;> cases read

theorem read_reference_iff (text : List Char) (name : String) :
    read text = .ok (.reference name) ↔ Text.trim text = '$' :: name.toList ∧ Text.isIdentifier name.toList = true := by
  constructor
  · intro reads
    rcases read_nested_cases 2 text _ reads with atom | ⟨kind, fields, never⟩ | ⟨own, refers, same⟩
    · exact absurd atom (atom_no_reference _ name)
    · cases never
    · obtain rfl := Value.reference.inj same
      rw [String.toList_ofList]
      exact reference_written _ own refers
  · rintro ⟨spelled, identifier⟩
    rw [← read_trim, spelled, read, readNested]
    exact Writing.reference_value name identifier _

-- Behind a dollar sign stands an identifier; no other name is looked for.
theorem read_dollar_none (name : List Char) (tight : Text.Tight ('$' :: name)) (noOpening : '(' ∉ name)
    (other : Text.isIdentifier name = false) : read ('$' :: name) = .error (.unreadableValue (String.ofList ('$' :: name))) := by
  have absent : '(' ∉ '$' :: name := List.not_mem_cons_of_ne_of_not_mem (by decide) noOpening
  have noComposite : constructor? ('$' :: name) = none := by
    rw [constructor?, Text.cut_at_none '(' _ absent]
    rfl
  have noReference : reference? ('$' :: name) = none := by
    rw [reference?, other]
    rfl
  rw [read, readNested, readWith, Text.trim_tight _ tight]
  simp only [Writing.atom_none '$' name rfl (by decide) (by decide), noComposite, noReference]

end CommandScript.Literal
