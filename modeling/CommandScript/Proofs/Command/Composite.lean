import CommandScript.Proofs.Command.Atom

set_option autoImplicit false

namespace CommandScript.Writing

theorem map_matched {α β ε : Type} {item : β → α → Prop} (read : α → Except ε β)
    (reads : ∀ value token, item value token → read token = .ok value) {values : List β} {tokens : List α}
    (matched : List.Forall₂ item values tokens) : tokens.mapM read = .ok values := by
  induction matched with
  | nil => rfl
  | cons written _ ih =>
    rw [List.mapM_cons, reads _ _ written, ih]
    rfl

theorem map_unchanged {α ε : Type} (keep : α → Except ε α) (values : List α)
    (keeps : ∀ value ∈ values, keep value = .ok value) : values.mapM keep = .ok values :=
  map_matched keep (fun _ _ same => same) (List.forall₂_same.mpr keeps)

theorem kind_name_identifier (kind : CompositeKind) : Text.isIdentifier kind.name.toList = true := by
  cases kind <;> decide

theorem kind_named_name (kind : CompositeKind) : Literal.kindNamed (String.ofList kind.name.toList) = .ok kind := by
  rw [String.ofList_toList]
  cases kind <;> rfl

-- The letters that constructor names begin with begin no other value.
theorem kind_name_first (kind : CompositeKind) (rest : List Char) : Literal.atom? (kind.name.toList ++ rest) = none := by
  cases kind with
  | vector3 => exact atom_none 'V' _ rfl (by decide) (by decide)
  | color => exact atom_none 'C' _ rfl (by decide) (by decide)
  | bounds => exact atom_none 'B' _ rfl (by decide) (by decide)

-- What is written stands for itself between commas and is read back.
structure Legible (levels : Nat) (item : Value → List Char → Prop) : Prop where
  closed : ∀ value token, item value token → Arguments.Closed token
  tight : ∀ value token, item value token → Text.Tight token
  reads : ∀ value token, item value token → Literal.readNested levels token = .ok value

theorem legible_of_parts {levels : Nat} {item : Value → List Char → Prop}
    (parts : ∀ value token, item value token → ∃ part, Legible levels part ∧ part value token) : Legible levels item := by
  refine ⟨fun value token written => ?_, fun value token written => ?_, fun value token written => ?_⟩
  all_goals obtain ⟨part, legible, own⟩ := parts value token written
  · exact legible.closed value token own
  · exact legible.tight value token own
  · exact legible.reads value token own

theorem atom_legible (levels : Nat) : Legible levels AtomText := by
  refine ⟨atom_closed, atom_tight, fun value token written => ?_⟩
  cases levels with
  | zero => exact atom_read value token written _
  | succ levels => exact atom_read value token written _

theorem number_legible (levels : Nat) : Legible levels NumberText :=
  legible_of_parts fun _ _ written => ⟨AtomText, atom_legible levels, written.2⟩

variable {levels : Nat} {kind : CompositeKind} {count : Nat} {item : Value → List Char → Prop}

theorem composite_closed (legible : Legible levels item) (value : Value) (token : List Char)
    (written : CompositeText kind count item value token) : Arguments.Closed token := by
  obtain ⟨fields, blanks, inside, _, blank, joined⟩ := written
  have name := Arguments.closed_append _ _ (identifier_closed _ (kind_name_identifier kind))
    (Arguments.blanks_closed blanks blank)
  have opened : (Arguments.Place.plain 0).walk ('(' :: (inside ++ [')'])) = some (.plain 0) := by
    rw [Arguments.Place.walk, if_neg (by simp)]
    change (Arguments.Place.plain 1).walk (inside ++ [')']) = some (.plain 0)
    rw [Arguments.walk_append, joined_inside legible.closed joined 0]
    rfl
  exact Arguments.closed_append _ _ name opened

theorem constructor_tight (blanks inside : List Char) : Text.Tight (kind.name.toList ++ blanks ++ '(' :: (inside ++ [')'])) := by
  have name := Text.identifier_tight _ (kind_name_identifier kind)
  simpa using Text.tight_framed kind.name.toList (blanks ++ '(' :: inside) [')'] name (Text.tight_single ')' (by decide))

theorem composite_tight (value : Value) (token : List Char) (written : CompositeText kind count item value token) :
    Text.Tight token := by
  obtain ⟨_, blanks, inside, _, _, _⟩ := written
  exact constructor_tight blanks inside

theorem constructor_name (blanks inside : List Char) (blank : Text.allBlank blanks = true) :
    Literal.constructor? (kind.name.toList ++ blanks ++ '(' :: (inside ++ [')'])) = some (kind.name.toList, inside) := by
  have absent : '(' ∉ kind.name.toList ++ blanks := by
    intro member
    rcases List.mem_append.mp member with inName | inBlanks
    · simpa [Text.isWordChar] using ((Text.identifier_iff _).mp (kind_name_identifier kind)).2 _ inName
    · simpa [Text.isBlank] using (Text.all_blank_iff blanks).mp blank _ inBlanks
  have name : Text.trim (kind.name.toList ++ blanks) = kind.name.toList :=
    Text.trim_padded [] kind.name.toList blanks rfl blank (Text.identifier_tight _ (kind_name_identifier kind))
  rw [Literal.constructor?, Text.cut_at_append '(' _ _ absent]
  simp [Text.without_last_append, name, kind_name_identifier]

-- A constructor is read by its parts: the pieces inside, the value of each, and the check of the kind.
theorem read_constructor (levels : Nat) (kind : CompositeKind) (blanks inside : List Char) (tokens : List (List Char))
    (fields : List Value) (blank : Text.allBlank blanks = true) (cut : Arguments.split inside = .ok tokens)
    (reads : tokens.mapM (Literal.readNested levels) = .ok fields) :
    Literal.readNested (levels + 1) (kind.name.toList ++ blanks ++ '(' :: (inside ++ [')'])) = Literal.assemble kind fields := by
  have noAtom : Literal.atom? (kind.name.toList ++ blanks ++ '(' :: (inside ++ [')'])) = none := by
    rw [List.append_assoc]
    exact kind_name_first kind _
  rw [Literal.readNested, Literal.readWith, Text.trim_tight _ (constructor_tight blanks inside)]
  simp only [noAtom, constructor_name blanks inside blank, kind_named_name, cut, bind, Except.bind, reads]

theorem assemble_normal (fields normal : List Value) (allowed : fields.length ∈ kind.fieldCounts)
    (normalized : Literal.normalFields kind fields = .ok normal) : Literal.assemble kind fields = .ok (.composite kind normal) := by
  rw [Literal.assemble, if_neg (not_not_intro allowed), normalized]
  rfl

-- A composite stands one level above its fields.
theorem composite_legible (legible : Legible levels item) (allowed : count ∈ kind.fieldCounts)
    (normal : ∀ fields : List Value, fields.length = count → (∀ field ∈ fields, ∃ token, item field token) →
      Literal.normalFields kind fields = .ok fields) :
    Legible (levels + 1) (CompositeText kind count item) := by
  refine ⟨composite_closed legible, composite_tight, fun value token written => ?_⟩
  obtain ⟨fields, blanks, inside, complete, blank, joined⟩ := written
  obtain ⟨tokens, split, matched⟩ := joined_split legible.closed legible.tight joined
  rw [read_constructor levels kind blanks inside tokens fields blank split (map_matched _ legible.reads matched)]
  exact assemble_normal fields fields (complete ▸ allowed) (normal fields complete (joined_members joined))

theorem number_unchanged (kind : CompositeKind) (value : Value) (written : ∃ token, NumberText value token) :
    Literal.numericField kind value = .ok value := by
  obtain ⟨token, shape, _⟩ := written
  cases value with
  | float x => rfl
  | reference name => rfl
  | null | bool | int | text | composite | component => simp [isFloat, isReference] at shape

theorem corner_unchanged (value : Value) (written : ∃ token, CornerText value token) :
    Literal.vectorField value = .ok value := by
  obtain ⟨token, written⟩ := written
  cases written with
  | vector written =>
    obtain ⟨fields, blanks, inside, _, _, _⟩ := written
    rfl
  | reference refers _ =>
    cases value with
    | reference name => rfl
    | null | bool | int | float | text | composite | component => simp [isReference] at refers

theorem vector_legible (levels : Nat) : Legible (levels + 1) VectorText := by
  refine composite_legible (number_legible levels) (by decide) fun fields _ numbers => ?_
  exact map_unchanged _ fields fun field member => number_unchanged .vector3 field (numbers field member)

theorem color_legible (levels : Nat) : Legible (levels + 1) (CompositeText .color 4 NumberText) := by
  refine composite_legible (number_legible levels) (by decide) fun fields complete numbers => ?_
  have unchanged := map_unchanged (Literal.numericField .color) fields fun field member =>
    number_unchanged .color field (numbers field member)
  -- Four channels: no opacity is added.
  rw [Literal.normalFields, unchanged]
  simp [bind, Except.bind, pure, Except.pure, complete]

theorem corner_legible (levels : Nat) : Legible (levels + 1) CornerText := by
  refine legible_of_parts fun value token written => ?_
  cases written with
  | vector written => exact ⟨VectorText, vector_legible levels, written⟩
  | reference _ written => exact ⟨AtomText, atom_legible (levels + 1), written⟩

theorem bounds_legible (levels : Nat) : Legible (levels + 2) (CompositeText .bounds 2 CornerText) := by
  refine composite_legible (corner_legible levels) (by decide) fun fields _ corners => ?_
  exact map_unchanged _ fields fun field member => corner_unchanged field (corners field member)

-- Two levels are just enough: a vector inside bounds stands on the inner one.
theorem value_legible : Legible 2 ValueText := by
  refine legible_of_parts fun value token written => ?_
  cases written with
  | atom written => exact ⟨AtomText, atom_legible 2, written⟩
  | vector written => exact ⟨VectorText, vector_legible 1, written⟩
  | color written => exact ⟨_, color_legible 1, written⟩
  | bounds written => exact ⟨_, bounds_legible 0, written⟩

end CommandScript.Writing
