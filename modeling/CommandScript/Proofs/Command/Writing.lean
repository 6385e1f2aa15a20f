import CommandScript.Command.Parser
import CommandScript.Proofs.Command.Scan
import Mathlib.Data.List.Forall2

set_option autoImplicit false

namespace CommandScript.Writing

-- An item with any blanks around it.
inductive Padded {α : Type} (item : α → List Char → Prop) : α → List Char → Prop where
  | intro (value : α) (before token after : List Char) (blankBefore : Text.allBlank before = true)
      (written : item value token) (blankAfter : Text.allBlank after = true) :
      Padded item value (before ++ token ++ after)

-- Items one after the other, with a mark between any two.
inductive Joined {α : Type} (mark : Char) (item : α → List Char → Prop) : List α → List Char → Prop where
  | one (value : α) (piece : List Char) (padded : Padded item value piece) : Joined mark item [value] piece
  | more (value : α) (piece : List Char) (rest : List α) (others : List Char) (padded : Padded item value piece)
      (remaining : Joined mark item rest others) : Joined mark item (value :: rest) (piece ++ mark :: others)

inductive Listed {α : Type} (item : α → List Char → Prop) : List α → List Char → Prop where
  | none (blanks : List Char) (blank : Text.allBlank blanks = true) : Listed item [] blanks
  | some (values : List α) (text : List Char) (joined : Joined ',' item values text) : Listed item values text

-- The content of a quoted text: the backslash and the quote itself stand behind a backslash.
def escape (quote : Char) : List Char → List Char
  | [] => []
  | c :: rest => if c = '\\' ∨ c = quote then '\\' :: c :: escape quote rest else c :: escape quote rest

inductive AtomText : Value → List Char → Prop where
  | null (token : List Char) (keyword : Text.isKeyword "null" token = true) : AtomText .null token
  | true (token : List Char) (keyword : Text.isKeyword "true" token = true) : AtomText (.bool Bool.true) token
  | false (token : List Char) (keyword : Text.isKeyword "false" token = true) : AtomText (.bool Bool.false) token
  | int (n : Int64) : AtomText (.int n) (Number.integerText n.toInt).toList
  | float (x : Float) (token : List Char) (reads : Number.readFinite token = some x)
      (fraction : Number.readInt64 token = none) : AtomText (.ofFloat x) token
  | text (s : String) (quote : Char) (quotes : Arguments.isQuote quote = true) :
      AtomText (.text s) (quote :: (escape quote s.toList ++ [quote]))
  | reference (name : String) (identifier : Text.isIdentifier name.toList = true) :
      AtomText (.reference name) ('$' :: name.toList)

def isFloat : Value → Bool
  | .float _ => true
  | _ => false

def isReference : Value → Bool
  | .reference _ => true
  | _ => false

def NumberText (value : Value) (token : List Char) : Prop :=
  (isFloat value || isReference value) = true ∧ AtomText value token

-- A constructor with a given number of fields; blanks may stand on either side of a parenthesis.
inductive CompositeText (kind : CompositeKind) (count : Nat) (item : Value → List Char → Prop) :
    Value → List Char → Prop where
  | intro (fields : List Value) (blanks inside : List Char) (complete : fields.length = count)
      (blank : Text.allBlank blanks = true) (joined : Joined ',' item fields inside) :
      CompositeText kind count item (.composite kind fields) (kind.name.toList ++ blanks ++ '(' :: (inside ++ [')']))

def VectorText : Value → List Char → Prop :=
  CompositeText .vector3 3 NumberText

inductive CornerText : Value → List Char → Prop where
  | vector (value : Value) (token : List Char) (written : VectorText value token) : CornerText value token
  | reference (value : Value) (token : List Char) (refers : isReference value = true) (written : AtomText value token) :
      CornerText value token

inductive ValueText : Value → List Char → Prop where
  | atom (value : Value) (token : List Char) (written : AtomText value token) : ValueText value token
  | vector (value : Value) (token : List Char) (written : VectorText value token) : ValueText value token
  | color (value : Value) (token : List Char) (written : CompositeText .color 4 NumberText value token) :
      ValueText value token
  | bounds (value : Value) (token : List Char) (written : CompositeText .bounds 2 CornerText value token) :
      ValueText value token

def SegmentText (segment : String) (token : List Char) : Prop :=
  Text.isIdentifier segment.toList = true ∧ token = segment.toList

-- The blanks behind the sign of equality are those in front of the first segment.
inductive BindingText : Option String → List Char → Prop where
  | none : BindingText none []
  | some (name : String) (blanks : List Char) (identifier : Text.isIdentifier name.toList = true)
      (blank : Text.allBlank blanks = true) : BindingText (some name) ('$' :: (name.toList ++ blanks ++ ['=']))

inductive CommandText : Command → List Char → Prop where
  | intro (path : List String) (arguments : List Value) (binding : Option String)
      (before bound segments inside after : List Char) (blankBefore : Text.allBlank before = true)
      (binds : BindingText binding bound) (leads : Joined '.' SegmentText path segments)
      (passes : Listed ValueText arguments inside) (blankAfter : Text.allBlank after = true) :
      CommandText ⟨path, arguments, binding⟩ (before ++ (bound ++ segments ++ '(' :: (inside ++ [')'])) ++ after)

variable {α : Type} {mark : Char} {item : α → List Char → Prop}

theorem padded_closed (closed : ∀ value token, item value token → Arguments.Closed token) {value : α} {piece : List Char}
    (padded : Padded item value piece) : Arguments.Closed piece := by
  obtain ⟨before, token, after, blankBefore, written, blankAfter⟩ := padded
  have front := Arguments.closed_append _ _ (Arguments.blanks_closed before blankBefore) (closed value token written)
  exact Arguments.closed_append _ _ front (Arguments.blanks_closed after blankAfter)

theorem padded_trim (tight : ∀ value token, item value token → Text.Tight token) {value : α} {piece : List Char}
    (padded : Padded item value piece) : item value (Text.trim piece) := by
  obtain ⟨before, token, after, blankBefore, written, blankAfter⟩ := padded
  rw [Text.trim_padded before token after blankBefore blankAfter (tight value token written)]
  exact written

theorem padded_absent (c : Char) (dark : Text.isBlank c = false) (absent : ∀ value token, item value token → c ∉ token)
    {value : α} {piece : List Char} (padded : Padded item value piece) : c ∉ piece := by
  obtain ⟨before, token, after, blankBefore, written, blankAfter⟩ := padded
  intro member
  rcases List.mem_append.mp member with front | back
  · rcases List.mem_append.mp front with blank | inside
    · simp [(Text.all_blank_iff before).mp blankBefore c blank] at dark
    · exact absent value token written inside
  · simp [(Text.all_blank_iff after).mp blankAfter c back] at dark

theorem joined_members {values : List α} {text : List Char} (joined : Joined mark item values text) :
    ∀ value ∈ values, ∃ token, item value token := by
  induction joined with
  | one value piece padded =>
    obtain ⟨_, token, _, _, written, _⟩ := padded
    intro other member
    obtain rfl := List.mem_singleton.mp member
    exact ⟨token, written⟩
  | more value piece rest others padded _ ih =>
    obtain ⟨_, token, _, _, written, _⟩ := padded
    intro other member
    rcases List.mem_cons.mp member with rfl | later
    · exact ⟨token, written⟩
    · exact ih other later

theorem joined_first {values : List α} {text : List Char} (joined : Joined mark item values text) :
    ∃ value before token suffix, item value token ∧ Text.allBlank before = true ∧
      text = before ++ (token ++ suffix) ∧ Joined mark item values (token ++ suffix) := by
  cases joined with
  | one value piece padded =>
    obtain ⟨before, token, after, blankBefore, written, blankAfter⟩ := padded
    refine ⟨value, before, token, after, written, blankBefore, by simp, ?_⟩
    exact .one value (token ++ after) (.intro value [] token after rfl written blankAfter)
  | more value piece rest others padded remaining =>
    obtain ⟨before, token, after, blankBefore, written, blankAfter⟩ := padded
    refine ⟨value, before, token, after ++ mark :: others, written, blankBefore, by simp, ?_⟩
    rw [← List.append_assoc]
    exact .more value (token ++ after) rest others (.intro value [] token after rfl written blankAfter) remaining

theorem joined_absent (c : Char) (dark : Text.isBlank c = false) (other : c ≠ mark)
    (absent : ∀ value token, item value token → c ∉ token) {values : List α} {text : List Char}
    (joined : Joined mark item values text) : c ∉ text := by
  induction joined with
  | one value piece padded => exact padded_absent c dark absent padded
  | more value piece rest others padded _ ih =>
    intro member
    rcases List.mem_append.mp member with front | back
    · exact padded_absent c dark absent padded front
    · exact (List.mem_cons.mp back).elim other ih

theorem joined_pieces (dark : Text.isBlank mark = false) (absent : ∀ value token, item value token → mark ∉ token)
    {values : List α} {text : List Char} (joined : Joined mark item values text) :
    List.Forall₂ (Padded item) values (Text.pieces mark text) := by
  induction joined with
  | one value piece padded =>
    rw [Text.pieces_single mark piece (padded_absent mark dark absent padded)]
    exact .cons padded .nil
  | more value piece rest others padded _ ih =>
    rw [Text.pieces_append mark piece others (padded_absent mark dark absent padded)]
    exact .cons padded ih

theorem padded_filled (tight : ∀ value token, item value token → Text.Tight token) {value : α} {piece : List Char}
    (padded : Padded item value piece) : Text.allBlank piece = false := by
  obtain ⟨before, token, after, _, written, _⟩ := padded
  exact Text.tight_not_blank before token after (tight value token written)

-- The pieces between the commas.
theorem joined_cut {values : List α} {text : List Char} (joined : Joined ',' item values text) :
    ∃ pieces, pieces ≠ [] ∧ text = [','].intercalate pieces ∧ List.Forall₂ (Padded item) values pieces ∧
      ∀ piece ∈ pieces, ∃ value, Padded item value piece := by
  induction joined with
  | one value piece padded =>
    refine ⟨[piece], List.cons_ne_nil piece [], List.intercalate_singleton.symm, .cons padded .nil, ?_⟩
    exact List.forall_mem_singleton.mpr ⟨value, padded⟩
  | more value piece rest others padded _ ih =>
    obtain ⟨pieces, nonempty, rfl, matched, each⟩ := ih
    obtain ⟨next, later, rfl⟩ := List.exists_cons_of_ne_nil nonempty
    refine ⟨piece :: next :: later, List.cons_ne_nil _ _, (Arguments.comma_join piece next later).symm, .cons padded matched, ?_⟩
    exact List.forall_mem_cons.mpr ⟨⟨value, padded⟩, each⟩

theorem joined_split (closed : ∀ value token, item value token → Arguments.Closed token)
    (tight : ∀ value token, item value token → Text.Tight token) {values : List α} {text : List Char}
    (joined : Joined ',' item values text) :
    ∃ tokens, Arguments.split text = .ok tokens ∧ List.Forall₂ item values tokens := by
  obtain ⟨pieces, nonempty, rfl, matched, each⟩ := joined_cut joined
  refine ⟨pieces.map Text.trim, Arguments.split_pieces pieces nonempty fun piece member => ?_, ?_⟩
  · obtain ⟨value, padded⟩ := each piece member
    exact ⟨padded_closed closed padded, padded_filled tight padded⟩
  · exact List.forall₂_map_right_iff.mpr (matched.imp fun _ _ padded => padded_trim tight padded)

theorem joined_inside (closed : ∀ value token, item value token → Arguments.Closed token) {values : List α}
    {text : List Char} (joined : Joined ',' item values text) (depth : Nat) :
    (Arguments.Place.plain (depth + 1)).walk text = some (.plain (depth + 1)) := by
  obtain ⟨pieces, nonempty, rfl, _, each⟩ := joined_cut joined
  refine Arguments.pieces_enclose depth pieces nonempty fun piece member => ?_
  obtain ⟨value, padded⟩ := each piece member
  exact padded_closed closed padded

end CommandScript.Writing
