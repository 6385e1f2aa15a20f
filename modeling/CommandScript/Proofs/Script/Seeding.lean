import CommandScript.Proofs.Closed
import CommandScript.Proofs.Command.Reading
import CommandScript.Proofs.Script.Lines
import CommandScript.Proofs.Script.Markers
import CommandScript.Proofs.Session.Scripts

set_option autoImplicit false

namespace CommandScript

namespace Text

-- The word characters of ASCII are those of identifiers; the others belong to no identifier.
theorem ascii_word_iff (c : Char) (word : isUnicodeWordChar c = true) : isWordChar c = true ↔ c.toNat < 128 := by
  constructor
  · intro own
    rcases (word_iff c).mp own with upper | lower | digit | rfl
    · omega
    · omega
    · omega
    · decide
  · intro low
    rwa [isUnicodeWordChar, if_pos low] at word

theorem identifier_of_words (name : List Char) (nonempty : name ≠ []) (words : ∀ c ∈ name, isUnicodeWordChar c = true) :
    isIdentifier name = true ↔ ∀ c ∈ name, c.toNat < 128 := by
  rw [identifier_iff]
  constructor
  · rintro ⟨_, own⟩ c member
    exact (ascii_word_iff c (words c member)).mp (own c member)
  · intro low
    exact ⟨nonempty, fun c member => (ascii_word_iff c (words c member)).mpr (low c member)⟩

end Text

theorem Field.Declares.name_word {text type name value : List Char} (declares : Declares text type name value) :
    name ≠ [] ∧ ∀ c ∈ name, Text.isUnicodeWordChar c = true := by
  obtain ⟨_, _, _, _, _, _, _, _, _, _, named, nameWord⟩ := declares
  exact ⟨named, nameWord⟩

theorem Script.declared_word (name text : String) (marker : FieldMarker) (declared : marker ∈ (ofText name text).fields) :
    marker.name.toList ≠ [] ∧ ∀ c ∈ marker.name.toList, Text.isUnicodeWordChar c = true := by
  obtain ⟨line, read⟩ := field_line name text marker declared
  obtain ⟨_, d, written, spelled, _⟩ := Line.field_declared line marker.name marker.value read
  rw [spelled, String.toList_ofList]
  exact (Field.of_chars_declares _ d written).name_word

-- Wherever a command names the variable among its arguments, the operation is given the value.
def Context.Hands (context : Context) (name : String) (value : Value) : Prop :=
  ∀ world line command operation (place : Nat), Command.parse line = .ok command →
    Catalog.standard.route command.path = .reached operation → command.arguments[place]? = some (Value.reference name) →
    ∃ arguments, State.call? ⟨context, world⟩ line = some (operation, arguments) ∧ arguments[place]? = some value

theorem Context.hands_bound (context : Context) (name : String) (value : Value) (bound : context.get? name = some value) :
    context.Hands name value := by
  intro world line command operation place parsed reached named
  refine ⟨_, State.call_of_reached ⟨context, world⟩ line command operation parsed reached, ?_⟩
  rw [resolve_all_map, List.getElem?_map, named, Option.map_some, resolve, bound, Option.getD_some]

namespace Session

theorem last_marked_some (markers : List FieldMarker) (marker : FieldMarker) (listed : marker ∈ markers) :
    ∃ value, lastMarked markers marker.name = some value := by
  rw [← Option.ne_none_iff_exists', lastMarked, ne_eq, List.findSome?_eq_none_iff]
  intro none
  simpa using none marker (List.mem_reverse.mpr listed)

end Session

namespace Script

-- The variable of a marker is one that commands can use exactly if its name is ASCII. A name of other word characters
-- is declared and bound all the same, and no text refers to it.
theorem ascii_names_reach_commands (name text : String) (marker : FieldMarker) (declared : marker ∈ (ofText name text).fields) :
    (marker.name.toList ≠ [] ∧ ∀ c ∈ marker.name.toList, Text.isUnicodeWordChar c = true) ∧
    (∀ id bundle session, Session.load id bundle = .ok session → (name, text) ∈ bundle →
      ∃ value, Session.lastMarked (session.scripts.flatMap fields) marker.name = some value ∧
        session.context.get? marker.name = some value ∧ session.context.Hands marker.name value) ∧
    ((∀ c ∈ marker.name.toList, c.toNat < 128) → Literal.read ('$' :: marker.name.toList) = .ok (.reference marker.name)) ∧
    ((∃ c ∈ marker.name.toList, 128 ≤ c.toNat) →
      Literal.read ('$' :: marker.name.toList) = .error (.unreadableValue ("$" ++ marker.name)) ∧
        ∀ token, Literal.read token ≠ .ok (.reference marker.name)) := by
  obtain ⟨nonempty, words⟩ := declared_word name text marker declared
  have ascii := Text.identifier_of_words marker.name.toList nonempty words
  have tight : Text.Tight ('$' :: marker.name.toList) :=
    Text.tight_of_all _ (List.cons_ne_nil _ _)
      (List.forall_mem_cons.mpr ⟨by decide, fun c member => Text.unicode_word_dark c (words c member)⟩)
  refine ⟨⟨nonempty, words⟩, fun id bundle session loaded listed => ?seeded, fun low => ?read, fun high => ?unread⟩
  case seeded =>
    have script : ofText name text ∈ session.scripts := by
      rw [Session.load_made id bundle session loaded]
      exact List.mem_map.mpr ⟨(name, text), listed, rfl⟩
    obtain ⟨value, last⟩ := Session.last_marked_some _ marker (List.mem_flatMap.mpr ⟨_, script, declared⟩)
    have bound := (Session.load_get id bundle session loaded marker.name).trans last
    exact ⟨value, last, bound, session.context.hands_bound marker.name value bound⟩
  case read => exact (Literal.read_reference_iff _ _).mpr ⟨Text.trim_tight _ tight, ascii.mpr low⟩
  case unread =>
    obtain ⟨c, member, beyond⟩ := high
    have strange : ¬ Text.isIdentifier marker.name.toList = true := fun identifier =>
      Nat.not_lt.mpr beyond (ascii.mp identifier c member)
    have noOpening : '(' ∉ marker.name.toList := fun member => absurd (words '(' member) (by decide)
    refine ⟨?_, fun token reads => strange ((Literal.read_reference_iff token _).mp reads).2⟩
    rw [Literal.read_dollar_none _ tight noOpening (Bool.eq_false_iff.mpr strange)]
    simp

def accents : String :=
  "// @field:int é = 5\n// @field:int e = 7\nSystem.Console.WriteLine($e)"

theorem accents_declared : (ofText "main" accents).fields = [⟨1, "é", .int 5⟩, ⟨2, "e", .int 7⟩] :=
  rfl

theorem accent_reaches_no_command :
    (⟨1, "é", .int 5⟩ : FieldMarker) ∈ (ofText "main" accents).fields ∧
      (∀ token, Literal.read token ≠ .ok (.reference "é")) ∧
      (⟨2, "e", .int 7⟩ : FieldMarker) ∈ (ofText "main" accents).fields ∧
      Literal.read "$e".toList = .ok (.reference "e") ∧
      ∃ session, Session.load "cli" [("main", accents)] = .ok session ∧ session.context.get? "é" = some (.int 5) ∧
        session.context.Hands "e" (.int 7) := by
  have accented : (⟨1, "é", .int 5⟩ : FieldMarker) ∈ (ofText "main" accents).fields :=
    accents_declared ▸ List.mem_cons_self
  have plain : (⟨2, "e", .int 7⟩ : FieldMarker) ∈ (ofText "main" accents).fields :=
    accents_declared ▸ List.mem_cons_of_mem _ List.mem_cons_self
  obtain ⟨_, _, _, unread⟩ := ascii_names_reach_commands "main" accents _ accented
  obtain ⟨_, seeded, read, _⟩ := ascii_names_reach_commands "main" accents _ plain
  obtain ⟨value, last, _, hands⟩ := seeded "cli" [("main", accents)] _ rfl List.mem_cons_self
  obtain rfl : .int 7 = value := Option.some.inj last
  have beyond : ∃ c ∈ "é".toList, 128 ≤ c.toNat := ⟨'é', by decide, by decide⟩
  exact ⟨accented, (unread beyond).2, plain, read (List.forall_mem_singleton.mpr (by decide)), _, rfl, rfl, hands⟩

theorem accent_is_not_read :
    ¬ ∀ (name text : String) (marker : FieldMarker), marker ∈ (ofText name text).fields →
      Literal.read ('$' :: marker.name.toList) = .ok (.reference marker.name) := by
  intro claimed
  have read := claimed "main" accents ⟨1, "é", .int 5⟩ (accents_declared ▸ List.mem_cons_self)
  have refused : Literal.read ('$' :: "é".toList) = .error (.unreadableValue "$é") := rfl
  rw [refused] at read
  cases read

end Script

end CommandScript
