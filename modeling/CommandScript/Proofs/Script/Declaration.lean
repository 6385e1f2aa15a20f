import CommandScript.Proofs.Script.Pattern
import CommandScript.Proofs.Text
import CommandScript.Script.Field

set_option autoImplicit false

namespace CommandScript

namespace Text

-- No range of word characters holds a blank; between them and around them is room for all blanks.
theorem word_ranges_dark : ∀ range ∈ wordRanges, (0xA0 < range.1 ∧ range.2 < 0x1680) ∨ (0x1680 < range.1 ∧ range.2 < 0x2000) ∨
    (0x200A < range.1 ∧ range.2 < 0x2028) ∨ (0x202F < range.1 ∧ range.2 < 0x205F) ∨ (0x205F < range.1 ∧ range.2 < 0x3000) ∨
    0x3000 < range.1 := by
  decide +kernel

theorem unicode_word_dark (c : Char) (word : isUnicodeWordChar c = true) : isBlank c = false := by
  rw [isUnicodeWordChar] at word
  split at word
  · exact word_dark c word
  · rw [Bool.eq_false_iff]
    intro blank
    obtain ⟨range, listed, inside⟩ := List.any_eq_true.mp word
    have apart := word_ranges_dark range listed
    simp only [isBlank, Bool.or_eq_true, Bool.and_eq_true, decide_eq_true_eq, beq_iff_eq] at blank inside
    omega

theorem blank_no_unicode_word (c : Char) (blank : isBlank c = true) : isUnicodeWordChar c = false := by
  rw [Bool.eq_false_iff]
  intro word
  simp [unicode_word_dark c word] at blank

end Text

namespace Field

-- How a declaration may be written. The value takes everything to the end, blanks and signs of equality included.
inductive Declares : List Char → List Char → List Char → List Char → Prop where
  | intro (type gap name before after value : List Char) (typed : type ≠ [])
      (typeWord : ∀ c ∈ type, Text.isUnicodeWordChar c = true) (apart : gap ≠ []) (gapBlank : Text.allBlank gap = true)
      (named : name ≠ []) (nameWord : ∀ c ∈ name, Text.isUnicodeWordChar c = true) (beforeBlank : Text.allBlank before = true)
      (afterBlank : Text.allBlank after = true) (filled : value ≠ []) :
      Declares (type ++ (gap ++ (name ++ (before ++ '=' :: (after ++ value))))) type name value

-- A run of word characters ends where a blank or a sign of equality stands.
theorem word_run (run rest : List Char) (words : ∀ c ∈ run, Text.isUnicodeWordChar c = true)
    (ends : ∃ c tail, rest = c :: tail ∧ Text.isUnicodeWordChar c = false) :
    (run ++ rest).takeWhile Text.isUnicodeWordChar = run ∧ (run ++ rest).dropWhile Text.isUnicodeWordChar = rest := by
  obtain ⟨c, tail, rfl, other⟩ := ends
  have stop : ¬ Text.isUnicodeWordChar c = true := by simp [other]
  rw [List.takeWhile_append_of_pos words, List.dropWhile_append_of_pos words, List.takeWhile_cons_of_neg stop,
    List.dropWhile_cons_of_neg stop, List.append_nil]
  exact ⟨rfl, rfl⟩

theorem blanks_end_word (blanks rest : List Char) (nonempty : blanks ≠ []) (blank : Text.allBlank blanks = true) :
    ∃ c tail, blanks ++ rest = c :: tail ∧ Text.isUnicodeWordChar c = false := by
  obtain ⟨c, more, rfl⟩ := List.exists_cons_of_ne_nil nonempty
  exact ⟨c, more ++ rest, rfl, Text.blank_no_unicode_word c ((Text.all_blank_iff _).mp blank c List.mem_cons_self)⟩

theorem equals_ends_word (blanks rest : List Char) (blank : Text.allBlank blanks = true) :
    ∃ c tail, blanks ++ '=' :: rest = c :: tail ∧ Text.isUnicodeWordChar c = false := by
  cases blanks with
  | nil => exact ⟨'=', rest, rfl, by decide⟩
  | cons c more => exact blanks_end_word (c :: more) ('=' :: rest) (List.cons_ne_nil c more) blank

theorem of_chars_declared (text type name value : List Char) (declares : Declares text type name value)
    (filled : Text.trimStart value ≠ []) : Declaration.ofChars? text = some ⟨type, name, Text.trimStart value⟩ := by
  obtain ⟨_, gap, _, before, after, _, typed, typeWord, apart, gapBlank, named, nameWord, beforeBlank, afterBlank, _⟩ := declares
  obtain ⟨typeTaken, typeLeft⟩ :=
    word_run type _ typeWord (blanks_end_word gap (name ++ (before ++ '=' :: (after ++ value))) apart gapBlank)
  obtain ⟨nameTaken, nameLeft⟩ := word_run name _ nameWord (equals_ends_word before (after ++ value) beforeBlank)
  have tight : Text.Tight name := Text.tight_of_all name named fun c member => Text.unicode_word_dark c (nameWord c member)
  have nameFirst := Text.trim_start_tight name (before ++ '=' :: (after ++ value)) tight
  have equals : Text.trimStart (before ++ '=' :: (after ++ value)) = '=' :: (after ++ value) := by
    rw [Text.trim_start_pad before _ beforeBlank]
    exact List.dropWhile_cons_of_neg (by decide)
  rw [Declaration.ofChars?, typeTaken, typeLeft, Text.trim_start_pad gap _ gapBlank, nameFirst, nameTaken, nameLeft, equals]
  simp [Text.trim_start_pad after value afterBlank, typed, named, filled, apart]

theorem of_chars_declares (text : List Char) (d : Declaration) (read : Declaration.ofChars? text = some d) :
    Declares text d.type d.name d.value := by
  unfold Declaration.ofChars? at read
  simp only at read
  split at read
  · rename_i rest equals
    split_ifs at read with missing
    obtain rfl := Option.some.inj read
    simp only [not_or, List.isEmpty_iff] at missing
    obtain ⟨typed, apart, named, filled⟩ := missing
    generalize typeEnds : text.dropWhile Text.isUnicodeWordChar = afterType at equals apart named ⊢
    generalize nameStarts : Text.trimStart afterType = fromName at equals apart named ⊢
    generalize nameEnds : fromName.dropWhile Text.isUnicodeWordChar = afterName at equals
    have words (s : List Char) : ∀ c ∈ s.takeWhile Text.isUnicodeWordChar, Text.isUnicodeWordChar c = true :=
      List.all_eq_true.mp List.all_takeWhile
    have gap : afterType.takeWhile Text.isBlank ++ fromName = afterType := by
      rw [← nameStarts, Text.trimStart, List.takeWhile_append_dropWhile]
    have spelled : text.takeWhile Text.isUnicodeWordChar ++ (afterType.takeWhile Text.isBlank ++
        (fromName.takeWhile Text.isUnicodeWordChar ++ (afterName.takeWhile Text.isBlank ++
          '=' :: (rest.takeWhile Text.isBlank ++ Text.trimStart rest)))) = text := by
      rw [Text.trimStart, List.takeWhile_append_dropWhile, ← equals, Text.trimStart, List.takeWhile_append_dropWhile, ← nameEnds,
        List.takeWhile_append_dropWhile, gap, ← typeEnds, List.takeWhile_append_dropWhile]
    have declares := Declares.intro _ (afterType.takeWhile Text.isBlank) _ (afterName.takeWhile Text.isBlank)
      (rest.takeWhile Text.isBlank) _ typed (words text) (fun none => apart (by rw [← gap, none, List.nil_append]))
      List.all_takeWhile named (words fromName) List.all_takeWhile List.all_takeWhile filled
    rwa [spelled] at declares
  · cases read

section Tight

variable {text type name value : List Char} (declares : Declares text type name value) (tight : Text.Tight text)

include declares tight

theorem value_filled : Text.trimStart value ≠ [] ∧ Text.trim value = Text.trimStart value := by
  obtain ⟨_, gap, _, before, after, _, _, _, _, _, _, _, _, _, filled⟩ := declares
  obtain ⟨c, rest, ends, dark⟩ := tight.last
  obtain ⟨front, last⟩ := Text.same_last (type ++ (gap ++ (name ++ (before ++ '=' :: after)))) value rest c filled (by simpa using ends)
  exact Text.trim_of_last value ⟨c, front, last, dark⟩

theorem of_chars_tight : Declaration.ofChars? text = some ⟨type, name, Text.trim value⟩ := by
  obtain ⟨filled, trimmed⟩ := value_filled declares tight
  rw [trimmed]
  exact of_chars_declared text type name value declares filled

-- Only the blanks in front of the value can be counted to it or not.
theorem declares_unique (type' name' value' : List Char) (other : Declares text type' name' value') :
    type = type' ∧ name = name' ∧ Text.trimStart value = Text.trimStart value' := by
  have first := of_chars_declared text type name value declares (value_filled declares tight).1
  have second := of_chars_declared text type' name' value' other (value_filled other tight).1
  obtain ⟨types, names, values⟩ := Declaration.mk.inj (Option.some.inj (first.symm.trans second))
  exact ⟨types, names, values⟩

end Tight

-- The pattern of a declaration: type, blanks, name, blanks, a sign of equality, blanks, and the rest of the line.
def pattern : List Text.Item :=
  [.run Text.isUnicodeWordChar 1, .run Text.isBlank 1, .run Text.isUnicodeWordChar 1, .run Text.isBlank 0, .exactly '=',
    .run Text.isBlank 0, .run (fun c => c != '\n') 1]

theorem pattern_declares (text : List Char) (parts : List (List Char)) (found : Text.firstMatch pattern text = some parts) :
    ∃ type gap name before after value, parts = [type, gap, name, before, ['='], after, value] ∧
      Declares text type name value := by
  obtain ⟨fits, rfl⟩ := Text.first_match_sound pattern text parts found
  obtain ⟨type, _, ⟨typed, typeWord⟩, afterType, rfl⟩ := List.forall₂_cons_left_iff.mp fits
  obtain ⟨gap, _, ⟨apart, gapBlank⟩, fromName, rfl⟩ := List.forall₂_cons_left_iff.mp afterType
  obtain ⟨name, _, ⟨named, nameWord⟩, afterName, rfl⟩ := List.forall₂_cons_left_iff.mp fromName
  obtain ⟨before, _, ⟨_, beforeBlank⟩, fromEquals, rfl⟩ := List.forall₂_cons_left_iff.mp afterName
  obtain ⟨_, _, rfl, afterEquals, rfl⟩ := List.forall₂_cons_left_iff.mp fromEquals
  obtain ⟨after, _, ⟨_, afterBlank⟩, fromValue, rfl⟩ := List.forall₂_cons_left_iff.mp afterEquals
  obtain ⟨value, _, ⟨filled, _⟩, ends, rfl⟩ := List.forall₂_cons_left_iff.mp fromValue
  obtain rfl := List.forall₂_nil_left_iff.mp ends
  refine ⟨type, gap, name, before, after, value, rfl, ?_⟩
  have declares := Declares.intro type gap name before after value (List.length_pos_iff.mp typed) typeWord (List.length_pos_iff.mp apart)
    ((Text.all_blank_iff gap).mpr gapBlank) (List.length_pos_iff.mp named) nameWord ((Text.all_blank_iff before).mpr beforeBlank)
    ((Text.all_blank_iff after).mpr afterBlank) (List.length_pos_iff.mp filled)
  simpa using declares

theorem declares_matched (text type name value : List Char) (declares : Declares text type name value) (single : '\n' ∉ text) :
    Text.firstMatch pattern text ≠ none := by
  obtain ⟨_, gap, _, before, after, _, typed, typeWord, apart, gapBlank, named, nameWord, beforeBlank, afterBlank, filled⟩ := declares
  have line : ∀ c ∈ value, (c != '\n') = true := by
    intro c member
    rw [bne_iff_ne]
    rintro rfl
    simp [member] at single
  have fits : List.Forall₂ Text.Item.Fits pattern [type, gap, name, before, ['='], after, value] :=
    .cons ⟨List.length_pos_iff.mpr typed, typeWord⟩ <|
      .cons ⟨List.length_pos_iff.mpr apart, (Text.all_blank_iff gap).mp gapBlank⟩ <|
      .cons ⟨List.length_pos_iff.mpr named, nameWord⟩ <| .cons ⟨Nat.zero_le _, (Text.all_blank_iff before).mp beforeBlank⟩ <|
      .cons rfl <| .cons ⟨Nat.zero_le _, (Text.all_blank_iff after).mp afterBlank⟩ <|
      .cons ⟨List.length_pos_iff.mpr filled, line⟩ .nil
  have matched := Text.first_match_complete pattern _ fits
  simpa using matched

end Field

end CommandScript
