import CommandScript.Text.Blank
import CommandScript.Text.Split
import CommandScript.Text.Word
import Mathlib.Data.List.Basic

set_option autoImplicit false

namespace CommandScript.Text

theorem all_blank_iff (s : List Char) : allBlank s = true ↔ ∀ c ∈ s, isBlank c = true :=
  List.all_eq_true

theorem trim_start_pad (before s : List Char) (blank : allBlank before = true) :
    trimStart (before ++ s) = trimStart s :=
  List.dropWhile_append_of_pos ((all_blank_iff before).mp blank)

theorem trim_end_pad (s after : List Char) (blank : allBlank after = true) : trimEnd (s ++ after) = trimEnd s := by
  have reversed : ∀ c ∈ after.reverse, isBlank c = true := fun c member =>
    (all_blank_iff after).mp blank c (List.mem_reverse.mp member)
  rw [trimEnd, List.reverse_append, List.dropWhile_append_of_pos reversed, trimEnd]

-- Nothing is trimmed from a text that neither begins nor ends with a blank.
structure Tight (s : List Char) : Prop where
  first : ∃ c rest, s = c :: rest ∧ isBlank c = false
  last : ∃ c rest, s = rest ++ [c] ∧ isBlank c = false

theorem Tight.ne_nil {s : List Char} (tight : Tight s) : s ≠ [] := by
  obtain ⟨c, rest, rfl, _⟩ := tight.first
  exact List.cons_ne_nil c rest

theorem trim_start_tight (s rest : List Char) (tight : Tight s) : trimStart (s ++ rest) = s ++ rest := by
  obtain ⟨c, tail, rfl, dark⟩ := tight.first
  exact List.dropWhile_cons_of_neg (by simp [dark])

theorem trim_end_tight (s : List Char) (tight : Tight s) : trimEnd s = s := by
  obtain ⟨c, tail, rfl, dark⟩ := tight.last
  rw [trimEnd, List.reverse_append, List.reverse_singleton, List.singleton_append,
    List.dropWhile_cons_of_neg (by simp [dark]), List.reverse_cons, List.reverse_reverse]

theorem trim_padded (before s after : List Char) (blankBefore : allBlank before = true) (blankAfter : allBlank after = true)
    (tight : Tight s) : trim (before ++ s ++ after) = s := by
  rw [trim, List.append_assoc, trim_start_pad before _ blankBefore, trim_start_tight s after tight,
    trim_end_pad s after blankAfter, trim_end_tight s tight]

theorem trim_tight (s : List Char) (tight : Tight s) : trim s = s := by
  simpa using trim_padded [] s [] rfl rfl tight

theorem tight_not_blank (before s after : List Char) (tight : Tight s) : allBlank (before ++ s ++ after) = false := by
  obtain ⟨c, tail, rfl, dark⟩ := tight.first
  simp [allBlank, dark]

theorem tight_of_all (s : List Char) (nonempty : s ≠ []) (dark : ∀ c ∈ s, isBlank c = false) : Tight s := by
  refine ⟨?_, ?_⟩
  · obtain ⟨c, rest, rfl⟩ := List.exists_cons_of_ne_nil nonempty
    exact ⟨c, rest, rfl, dark c List.mem_cons_self⟩
  · refine ⟨s.getLast nonempty, s.dropLast, (List.dropLast_append_getLast nonempty).symm, ?_⟩
    exact dark _ (List.getLast_mem nonempty)

theorem tight_framed (first middle last : List Char) (begins : Tight first) (ends : Tight last) :
    Tight (first ++ middle ++ last) := by
  obtain ⟨c, rest, starts, startDark⟩ := begins.first
  obtain ⟨d, front, stops, stopDark⟩ := ends.last
  exact ⟨⟨c, rest ++ middle ++ last, by simp [starts], startDark⟩, ⟨d, first ++ middle ++ front, by simp [stops], stopDark⟩⟩

theorem tight_single (c : Char) (dark : isBlank c = false) : Tight [c] :=
  ⟨⟨c, [], rfl, dark⟩, ⟨c, [], rfl, dark⟩⟩

theorem trim_start_first (s : List Char) (filled : trimStart s ≠ []) : ∃ c rest, trimStart s = c :: rest ∧ isBlank c = false := by
  obtain ⟨c, rest, starts⟩ := List.exists_cons_of_ne_nil filled
  have dark := List.head_dropWhile_not isBlank filled
  have first : (trimStart s).head filled = c := by simp only [starts, List.head_cons]
  exact ⟨c, rest, starts, first ▸ dark⟩

theorem trim_end_last (s : List Char) (filled : trimEnd s ≠ []) : ∃ c rest, trimEnd s = rest ++ [c] ∧ isBlank c = false := by
  have reversed : trimStart s.reverse ≠ [] := fun empty => filled (by rw [trimEnd, ← trimStart, empty, List.reverse_nil])
  obtain ⟨c, rest, starts, dark⟩ := trim_start_first s.reverse reversed
  exact ⟨c, rest.reverse, by rw [trimEnd, ← trimStart, starts, List.reverse_cons], dark⟩

theorem trim_end_prefix (s : List Char) : trimEnd s <+: s := by
  have tail := List.reverse_prefix.mpr (List.dropWhile_suffix (l := s.reverse) isBlank)
  rwa [List.reverse_reverse] at tail

theorem trim_tight_or_empty (s : List Char) : trim s = [] ∨ Tight (trim s) := by
  by_cases filled : trim s = []
  · exact .inl filled
  · have leads := trim_end_prefix (trimStart s)
    obtain ⟨c, rest, starts, dark⟩ := trim_start_first s fun empty => filled (by rw [trim, empty]; rfl)
    refine .inr ⟨?_, trim_end_last (trimStart s) filled⟩
    obtain ⟨first, others, begins⟩ := List.exists_cons_of_ne_nil filled
    rw [← trim, begins, starts, List.cons_prefix_cons] at leads
    exact ⟨first, others, begins, leads.1 ▸ dark⟩

theorem trim_again (s : List Char) : trim (trim s) = trim s := by
  rcases trim_tight_or_empty s with empty | tight
  · rw [empty]
    rfl
  · exact trim_tight (trim s) tight

theorem trim_spread (s : List Char) :
    ∃ before after, allBlank before = true ∧ allBlank after = true ∧ s = before ++ trim s ++ after := by
  refine ⟨s.takeWhile isBlank, ((trimStart s).reverse.takeWhile isBlank).reverse, List.all_takeWhile, ?_, ?_⟩
  · rw [allBlank, List.all_reverse, List.all_takeWhile]
  · have tail : trim s ++ ((trimStart s).reverse.takeWhile isBlank).reverse = trimStart s := by
      rw [trim, trimEnd, ← List.reverse_append, List.takeWhile_append_dropWhile, List.reverse_reverse]
    rw [List.append_assoc, tail, trimStart, List.takeWhile_append_dropWhile]

theorem mem_of_mem_trim (s : List Char) (c : Char) (member : c ∈ trim s) : c ∈ s := by
  obtain ⟨before, after, _, _, spread⟩ := trim_spread s
  rw [spread]
  exact List.mem_append_left after (List.mem_append_right before member)

theorem trim_nil_iff (s : List Char) : trim s = [] ↔ allBlank s = true := by
  obtain ⟨before, after, blankBefore, blankAfter, spread⟩ := trim_spread s
  constructor
  · intro empty
    rw [empty, List.append_nil] at spread
    rw [spread, allBlank, List.all_append, ← allBlank, ← allBlank, blankBefore, blankAfter, Bool.and_self]
  · intro blank
    rcases trim_tight_or_empty s with empty | tight
    · exact empty
    · have filled := tight_not_blank before (trim s) after tight
      rw [← spread, blank] at filled
      exact absurd filled.symm Bool.false_ne_true

theorem trim_blank_end (s after : List Char) (blank : allBlank after = true) : trim (s ++ after) = trim s := by
  obtain ⟨before, behind, blankBefore, blankBehind, spread⟩ := trim_spread s
  have blanks : allBlank (behind ++ after) = true := by
    rw [allBlank, List.all_append, ← allBlank, ← allBlank, blankBehind, blank, Bool.and_self]
  rcases trim_tight_or_empty s with empty | tight
  · rw [empty, trim_nil_iff, allBlank, List.all_append, ← allBlank, ← allBlank, (trim_nil_iff s).mp empty, blank, Bool.and_self]
  · have padded := trim_padded before (trim s) (behind ++ after) blankBefore blanks tight
    rwa [← List.append_assoc, ← spread] at padded

theorem same_last (before s rest : List Char) (c : Char) (nonempty : s ≠ []) (ends : before ++ s = rest ++ [c]) :
    ∃ front, s = front ++ [c] := by
  have last := List.dropLast_append_getLast nonempty
  rw [← last, ← List.append_assoc] at ends
  obtain ⟨_, same⟩ := List.append_inj' ends rfl
  exact ⟨s.dropLast, by rw [← same, last]⟩

theorem trim_of_last (s : List Char) (last : ∃ c rest, s = rest ++ [c] ∧ isBlank c = false) :
    trimStart s ≠ [] ∧ trim s = trimStart s := by
  obtain ⟨c, rest, rfl, dark⟩ := last
  have filled : trimStart (rest ++ [c]) ≠ [] := by
    intro empty
    have blank := (trim_nil_iff (rest ++ [c])).mp (by rw [trim, empty]; rfl)
    simp [(all_blank_iff _).mp blank c (by simp)] at dark
  obtain ⟨before, suffix⟩ := List.dropWhile_suffix (l := rest ++ [c]) isBlank
  obtain ⟨front, ends⟩ := same_last before _ rest c filled suffix
  exact ⟨filled, trim_end_tight _ ⟨trim_start_first _ filled, ⟨c, front, ends, dark⟩⟩⟩

-- All blanks are control characters, the space, or beyond ASCII.
theorem dark_of_code (c : Char) (low : 33 ≤ c.toNat) (high : c.toNat ≤ 126) : isBlank c = false := by
  rw [Bool.eq_false_iff]
  intro blank
  simp only [isBlank, Bool.or_eq_true, Bool.and_eq_true, decide_eq_true_eq, beq_iff_eq] at blank
  omega

theorem word_iff (c : Char) : isWordChar c = true ↔
    (65 ≤ c.toNat ∧ c.toNat ≤ 90) ∨ (97 ≤ c.toNat ∧ c.toNat ≤ 122) ∨ (48 ≤ c.toNat ∧ c.toNat ≤ 57) ∨ c = '_' := by
  change (((c.val ≥ 65 ∧ c.val ≤ 90 : Bool) || c.val ≥ 97 && c.val ≤ 122) || c.val ≥ 48 && c.val ≤ 57 || c == '_') = true ↔ _
  simp only [Bool.or_eq_true, Bool.and_eq_true, decide_eq_true_eq, beq_iff_eq, UInt32.le_iff_toNat_le, ge_iff_le, or_assoc]
  rfl

theorem word_dark (c : Char) (word : isWordChar c = true) : isBlank c = false := by
  rcases (word_iff c).mp word with upper | lower | digit | rfl
  · exact dark_of_code c (by omega) (by omega)
  · exact dark_of_code c (by omega) (by omega)
  · exact dark_of_code c (by omega) (by omega)
  · decide

theorem blank_not_word (c : Char) (blank : isBlank c = true) : isWordChar c = false := by
  rw [Bool.eq_false_iff]
  intro word
  simp [word_dark c word] at blank

theorem identifier_iff (s : List Char) : isIdentifier s = true ↔ s ≠ [] ∧ ∀ c ∈ s, isWordChar c = true := by
  simp [isIdentifier]

theorem identifier_tight (s : List Char) (identifier : isIdentifier s = true) : Tight s := by
  obtain ⟨nonempty, word⟩ := (identifier_iff s).mp identifier
  exact tight_of_all s nonempty fun c member => word_dark c (word c member)

theorem cut_at_append (mark : Char) (before after : List Char) (absent : mark ∉ before) :
    cutAt mark (before ++ mark :: after) = some (before, after) := by
  induction before with
  | nil => simp [cutAt]
  | cons c rest ih =>
    obtain ⟨different, later⟩ := List.ne_and_not_mem_of_not_mem_cons absent
    rw [List.cons_append, cutAt, if_neg (Ne.symm different), ih later, Option.map_some]

theorem cut_at_none (mark : Char) (s : List Char) (absent : mark ∉ s) : cutAt mark s = none := by
  induction s with
  | nil => rfl
  | cons c rest ih =>
    obtain ⟨different, later⟩ := List.ne_and_not_mem_of_not_mem_cons absent
    rw [cutAt, if_neg (Ne.symm different), ih later, Option.map_none]

theorem without_last_append (final : Char) (s : List Char) : withoutLast final (s ++ [final]) = some s := by
  simp [withoutLast]

theorem cut_at_some (mark : Char) (s before after : List Char) (cut : cutAt mark s = some (before, after)) :
    s = before ++ mark :: after := by
  induction s generalizing before with
  | nil => simp [cutAt] at cut
  | cons c rest ih =>
    rw [cutAt] at cut
    split_ifs at cut with here
    · obtain ⟨rfl, rfl⟩ := Prod.mk.inj (Option.some.inj cut)
      rw [here, List.nil_append]
    · obtain ⟨⟨front, back⟩, later, same⟩ := Option.map_eq_some_iff.mp cut
      obtain ⟨rfl, rfl⟩ := Prod.mk.inj same
      rw [List.cons_append, ← ih front later]

theorem without_last_some (final : Char) (s front : List Char) (cut : withoutLast final s = some front) :
    s = front ++ [final] := by
  rw [withoutLast] at cut
  split_ifs at cut with ends
  obtain rfl := Option.some.inj cut
  exact (List.dropLast_append_getLast? final ends).symm

theorem pieces_ne_nil {α : Type} [DecidableEq α] (separator : α) (s : List α) : pieces separator s ≠ [] := by
  cases s with
  | nil => exact List.cons_ne_nil [] []
  | cons c rest =>
    rw [pieces]
    split
    · exact List.cons_ne_nil [] _
    · split <;> exact List.cons_ne_nil _ _

theorem pieces_single (separator : Char) (s : List Char) (absent : separator ∉ s) : pieces separator s = [s] := by
  induction s with
  | nil => rfl
  | cons c rest ih =>
    obtain ⟨different, later⟩ := List.ne_and_not_mem_of_not_mem_cons absent
    rw [pieces, if_neg (Ne.symm different), ih later]

-- The pieces of two texts with a separator between them are the pieces of both.
theorem pieces_join (separator : Char) (first second : List Char) :
    pieces separator (first ++ separator :: second) = pieces separator first ++ pieces separator second := by
  induction first with
  | nil => exact if_pos rfl
  | cons c rest ih =>
    rw [List.cons_append, pieces, pieces, ih]
    split
    · rw [List.cons_append]
    · obtain ⟨piece, others, cut⟩ := List.exists_cons_of_ne_nil (pieces_ne_nil separator rest)
      rw [cut]
      rfl

theorem pieces_append (separator : Char) (s rest : List Char) (absent : separator ∉ s) :
    pieces separator (s ++ separator :: rest) = s :: pieces separator rest := by
  rw [pieces_join, pieces_single separator s absent, List.singleton_append]

-- Without a separator in it, a text is put in front of the first piece.
theorem pieces_prepend {α : Type} [DecidableEq α] (separator : α) (front s piece : List α) (others : List (List α))
    (absent : separator ∉ front) (cut : pieces separator s = piece :: others) :
    pieces separator (front ++ s) = (front ++ piece) :: others := by
  induction front with
  | nil => exact cut
  | cons c rest ih =>
    obtain ⟨different, later⟩ := List.ne_and_not_mem_of_not_mem_cons absent
    rw [List.cons_append, pieces, if_neg (Ne.symm different), ih later]
    rfl

theorem pieces_begin (separator : Char) (front s : List Char) (absent : separator ∉ front) :
    ∃ piece ∈ pieces separator (front ++ s), front <+: piece := by
  obtain ⟨piece, others, cut⟩ := List.exists_cons_of_ne_nil (pieces_ne_nil separator s)
  rw [pieces_prepend separator front s piece others absent cut]
  exact ⟨front ++ piece, List.mem_cons_self, List.prefix_append _ _⟩

theorem length_pieces (separator : Char) (s : List Char) : (pieces separator s).length = s.count separator + 1 := by
  induction s with
  | nil => rfl
  | cons c rest ih =>
    rw [pieces, List.count_cons]
    obtain ⟨piece, others, cut⟩ := List.exists_cons_of_ne_nil (pieces_ne_nil separator rest)
    by_cases same : c = separator
    · rw [if_pos same, if_pos (beq_iff_eq.mpr same), List.length_cons, ih]
    · rw [if_neg same, if_neg fun equal => same (beq_iff_eq.mp equal), ← ih, cut]
      rfl

theorem separator_not_mem (separator : Char) (s piece : List Char) (listed : piece ∈ pieces separator s) : separator ∉ piece := by
  induction s generalizing piece with
  | nil =>
    obtain rfl := List.mem_singleton.mp listed
    exact List.not_mem_nil
  | cons c rest ih =>
    obtain ⟨first, others, cut⟩ := List.exists_cons_of_ne_nil (pieces_ne_nil separator rest)
    rw [pieces] at listed
    split at listed
    · rcases List.mem_cons.mp listed with rfl | later
      · exact List.not_mem_nil
      · exact ih piece later
    · rename_i different
      rw [cut] at listed
      rcases List.mem_cons.mp listed with rfl | later
      · rw [List.mem_cons, not_or]
        exact ⟨Ne.symm different, ih first (cut ▸ List.mem_cons_self)⟩
      · exact ih piece (cut ▸ List.mem_cons_of_mem first later)

theorem lines_of_pieces_prefix (carriageReturn : Char) (pieces : List (List Char)) (line : List Char)
    (listed : line ∈ linesOfPieces carriageReturn pieces) : ∃ piece ∈ pieces, line <+: piece := by
  induction pieces with
  | nil => cases listed
  | cons piece others ih =>
    cases others with
    | nil =>
      rw [linesOfPieces] at listed
      split at listed
      · cases listed
      · obtain rfl := List.mem_singleton.mp listed
        exact ⟨line, List.mem_cons_self, List.prefix_rfl⟩
    | cons next more =>
      rw [linesOfPieces] at listed
      · rcases List.mem_cons.mp listed with rfl | later
        · refine ⟨piece, List.mem_cons_self, ?_⟩
          rw [dropReturn]
          split
          · exact List.dropLast_prefix piece
          · exact List.prefix_rfl
        · obtain ⟨whole, member, leads⟩ := ih later
          exact ⟨whole, List.mem_cons_of_mem piece member, leads⟩
      · exact List.cons_ne_nil next _

theorem feed_not_mem_line (s line : List Char) (listed : line ∈ lines s) : '\n' ∉ line := by
  obtain ⟨piece, member, leads⟩ := lines_of_pieces_prefix '\r' _ line listed
  exact fun within => separator_not_mem '\n' s piece member (leads.subset within)

theorem lines_single (s : List Char) (nonempty : s ≠ []) (absent : '\n' ∉ s) : lines s = [s] := by
  rw [lines, linesWith, pieces_single '\n' s absent, linesOfPieces, if_neg (by simpa using nonempty)]

theorem pieces_of_ended (lines : List (List Char)) (single : ∀ line ∈ lines, '\n' ∉ line) :
    pieces '\n' (lines.flatMap (· ++ ['\n'])) = lines ++ [[]] := by
  induction lines with
  | nil => rfl
  | cons line rest ih =>
    obtain ⟨own, others⟩ := List.forall_mem_cons.mp single
    rw [List.flatMap_cons, List.append_assoc, List.singleton_append, pieces_append '\n' line _ own, ih others, List.cons_append]

theorem lines_of_ended {α : Type} [DecidableEq α] (carriageReturn : α) (pieces : List (List α)) :
    linesOfPieces carriageReturn (pieces ++ [[]]) = pieces.map (dropReturn carriageReturn) := by
  induction pieces with
  | nil => rfl
  | cons piece rest ih =>
    rw [List.cons_append, linesOfPieces, ih, List.map_cons]
    exact List.append_ne_nil_of_right_ne_nil rest (List.cons_ne_nil [] [])

-- Lines that end with a line feed each are read back, but for a carriage return at their end.
theorem lines_ended (s : List Char) : lines ((lines s).flatMap (· ++ ['\n'])) = (lines s).map (dropReturn '\r') := by
  rw [lines, linesWith, pieces_of_ended _ (feed_not_mem_line s), lines_of_ended]

theorem not_keyword_of_first (word : String) (c : Char) (rest : List Char) (other : word.toList.head? ≠ some c.toLower) :
    isKeyword word (c :: rest) = false := by
  rw [isKeyword, Bool.eq_false_iff]
  intro same
  have spelled : c.toLower :: rest.map Char.toLower = word.toList := by simpa using same
  exact other (by rw [← spelled, List.head?_cons])

theorem lower_code (c : Char) (lower : c.isLower = true) : 97 ≤ c.toNat ∧ c.toNat ≤ 122 := by
  change (c.val ≥ 97 && c.val ≤ 122) = true at lower
  simpa [UInt32.le_iff_toNat_le] using lower

theorem to_lower_code (c : Char) :
    c.toLower = c ∨ (65 ≤ c.toNat ∧ c.toNat ≤ 90 ∧ c.toLower.toNat = c.toNat + 32) := by
  unfold Char.toLower
  split
  · rename_i upper
    have low : 65 ≤ c.toNat := upper.1
    have high : c.toNat ≤ 90 := upper.2
    refine .inr ⟨low, high, ?_⟩
    change (c.val + 32).toNat = c.toNat + 32
    rw [UInt32.toNat_add, Nat.mod_eq_of_lt]
    · rfl
    · exact Nat.lt_of_le_of_lt (Nat.add_le_add_right high _) (by decide)
  · exact .inl rfl

theorem keyword_identifier (word : String) (s : List Char) (keyword : isKeyword word s = true) (nonempty : word.toList ≠ [])
    (letters : word.toList.all Char.isLower = true) : isIdentifier s = true := by
  have spelled : s.map Char.toLower = word.toList := by simpa [isKeyword] using keyword
  refine (identifier_iff s).mpr ⟨?_, fun c member => (word_iff c).mpr ?_⟩
  · rintro rfl
    exact nonempty spelled.symm
  · have lower := lower_code c.toLower (List.all_eq_true.mp letters _ (spelled ▸ List.mem_map_of_mem member))
    rcases to_lower_code c with same | upper
    · rw [same] at lower
      exact .inr (.inl lower)
    · exact .inl ⟨upper.1, upper.2.1⟩

theorem keyword_unique (word other : String) (s : List Char) (keyword : isKeyword word s = true)
    (different : other.toList ≠ word.toList) : isKeyword other s = false := by
  have spelled : s.map Char.toLower = word.toList := by simpa [isKeyword] using keyword
  rw [isKeyword, spelled, beq_eq_false_iff_ne]
  exact different.symm

end CommandScript.Text
