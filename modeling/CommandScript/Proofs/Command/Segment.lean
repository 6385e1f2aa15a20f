import CommandScript.Proofs.Command.Scan
import CommandScript.Proofs.Work

set_option autoImplicit false

namespace CommandScript.Arguments

-- What is left of a text when its quoted parts are taken out, the quotes included.
inductive Outside : List Char → List Char → Prop where
  | nil : Outside [] []
  | plain (c : Char) (rest bare : List Char) (noQuote : isQuote c = false) (outside : Outside rest bare) :
      Outside (c :: rest) (c :: bare)
  | quoted (quote : Char) (content rest bare : List Char) (quotes : isQuote quote = true) (inside : Inside quote content)
      (outside : Outside rest bare) : Outside (quote :: (content ++ quote :: rest)) bare

-- How many more parentheses are opened than closed.
def level (bare : List Char) : Int :=
  bare.count '(' - bare.count ')'

-- Text without quoted parts behind so many open parentheses: their number never falls below zero, is
-- zero at the end, and is not zero at a comma.
structure Balanced (opened : Int) (bare : List Char) : Prop where
  above : ∀ before, before <+: bare → 0 ≤ opened + level before
  ends : opened + level bare = 0
  commas : ∀ before after, bare = before ++ ',' :: after → opened + level before ≠ 0

-- A part of an argument list that no comma divides: its quoted parts are complete, and what is left of
-- it without them is balanced.
def Segment (s : List Char) : Prop :=
  ∃ bare, Outside s bare ∧ Balanced 0 bare

theorem balanced_nil (opened : Int) : Balanced opened [] ↔ opened = 0 := by
  constructor
  · intro balanced
    simpa [level] using balanced.ends
  · rintro rfl
    refine ⟨fun before leads => ?_, rfl, fun before after split => ?_⟩
    · simp [List.prefix_nil.mp leads, level]
    · simp at split

theorem level_cons (c : Char) (rest : List Char) : level (c :: rest) = level [c] + level rest := by
  simp only [level, List.count_cons, List.count_nil, Nat.zero_add]
  omega

theorem balanced_cons (opened : Int) (c : Char) (rest : List Char) :
    Balanced opened (c :: rest) ↔ 0 ≤ opened ∧ (c = ',' → opened ≠ 0) ∧ Balanced (opened + level [c]) rest := by
  have grows (before : List Char) : opened + level (c :: before) = opened + level [c] + level before := by
    rw [level_cons, Int.add_assoc]
  constructor
  · intro balanced
    refine ⟨?_, ?_, ?_, ?_, ?_⟩
    · simpa [level] using balanced.above [] List.nil_prefix
    · rintro rfl
      simpa [level] using balanced.commas [] rest rfl
    · intro before leads
      rw [← grows]
      exact balanced.above (c :: before) (List.cons_prefix_cons.mpr ⟨rfl, leads⟩)
    · rw [← grows]
      exact balanced.ends
    · intro before after split
      rw [← grows]
      exact balanced.commas (c :: before) after (by rw [split, List.cons_append])
  · rintro ⟨low, comma, balanced⟩
    refine ⟨fun before leads => ?_, ?_, fun before after split => ?_⟩
    · cases before with
      | nil => simpa [level] using low
      | cons first others =>
        obtain ⟨rfl, inner⟩ := List.cons_prefix_cons.mp leads
        rw [grows]
        exact balanced.above others inner
    · rw [grows]
      exact balanced.ends
    · cases before with
      | nil =>
        obtain ⟨rfl, _⟩ := List.cons.inj split
        simpa [level] using comma rfl
      | cons first others =>
        obtain ⟨rfl, inner⟩ := List.cons.inj split
        rw [grows]
        exact balanced.commas others after inner

-- Outside of quotes a step follows the level, and stops where the level would fall below zero.
theorem step_bare (opened : Nat) (c : Char) (noQuote : isQuote c = false) :
    (∃ next : Nat, (Place.plain opened).step c = some (.plain next) ∧ next = opened + level [c]) ∨
      ((Place.plain opened).step c = none ∧ opened + level [c] < 0) := by
  by_cases opens : c = '('
  · refine .inl ⟨opened + 1, ?_, ?_⟩
    · cases opened <;> simp [Place.step, opens, isQuote]
    · simp [opens, level]
  by_cases closes : c = ')'
  · cases opened with
    | zero => exact .inr ⟨by simp [Place.step, closes, isQuote], by simp [closes, level]⟩
    | succ outer =>
      refine .inl ⟨outer, by simp [Place.step, closes, isQuote], ?_⟩
      have falls : level [')'] = -1 := rfl
      rw [closes, falls]
      omega
  · refine .inl ⟨opened, ?_, ?_⟩
    · cases opened <;> simp [Place.step, noQuote, opens, closes]
    · simp [level, opens, closes]

theorem walk_bare_iff (bare : List Char) (noQuotes : ∀ c ∈ bare, isQuote c = false) (opened : Nat) :
    (Place.plain opened).walk bare = some (.plain 0) ↔ Balanced opened bare := by
  induction bare generalizing opened with
  | nil =>
    rw [balanced_nil, Place.walk]
    simp
  | cons c rest ih =>
    obtain ⟨noQuote, later⟩ := List.forall_mem_cons.mp noQuotes
    rw [balanced_cons, Place.walk]
    by_cases separates : Place.plain opened = .plain 0 ∧ c = ','
    · have outermost : opened = 0 := Place.plain.inj separates.1
      simp [separates, outermost]
    rw [if_neg separates]
    have comma : c = ',' → (opened : Int) ≠ 0 := by
      rintro rfl outermost
      exact separates ⟨congrArg Place.plain (Int.natCast_eq_zero.mp outermost), rfl⟩
    rcases step_bare opened c noQuote with ⟨next, step, reached⟩ | ⟨step, below⟩
    · rw [step, Option.bind_some, ih later next, reached]
      exact ⟨fun balanced => ⟨Int.natCast_nonneg opened, comma, balanced⟩, fun enclosed => enclosed.2.2⟩
    · rw [step, Option.bind_none]
      refine iff_of_false (by simp) fun enclosed => ?_
      have above := enclosed.2.2.above [] List.nil_prefix
      simp only [level, List.count_nil] at above below
      omega

theorem outside_bare (s bare : List Char) (outside : Outside s bare) : ∀ c ∈ bare, isQuote c = false := by
  induction outside with
  | nil => simp
  | plain c rest bare noQuote _ ih => exact List.forall_mem_cons.mpr ⟨noQuote, ih⟩
  | quoted _ _ _ _ _ _ _ ih => exact ih

theorem walk_outside (s bare : List Char) (outside : Outside s bare) (opened : Nat) :
    (Place.plain opened).walk s = (Place.plain opened).walk bare := by
  induction outside generalizing opened with
  | nil => rfl
  | plain c rest bare noQuote _ ih =>
    rw [Place.walk, Place.walk]
    rcases step_bare opened c noQuote with ⟨next, step, _⟩ | ⟨step, _⟩
    · rw [step, Option.bind_some, Option.bind_some, ih next]
    · rw [step, Option.bind_none, Option.bind_none]
  | quoted quote content rest bare quotes inside _ ih => rw [walk_quoted quote opened content rest quotes inside, ih opened]

-- What has to follow a place for the scan to end outside of quotes.
def Place.Completed : Place → List Char → Prop
  | .plain _, s => ∃ bare, Outside s bare
  | .quoted quote _, s => ∃ content rest bare, s = content ++ quote :: rest ∧ Inside quote content ∧ Outside rest bare
  | .escaped quote _, s =>
    ∃ c content rest bare, s = c :: (content ++ quote :: rest) ∧ Inside quote content ∧ Outside rest bare

theorem step_completed (place next : Place) (c : Char) (rest : List Char) (step : place.step c = some next)
    (completed : next.Completed rest) : place.Completed (c :: rest) := by
  cases place with
  | plain opened =>
    by_cases quotes : isQuote c = true
    · obtain rfl := Option.some.inj ((step_quote c opened quotes).symm.trans step)
      obtain ⟨content, others, bare, rfl, inside, outside⟩ := completed
      exact ⟨bare, .quoted c content others bare quotes inside outside⟩
    · have noQuote := Bool.eq_false_iff.mpr quotes
      rcases step_bare opened c noQuote with ⟨inner, moved, _⟩ | ⟨stopped, _⟩
      · obtain rfl := Option.some.inj (moved.symm.trans step)
        obtain ⟨bare, outside⟩ := completed
        exact ⟨c :: bare, .plain c rest bare noQuote outside⟩
      · simp [stopped] at step
  | quoted quote opened =>
    rw [Place.step] at step
    split_ifs at step with hides closes
    · obtain rfl := Option.some.inj step
      obtain ⟨d, content, others, bare, rfl, inside, outside⟩ := completed
      exact ⟨'\\' :: d :: content, others, bare, by simp [hides], .hidden d content inside, outside⟩
    · obtain rfl := Option.some.inj step
      obtain ⟨bare, outside⟩ := completed
      exact ⟨[], rest, bare, by simp [closes], .nil, outside⟩
    · obtain rfl := Option.some.inj step
      obtain ⟨content, others, bare, rfl, inside, outside⟩ := completed
      exact ⟨c :: content, others, bare, rfl, .plain c content hides closes inside, outside⟩
  | escaped quote opened =>
    obtain rfl := Option.some.inj step
    obtain ⟨content, others, bare, rfl, inside, outside⟩ := completed
    exact ⟨c, content, others, bare, rfl, inside, outside⟩

theorem walk_completed (place : Place) (s : List Char) (opened : Nat) (walk : place.walk s = some (.plain opened)) :
    place.Completed s := by
  induction s generalizing place with
  | nil =>
    obtain rfl := Option.some.inj walk
    exact ⟨[], .nil⟩
  | cons c rest ih =>
    rw [Place.walk] at walk
    split_ifs at walk
    obtain ⟨next, step, walk⟩ := Option.bind_eq_some_iff.mp walk
    exact step_completed place next c rest step (ih next walk)

theorem segment_iff_closed (s : List Char) : Segment s ↔ Closed s := by
  constructor
  · rintro ⟨bare, outside, balanced⟩
    rw [Closed, walk_outside s bare outside]
    exact (walk_bare_iff bare (outside_bare s bare outside) 0).mpr balanced
  · intro closed
    obtain ⟨bare, outside⟩ := walk_completed (.plain 0) s 0 closed
    refine ⟨bare, outside, (walk_bare_iff bare (outside_bare s bare outside) 0).mp ?_⟩
    rwa [← walk_outside s bare outside]

theorem finish_ok (whole : String) (collected token : List Char) (finished : finish whole collected = .ok token) :
    Text.allBlank collected.reverse = false ∧ token = Text.trim collected.reverse := by
  by_cases blank : Text.allBlank collected.reverse = true
  · rw [finish, (Text.trim_nil_iff collected.reverse).mpr blank] at finished
    simp at finished
  · have filled := Bool.eq_false_iff.mpr blank
    have kept := finish_trim whole collected.reverse filled
    rw [List.reverse_reverse, finished] at kept
    exact ⟨filled, Except.ok.inj kept⟩

theorem intercalate_push (mark : List Char) (c : Char) (first : List Char) (pieces : List (List Char)) :
    mark.intercalate ((c :: first) :: pieces) = c :: mark.intercalate (first :: pieces) := by
  cases pieces with
  | nil => rw [List.intercalate_singleton, List.intercalate_singleton]
  | cons next others => rw [List.intercalate_cons_cons, List.intercalate_cons_cons, List.cons_append, List.cons_append]

-- What a scan that ends well has gone over: the rest of the piece that it was in, and whole pieces
-- behind it.
structure Cut (place : Place) (collected s : List Char) (first : List Char) (pieces tokens : List (List Char)) : Prop where
  joined : s = [','].intercalate (first :: pieces)
  arrives : place.walk first = some (.plain 0)
  closed : ∀ piece ∈ pieces, Closed piece
  filled : ∀ piece ∈ (collected.reverse ++ first) :: pieces, Text.allBlank piece = false
  trimmed : tokens = ((collected.reverse ++ first) :: pieces).map Text.trim

theorem scan_cut (whole : String) (place : Place) (collected s : List Char) (tokens : List (List Char))
    (scanned : scan whole place collected s = .ok tokens) : ∃ first pieces, Cut place collected s first pieces tokens := by
  induction s generalizing place collected tokens with
  | nil =>
    rcases place with (_ | opened) | _ | _
    · rw [scan] at scanned
      obtain ⟨token, finished, only⟩ := ok_of_bind scanned
      obtain rfl := Except.ok.inj only
      obtain ⟨filled, rfl⟩ := finish_ok whole collected token finished
      exact ⟨[], [], rfl, rfl, by simp, by simpa using filled, by simp⟩
    all_goals simp [scan] at scanned
  | cons c rest ih =>
    rw [scan] at scanned
    split_ifs at scanned with separates
    · obtain ⟨rfl, rfl⟩ := separates
      obtain ⟨token, finished, scanned⟩ := ok_of_bind scanned
      obtain ⟨others, inner, together⟩ := ok_of_bind scanned
      obtain rfl := Except.ok.inj together
      obtain ⟨filled, rfl⟩ := finish_ok whole collected token finished
      obtain ⟨first, pieces, cut⟩ := ih (.plain 0) [] others inner
      refine ⟨[], first :: pieces, ?_, rfl, ?_, ?_, ?_⟩
      · rw [cut.joined, comma_join, List.nil_append]
      · exact List.forall_mem_cons.mpr ⟨cut.arrives, cut.closed⟩
      · exact List.forall_mem_cons.mpr ⟨by simpa using filled, by simpa using cut.filled⟩
      · simpa using cut.trimmed
    · cases step : place.step c with
      | none => simp [step] at scanned
      | some next =>
        simp only [step] at scanned
        obtain ⟨first, pieces, cut⟩ := ih next (c :: collected) tokens scanned
        refine ⟨c :: first, pieces, ?_, ?_, cut.closed, ?_, ?_⟩
        · rw [cut.joined, intercalate_push]
        · rw [Place.walk, if_neg separates, step, Option.bind_some, cut.arrives]
        · simpa using cut.filled
        · simpa using cut.trimmed

theorem split_ok_iff (s : List Char) (tokens : List (List Char)) :
    split s = .ok tokens ↔ (Text.allBlank s = true ∧ tokens = []) ∨
      ∃ pieces, pieces ≠ [] ∧ s = [','].intercalate pieces ∧ (∀ piece ∈ pieces, Closed piece ∧ Text.allBlank piece = false) ∧
        tokens = pieces.map Text.trim := by
  constructor
  · intro cut
    rw [split] at cut
    split_ifs at cut with blank
    · exact .inl ⟨blank, (Except.ok.inj cut).symm⟩
    · obtain ⟨first, pieces, cut⟩ := scan_cut _ (.plain 0) [] s tokens cut
      refine .inr ⟨first :: pieces, List.cons_ne_nil first pieces, cut.joined, ?_, cut.trimmed⟩
      have closed : ∀ piece ∈ first :: pieces, Closed piece := List.forall_mem_cons.mpr ⟨cut.arrives, cut.closed⟩
      exact fun piece member => ⟨closed piece member, cut.filled piece member⟩
  · rintro (⟨blank, rfl⟩ | ⟨pieces, nonempty, rfl, sound, rfl⟩)
    · rw [split, if_pos blank]
    · exact split_pieces pieces nonempty sound

-- A place that a scan can come to: what it waits for inside of quotes is a quote.
def Place.Real : Place → Prop
  | .plain _ => True
  | .quoted quote _ => isQuote quote = true
  | .escaped quote _ => isQuote quote = true

theorem step_real (place next : Place) (c : Char) (real : place.Real) (step : place.step c = some next) : next.Real := by
  cases place with
  | plain opened =>
    by_cases quotes : isQuote c = true
    · exact Option.some.inj ((step_quote c opened quotes).symm.trans step) ▸ quotes
    · rcases step_bare opened c (Bool.eq_false_iff.mpr quotes) with ⟨inner, moved, _⟩ | ⟨stopped, _⟩
      · exact Option.some.inj (moved.symm.trans step) ▸ trivial
      · simp [stopped] at step
  | quoted quote opened =>
    rw [Place.step] at step
    split_ifs at step
    · exact Option.some.inj step ▸ real
    · exact Option.some.inj step ▸ trivial
    · exact Option.some.inj step ▸ real
  | escaped quote opened => exact Option.some.inj step ▸ real

theorem step_blank (place : Place) (c : Char) (opened : Nat) (real : place.Real) (blank : Text.isBlank c = true)
    (step : place.step c = some (.plain opened)) : place = .plain opened := by
  have inert := blank_inert c blank
  simp only [isInert, Bool.and_eq_true, Bool.not_eq_true', bne_iff_ne, ne_eq] at inert
  obtain ⟨⟨⟨quote, opens⟩, closes⟩, _⟩ := inert
  cases place with
  | plain before =>
    cases before <;> simpa [Place.step, quote, opens, closes] using step
  | quoted waits before =>
    rw [Place.step] at step
    split_ifs at step with hides ends
    · cases step
    · have quotes : isQuote c = true := ends ▸ real
      rw [quote] at quotes
      exact absurd quotes Bool.false_ne_true
    · cases step
  | escaped waits before => cases step

theorem walk_blanks (place : Place) (blanks : List Char) (opened : Nat) (real : place.Real) (blank : Text.allBlank blanks = true)
    (walk : place.walk blanks = some (.plain opened)) : place = .plain opened := by
  induction blanks generalizing place with
  | nil => exact Option.some.inj walk
  | cons c rest ih =>
    obtain ⟨first, later⟩ := List.forall_mem_cons.mp ((Text.all_blank_iff _).mp blank)
    rw [Place.walk] at walk
    split_ifs at walk
    obtain ⟨next, step, walk⟩ := Option.bind_eq_some_iff.mp walk
    obtain rfl := ih next (step_real place next c real step) ((Text.all_blank_iff rest).mpr later) walk
    exact step_blank place c opened real first step

theorem walk_unpadded (place : Place) (s blanks : List Char) (opened : Nat) (real : place.Real)
    (blank : Text.allBlank blanks = true) (walk : place.walk (s ++ blanks) = some (.plain opened)) :
    place.walk s = some (.plain opened) := by
  induction s generalizing place with
  | nil => exact congrArg some (walk_blanks place blanks opened real blank walk)
  | cons c rest ih =>
    rw [List.cons_append, Place.walk] at walk
    rw [Place.walk]
    split_ifs at walk ⊢
    obtain ⟨next, step, walk⟩ := Option.bind_eq_some_iff.mp walk
    rw [step, Option.bind_some]
    exact ih next (step_real place next c real step) walk

-- Blanks around a text are never part of a quoted one.
theorem closed_trim_iff (s : List Char) : Closed (Text.trim s) ↔ Closed s := by
  obtain ⟨before, after, blankBefore, blankAfter, spread⟩ := Text.trim_spread s
  constructor
  · intro closed
    rw [spread]
    exact closed_append _ _ (closed_append _ _ (blanks_closed before blankBefore) closed) (blanks_closed after blankAfter)
  · intro closed
    rw [spread, Closed, List.append_assoc, walk_append, blanks_closed before blankBefore, Option.bind_some] at closed
    exact walk_unpadded (.plain 0) _ after 0 trivial blankAfter closed

theorem filled_trim (s : List Char) (filled : Text.allBlank s = false) : Text.allBlank (Text.trim s) = false := by
  rw [Bool.eq_false_iff, Ne, ← Text.trim_nil_iff] at filled
  rwa [Bool.eq_false_iff, Ne, ← Text.trim_nil_iff, Text.trim_again]

theorem split_sole (s : List Char) (closed : Closed s) (filled : Text.allBlank s = false) : split s = .ok [Text.trim s] := by
  rw [← List.map_singleton, ← split_pieces [s] (List.cons_ne_nil s []), List.intercalate_singleton]
  exact List.forall_mem_singleton.mpr ⟨closed, filled⟩

theorem sole_token (s token : List Char) (cut : split s = .ok [token]) : token = Text.trim s := by
  rcases (split_ok_iff s _).mp cut with ⟨_, empty⟩ | ⟨pieces, _, rfl, _, trimmed⟩
  · simp at empty
  · obtain ⟨piece, rfl, same⟩ := List.map_eq_singleton_iff.mp trimmed.symm
    rw [List.intercalate_singleton, same]

theorem split_alone_iff (token : List Char) :
    split token = .ok [token] ↔ Closed token ∧ Text.allBlank token = false ∧ Text.trim token = token := by
  constructor
  · intro cut
    have trimmed := sole_token token token cut
    rcases (split_ok_iff token _).mp cut with ⟨_, empty⟩ | ⟨pieces, _, joined, sound, same⟩
    · simp at empty
    · obtain ⟨piece, rfl, _⟩ := List.map_eq_singleton_iff.mp same.symm
      rw [List.intercalate_singleton] at joined
      obtain ⟨closed, filled⟩ := sound piece List.mem_cons_self
      exact ⟨joined ▸ closed, joined ▸ filled, trimmed.symm⟩
  · rintro ⟨closed, filled, trimmed⟩
    rw [split_sole token closed filled, trimmed]

theorem split_piece (piece : List Char) (closed : Closed piece) (filled : Text.allBlank piece = false) :
    split (Text.trim piece) = .ok [Text.trim piece] :=
  (split_alone_iff _).mpr ⟨(closed_trim_iff piece).mpr closed, filled_trim piece filled, Text.trim_again piece⟩

-- Behind a comma a space makes no difference.
theorem intercalate_spaced (first : List Char) (rest : List (List Char)) :
    [',', ' '].intercalate (first :: rest) = [','].intercalate (first :: rest.map (' ' :: ·)) := by
  induction rest generalizing first with
  | nil => rw [List.map_nil, List.intercalate_singleton, List.intercalate_singleton]
  | cons next others ih =>
    rw [List.map_cons, List.intercalate_cons_cons, List.intercalate_cons_cons, intercalate_push, ih next]
    simp

theorem trim_spaced (token : List Char) : Text.trim (' ' :: token) = Text.trim token := by
  rw [Text.trim, ← List.singleton_append, Text.trim_start_pad [' '] token (by decide), ← Text.trim]

theorem split_spread (pieces : List (List Char)) (nonempty : pieces ≠ [])
    (sound : ∀ piece ∈ pieces, Closed piece ∧ Text.allBlank piece = false) :
    split ([',', ' '].intercalate pieces) = .ok (pieces.map Text.trim) := by
  obtain ⟨first, rest, rfl⟩ := List.exists_cons_of_ne_nil nonempty
  obtain ⟨own, others⟩ := List.forall_mem_cons.mp sound
  have spaces : Text.allBlank [' '] = true := by decide
  have padded : ∀ piece ∈ first :: rest.map (' ' :: ·), Closed piece ∧ Text.allBlank piece = false := by
    refine List.forall_mem_cons.mpr ⟨own, List.forall_mem_map.mpr fun piece member => ?_⟩
    obtain ⟨closed, filled⟩ := others piece member
    refine ⟨closed_append [' '] piece (blanks_closed [' '] spaces) closed, ?_⟩
    rw [Text.allBlank, List.all_cons, ← Text.allBlank, filled, Bool.and_false]
  rw [intercalate_spaced, split_pieces _ (List.cons_ne_nil _ _) padded]
  simp [Function.comp_def, trim_spaced]

theorem split_spaced (tokens : List (List Char)) (alone : ∀ token ∈ tokens, split token = .ok [token]) :
    split ([',', ' '].intercalate tokens) = .ok tokens := by
  by_cases empty : tokens = []
  · exact empty ▸ rfl
  · have sound : ∀ token ∈ tokens, Closed token ∧ Text.allBlank token = false := fun token member => by
      obtain ⟨closed, filled, _⟩ := (split_alone_iff token).mp (alone token member)
      exact ⟨closed, filled⟩
    have trimmed : ∀ token ∈ tokens, Text.trim token = token := fun token member =>
      ((split_alone_iff token).mp (alone token member)).2.2
    rw [split_spread tokens empty sound, List.map_congr_left trimmed, List.map_id']

-- A list is cut at the commas that stand outside of parentheses and quotes, and at no others; what it
-- is cut into can be put together again.
theorem lists_are_cut_at_outer_commas :
    (∀ s tokens, split s = .ok tokens ↔ (Text.allBlank s = true ∧ tokens = []) ∨
      ∃ pieces, pieces ≠ [] ∧ s = [','].intercalate pieces ∧
        (∀ piece ∈ pieces, Segment piece ∧ Text.allBlank piece = false) ∧ tokens = pieces.map Text.trim) ∧
    (∀ s tokens, split s = .ok tokens → ∀ token ∈ tokens, split token = .ok [token]) ∧
    ∀ tokens, (∀ token ∈ tokens, split token = .ok [token]) → split ([',', ' '].intercalate tokens) = .ok tokens := by
  refine ⟨fun s tokens => ?_, fun s tokens cut token member => ?_, split_spaced⟩
  · simp only [split_ok_iff, segment_iff_closed]
  · rcases (split_ok_iff s tokens).mp cut with ⟨_, rfl⟩ | ⟨pieces, _, _, sound, rfl⟩
    · simp at member
    · obtain ⟨piece, listed, rfl⟩ := List.mem_map.mp member
      obtain ⟨closed, filled⟩ := sound piece listed
      exact split_piece piece closed filled

def callAndText : List (List Char) :=
  ["at(1, (2))".toList, "'it\\'s, on'".toList]

theorem call_and_text_are_cut :
    split " at(1, (2)) , 'it\\'s, on'".toList = .ok callAndText ∧
      (∃ pieces, pieces ≠ [] ∧ " at(1, (2)) , 'it\\'s, on'".toList = [','].intercalate pieces ∧
        (∀ piece ∈ pieces, Segment piece ∧ Text.allBlank piece = false) ∧ callAndText = pieces.map Text.trim) ∧
      (∀ token ∈ callAndText, split token = .ok [token]) ∧ split ([',', ' '].intercalate callAndText) = .ok callAndText := by
  obtain ⟨cuts, alone, joins⟩ := lists_are_cut_at_outer_commas
  have cut : split " at(1, (2)) , 'it\\'s, on'".toList = .ok callAndText := by rfl
  refine ⟨cut, ?_, alone _ callAndText cut, joins callAndText (alone _ callAndText cut)⟩
  rcases (cuts _ callAndText).mp cut with ⟨_, empty⟩ | pieces
  · exact absurd empty (List.cons_ne_nil _ _)
  · exact pieces

end CommandScript.Arguments
