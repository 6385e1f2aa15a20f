import CommandScript.Command.Arguments
import CommandScript.Proofs.Text

set_option autoImplicit false

namespace CommandScript.Arguments

-- The place after a text in which the scan meets no comma that separates.
def Place.walk : Place → List Char → Option Place
  | place, [] => some place
  | place, c :: rest => if place = .plain 0 ∧ c = ',' then none else (place.step c).bind fun next => next.walk rest

-- A text that stands for itself between two commas.
def Closed (s : List Char) : Prop :=
  (Place.plain 0).walk s = some (.plain 0)

theorem walk_append (place : Place) (first second : List Char) :
    place.walk (first ++ second) = (place.walk first).bind fun middle => middle.walk second := by
  induction first generalizing place with
  | nil => rfl
  | cons c rest ih =>
    rw [List.cons_append, Place.walk, Place.walk]
    by_cases separates : place = .plain 0 ∧ c = ','
    · rw [if_pos separates, if_pos separates, Option.bind_none]
    · rw [if_neg separates, if_neg separates, Option.bind_assoc]
      exact congrArg _ (funext ih)

theorem scan_walk (whole : String) (place next : Place) (s collected rest : List Char) (walk : place.walk s = some next) :
    scan whole place collected (s ++ rest) = scan whole next (s.reverse ++ collected) rest := by
  induction s generalizing place collected with
  | nil =>
    obtain rfl := Option.some.inj walk
    rfl
  | cons c tail ih =>
    rw [Place.walk] at walk
    by_cases separates : place = .plain 0 ∧ c = ','
    · simp [separates] at walk
    · rw [if_neg separates, Option.bind_eq_some_iff] at walk
      obtain ⟨middle, step, walk⟩ := walk
      rw [List.cons_append, scan, if_neg separates, step]
      simp only [ih middle (c :: collected) walk, List.reverse_cons, List.append_assoc, List.singleton_append]

theorem scan_comma (whole : String) (collected rest : List Char) :
    scan whole (.plain 0) collected (',' :: rest) = (do
      let token ← finish whole collected
      let others ← scan whole (.plain 0) [] rest
      return token :: others) := by
  rw [scan, if_pos ⟨rfl, rfl⟩]

theorem finish_trim (whole : String) (piece : List Char) (filled : Text.allBlank piece = false) :
    finish whole piece.reverse = .ok (Text.trim piece) := by
  have nonempty : Text.trim piece ≠ [] := fun empty => by simp [(Text.trim_nil_iff piece).mp empty] at filled
  rw [finish, List.reverse_reverse]
  simp [nonempty]

theorem scan_last (whole : String) (piece : List Char) (closed : Closed piece) (filled : Text.allBlank piece = false) :
    scan whole (.plain 0) [] piece = .ok [Text.trim piece] := by
  have scanned := scan_walk whole _ _ piece [] [] closed
  rw [List.append_nil, List.append_nil] at scanned
  rw [scanned, scan, finish_trim whole piece filled]
  rfl

theorem scan_more (whole : String) (piece rest : List Char) (tokens : List (List Char)) (closed : Closed piece)
    (filled : Text.allBlank piece = false) (others : scan whole (.plain 0) [] rest = .ok tokens) :
    scan whole (.plain 0) [] (piece ++ ',' :: rest) = .ok (Text.trim piece :: tokens) := by
  rw [scan_walk whole _ _ piece [] (',' :: rest) closed, List.append_nil, scan_comma, finish_trim whole piece filled, others]
  rfl

def Place.raise (extra : Nat) : Place → Place
  | .plain depth => .plain (depth + extra)
  | .quoted quote depth => .quoted quote (depth + extra)
  | .escaped quote depth => .escaped quote (depth + extra)

theorem step_raise (extra : Nat) (place next : Place) (c : Char) (step : place.step c = some next) :
    (place.raise extra).step c = some (next.raise extra) := by
  cases place with
  | plain depth =>
    simp only [Place.raise, Place.step] at step ⊢
    split_ifs at step ⊢ with quote opens closes
    · obtain rfl := Option.some.inj step
      rfl
    · obtain rfl := Option.some.inj step
      rw [Nat.add_right_comm]
    · cases depth with
      | zero => simp at step
      | succ outer =>
        obtain rfl := Option.some.inj step
        rw [Nat.add_right_comm]
    · obtain rfl := Option.some.inj step
      rfl
  | quoted quote depth =>
    simp only [Place.raise, Place.step] at step ⊢
    split_ifs at step ⊢ with hides closes
    · obtain rfl := Option.some.inj step
      rfl
    · obtain rfl := Option.some.inj step
      rfl
    · obtain rfl := Option.some.inj step
      rfl
  | escaped quote depth =>
    obtain rfl := Option.some.inj step
    rfl

-- What is closed at the outermost level is closed inside any number of parentheses.
theorem walk_raise (extra : Nat) (place next : Place) (s : List Char) (walk : place.walk s = some next) :
    (place.raise extra).walk s = some (next.raise extra) := by
  induction s generalizing place with
  | nil =>
    obtain rfl := Option.some.inj walk
    rfl
  | cons c rest ih =>
    rw [Place.walk] at walk
    by_cases separates : place = .plain 0 ∧ c = ','
    · simp [separates] at walk
    · rw [if_neg separates, Option.bind_eq_some_iff] at walk
      obtain ⟨middle, step, walk⟩ := walk
      have outer : ¬ (place.raise extra = .plain 0 ∧ c = ',') := by
        rintro ⟨outermost, comma⟩
        cases place <;> simp_all [Place.raise]
      rw [Place.walk, if_neg outer, step_raise extra place middle c step]
      exact ih middle walk

theorem closed_inside (s : List Char) (closed : Closed s) (depth : Nat) :
    (Place.plain depth).walk s = some (.plain depth) := by
  simpa [Place.raise] using walk_raise depth (.plain 0) (.plain 0) s closed

-- Inside of parentheses a comma is a character like any other.
theorem walk_more (depth : Nat) (piece rest : List Char) (closed : Closed piece) :
    (Place.plain (depth + 1)).walk (piece ++ ',' :: rest) = (Place.plain (depth + 1)).walk rest := by
  rw [walk_append, closed_inside piece closed (depth + 1), Option.bind_some, Place.walk, if_neg (by simp)]
  rfl

theorem comma_join (piece next : List Char) (others : List (List Char)) :
    [','].intercalate (piece :: next :: others) = piece ++ ',' :: [','].intercalate (next :: others) := by
  rw [List.intercalate_cons_cons, List.append_assoc, List.singleton_append]

-- Whole pieces are cut apart at the commas between them, but not inside of parentheses.
theorem scan_pieces (whole : String) (pieces : List (List Char)) (nonempty : pieces ≠ [])
    (sound : ∀ piece ∈ pieces, Closed piece ∧ Text.allBlank piece = false) :
    scan whole (.plain 0) [] ([','].intercalate pieces) = .ok (pieces.map Text.trim) := by
  induction pieces with
  | nil => exact absurd rfl nonempty
  | cons piece rest ih =>
    obtain ⟨⟨closed, filled⟩, later⟩ := List.forall_mem_cons.mp sound
    cases rest with
    | nil =>
      rw [List.intercalate_singleton]
      exact scan_last whole piece closed filled
    | cons next others =>
      rw [comma_join]
      exact scan_more whole piece _ _ closed filled (ih (List.cons_ne_nil next others) later)

theorem pieces_filled (pieces : List (List Char)) (nonempty : pieces ≠ [])
    (filled : ∀ piece ∈ pieces, Text.allBlank piece = false) : Text.allBlank ([','].intercalate pieces) = false := by
  obtain ⟨piece, rest, rfl⟩ := List.exists_cons_of_ne_nil nonempty
  have first := filled piece List.mem_cons_self
  cases rest with
  | nil => rwa [List.intercalate_singleton]
  | cons next others =>
    rw [comma_join, Text.allBlank, List.all_append, ← Text.allBlank, first, Bool.false_and]

theorem split_pieces (pieces : List (List Char)) (nonempty : pieces ≠ [])
    (sound : ∀ piece ∈ pieces, Closed piece ∧ Text.allBlank piece = false) :
    split ([','].intercalate pieces) = .ok (pieces.map Text.trim) := by
  have filled := pieces_filled pieces nonempty fun piece member => (sound piece member).2
  rw [split, filled, if_neg Bool.false_ne_true]
  exact scan_pieces _ pieces nonempty sound

theorem pieces_enclose (depth : Nat) (pieces : List (List Char)) (nonempty : pieces ≠ [])
    (closed : ∀ piece ∈ pieces, Closed piece) :
    (Place.plain (depth + 1)).walk ([','].intercalate pieces) = some (.plain (depth + 1)) := by
  induction pieces with
  | nil => exact absurd rfl nonempty
  | cons piece rest ih =>
    obtain ⟨first, later⟩ := List.forall_mem_cons.mp closed
    cases rest with
    | nil =>
      rw [List.intercalate_singleton]
      exact closed_inside piece first (depth + 1)
    | cons next others =>
      rw [comma_join, walk_more depth piece _ first]
      exact ih (List.cons_ne_nil next others) later

theorem quote_not_backslash (quote : Char) (quotes : isQuote quote = true) : quote ≠ '\\' := by
  rintro rfl
  simp [isQuote] at quotes

-- What may stand between two quotes: a backslash hides the character behind it, whatever it is.
inductive Inside (quote : Char) : List Char → Prop where
  | nil : Inside quote []
  | hidden (c : Char) (rest : List Char) (inside : Inside quote rest) : Inside quote ('\\' :: c :: rest)
  | plain (c : Char) (rest : List Char) (noBackslash : c ≠ '\\') (noQuote : c ≠ quote) (inside : Inside quote rest) :
      Inside quote (c :: rest)

theorem walk_inside (quote : Char) (depth : Nat) (content : List Char) (inside : Inside quote content) :
    (Place.quoted quote depth).walk content = some (.quoted quote depth) := by
  induction inside with
  | nil => rfl
  | hidden c rest _ ih =>
    rw [Place.walk, if_neg (by simp), Place.step, if_pos rfl, Option.bind_some, Place.walk, if_neg (by simp), Place.step,
      Option.bind_some, ih]
  | plain c rest noBackslash noQuote _ ih =>
    rw [Place.walk, if_neg (by simp), Place.step, if_neg noBackslash, if_neg noQuote, Option.bind_some, ih]

theorem step_quote (quote : Char) (depth : Nat) (quotes : isQuote quote = true) :
    (Place.plain depth).step quote = some (.quoted quote depth) := by
  cases depth <;> rw [Place.step, if_pos quotes]

theorem walk_quoted (quote : Char) (depth : Nat) (content rest : List Char) (quotes : isQuote quote = true)
    (inside : Inside quote content) :
    (Place.plain depth).walk (quote :: (content ++ quote :: rest)) = (Place.plain depth).walk rest := by
  have comma : quote ≠ ',' := by
    rintro rfl
    simp [isQuote] at quotes
  rw [Place.walk, if_neg fun separates => comma separates.2, step_quote quote depth quotes, Option.bind_some, walk_append,
    walk_inside quote depth content inside, Option.bind_some, Place.walk, if_neg (by simp), Place.step,
    if_neg (quote_not_backslash quote quotes), if_pos rfl, Option.bind_some]

theorem quoted_closed (quote : Char) (content : List Char) (quotes : isQuote quote = true) (inside : Inside quote content) :
    Closed (quote :: (content ++ [quote])) :=
  walk_quoted quote 0 content [] quotes inside

-- Characters that neither quote, nor open or close anything, nor separate.
def isInert (c : Char) : Bool :=
  !isQuote c && c != '(' && c != ')' && c != ','

theorem walk_inert (s : List Char) (inert : ∀ c ∈ s, isInert c = true) : Closed s := by
  unfold Closed
  induction s with
  | nil => rfl
  | cons c rest ih =>
    have first := inert c List.mem_cons_self
    simp only [isInert, Bool.and_eq_true, Bool.not_eq_true', bne_iff_ne, ne_eq] at first
    obtain ⟨⟨⟨quote, opens⟩, closes⟩, comma⟩ := first
    rw [Place.walk, if_neg fun separates => comma separates.2, Place.step, quote, if_neg Bool.false_ne_true,
      if_neg opens, if_neg closes]
    exact ih fun d member => inert d (List.mem_cons_of_mem c member)

theorem inert_of_others (holds : Char → Bool) (c : Char) (member : holds c = true)
    (others : holds '\'' = false ∧ holds '"' = false ∧ holds '(' = false ∧ holds ')' = false ∧ holds ',' = false) :
    isInert c = true := by
  by_contra active
  have special : c = '\'' ∨ c = '"' ∨ c = '(' ∨ c = ')' ∨ c = ',' := by
    simp [isInert, isQuote] at active
    tauto
  rcases special with rfl | rfl | rfl | rfl | rfl <;> simp_all

theorem blank_inert (c : Char) (blank : Text.isBlank c = true) : isInert c = true :=
  inert_of_others Text.isBlank c blank (by decide)

theorem word_inert (c : Char) (word : Text.isWordChar c = true) : isInert c = true :=
  inert_of_others Text.isWordChar c word (by decide)

theorem blanks_closed (s : List Char) (blank : Text.allBlank s = true) : Closed s :=
  walk_inert s fun c member => blank_inert c ((Text.all_blank_iff s).mp blank c member)

theorem closed_append (first second : List Char) (left : Closed first) (right : Closed second) :
    Closed (first ++ second) := by
  rw [Closed, walk_append, left, Option.bind_some, right]

end CommandScript.Arguments
