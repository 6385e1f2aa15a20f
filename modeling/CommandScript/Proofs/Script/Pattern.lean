import CommandScript.Text.Blank
import CommandScript.Text.WordTable
import Mathlib.Data.List.Forall2

set_option autoImplicit false

namespace CommandScript.Text

-- What a pattern is made of: a character itself, or a run of at least so many characters of a class.
inductive Item where
  | exactly (c : Char)
  | run (accepts : Char → Bool) (least : Nat)

namespace Item

def Fits : Item → List Char → Prop
  | .exactly c, taken => taken = [c]
  | .run accepts least, taken => least ≤ taken.length ∧ ∀ c ∈ taken, accepts c = true

-- The ways to take a run from the front of a text and what each leaves, the longest first.
def runs (accepts : Char → Bool) : List Char → List (List Char × List Char)
  | [] => [([], [])]
  | c :: rest => (if accepts c then (runs accepts rest).map fun way => (c :: way.1, way.2) else []) ++ [([], c :: rest)]

-- The ways in which an item is tried, in order: a run gives back one character after the other.
def ways : Item → List Char → List (List Char × List Char)
  | .exactly _, [] => []
  | .exactly c, d :: rest => if d = c then [([d], rest)] else []
  | .run accepts least, text => (runs accepts text).filter fun way => least ≤ way.1.length

theorem mem_runs (accepts : Char → Bool) (text : List Char) (way : List Char × List Char) :
    way ∈ runs accepts text ↔ text = way.1 ++ way.2 ∧ ∀ c ∈ way.1, accepts c = true := by
  induction text generalizing way with
  | nil =>
    rw [runs, List.mem_singleton, List.nil_eq, List.append_eq_nil_iff, Prod.ext_iff]
    exact ⟨fun empty => ⟨empty, by simp [empty.1]⟩, fun fits => fits.1⟩
  | cons c rest ih =>
    rw [runs, List.mem_append, List.mem_singleton]
    constructor
    · rintro (longer | rfl)
      · split at longer
        · rename_i accepted
          obtain ⟨shorter, listed, rfl⟩ := List.mem_map.mp longer
          obtain ⟨spelled, all⟩ := (ih shorter).mp listed
          exact ⟨congrArg (List.cons c) spelled, List.forall_mem_cons.mpr ⟨accepted, all⟩⟩
        · cases longer
      · exact ⟨rfl, by simp⟩
    · obtain ⟨taken, left⟩ := way
      rintro ⟨spelled, all⟩
      cases taken with
      | nil => exact .inr (Prod.ext rfl spelled.symm)
      | cons d more =>
        obtain ⟨rfl, rfl⟩ := List.cons.inj spelled
        obtain ⟨accepted, others⟩ := List.forall_mem_cons.mp all
        rw [if_pos accepted]
        exact .inl (List.mem_map.mpr ⟨(more, left), (ih _).mpr ⟨rfl, others⟩, rfl⟩)

theorem mem_ways (item : Item) (text : List Char) (way : List Char × List Char) :
    way ∈ item.ways text ↔ text = way.1 ++ way.2 ∧ item.Fits way.1 := by
  obtain ⟨taken, left⟩ := way
  cases item with
  | exactly c =>
    cases text with
    | nil => simp +contextual [ways, Fits]
    | cons d rest =>
      rw [ways, Fits]
      constructor
      · intro listed
        split at listed
        · rename_i same
          obtain ⟨rfl, rfl⟩ := Prod.mk.inj (List.mem_singleton.mp listed)
          exact ⟨rfl, by rw [same]⟩
        · cases listed
      · rintro ⟨spelled, rfl⟩
        obtain ⟨rfl, rfl⟩ := List.cons.inj spelled
        rw [if_pos rfl]
        exact List.mem_singleton_self _
  | run accepts least =>
    rw [ways, List.mem_filter, mem_runs, decide_eq_true_iff, Fits, and_assoc, and_comm (a := ∀ c ∈ taken, _)]

end Item

-- A pattern takes a whole text, item after item. Where an item can be taken in several ways, the first
-- of them counts that lets the rest of the pattern take the rest of the text.
def firstMatch : List Item → List Char → Option (List (List Char))
  | [], [] => some []
  | [], _ :: _ => none
  | item :: items, text => (item.ways text).findSome? fun way => (firstMatch items way.2).map (way.1 :: ·)

theorem first_match_sound (items : List Item) (text : List Char) (parts : List (List Char))
    (found : firstMatch items text = some parts) : List.Forall₂ Item.Fits items parts ∧ parts.flatten = text := by
  induction items generalizing text parts with
  | nil =>
    cases text with
    | nil =>
      obtain rfl := Option.some.inj found
      exact ⟨.nil, rfl⟩
    | cons c rest => cases found
  | cons item items ih =>
    obtain ⟨way, listed, matched⟩ := List.exists_of_findSome?_eq_some found
    obtain ⟨others, later, rfl⟩ := Option.map_eq_some_iff.mp matched
    obtain ⟨rfl, fit⟩ := (item.mem_ways text way).mp listed
    obtain ⟨fits, rest⟩ := ih way.2 others later
    exact ⟨.cons fit fits, by rw [List.flatten_cons, rest]⟩

theorem first_match_complete (items : List Item) (parts : List (List Char)) (fits : List.Forall₂ Item.Fits items parts) :
    firstMatch items parts.flatten ≠ none := by
  induction fits with
  | nil => exact Option.some_ne_none _
  | @cons item part items parts fit _ ih =>
    intro none
    have refused := List.findSome?_eq_none_iff.mp none (part, parts.flatten) ((item.mem_ways _ _).mpr ⟨rfl, fit⟩)
    exact ih (Option.map_eq_none_iff.mp refused)

end CommandScript.Text
