import CommandScript.Table
import Mathlib.Data.String.Basic

set_option autoImplicit false

namespace CommandScript.Table

variable {α : Type}

theorem find_put_same (table : Table α) (key : String) (value : α) :
    (table.put key value).find? key = some value := by
  induction table with
  | nil => simp only [put, find?, if_true]
  | cons entry rest ih =>
    obtain ⟨k, old⟩ := entry
    by_cases before : key < k
    · rw [put, if_pos before, find?, if_pos rfl]
    · by_cases same : key = k
      · rw [put, if_neg before, if_pos same, find?, if_pos rfl]
      · rw [put, if_neg before, if_neg same, find?, if_neg (Ne.symm same)]
        exact ih

theorem find_put_other (table : Table α) (key query : String) (value : α) (different : query ≠ key) :
    (table.put key value).find? query = table.find? query := by
  induction table with
  | nil => simp only [put, find?, if_neg (Ne.symm different)]
  | cons entry rest ih =>
    obtain ⟨k, old⟩ := entry
    by_cases before : key < k
    · rw [put, if_pos before, find?, if_neg (Ne.symm different)]
    · by_cases same : key = k
      · subst same
        rw [put, if_neg before, if_pos rfl, find?, find?, if_neg (Ne.symm different), if_neg (Ne.symm different)]
      · rw [put, if_neg before, if_neg same, find?, find?, ih]

theorem find_put (table : Table α) (key query : String) (value : α) :
    (table.put key value).find? query = if query = key then some value else table.find? query := by
  by_cases same : query = key
  · rw [if_pos same, same, find_put_same]
  · rw [if_neg same, find_put_other table key query value same]

theorem has_put (table : Table α) (key query : String) (value : α) :
    (table.put key value).has query = (decide (query = key) || table.has query) := by
  by_cases same : query = key <;> simp [has, find_put, same]

theorem has_iff (table : Table α) (key : String) :
    table.has key = true ↔ ∃ value, table.find? key = some value := by
  simp [has, Option.isSome_iff_exists]

theorem find_none_of_not_has (table : Table α) (key : String) (absent : table.has key = false) :
    table.find? key = none := by
  simpa [has] using absent

theorem find_drop (table : Table α) (key query : String) :
    (table.drop key).find? query = if query = key then none else table.find? query := by
  induction table with
  | nil => simp [drop, find?]
  | cons entry rest ih =>
    obtain ⟨k, value⟩ := entry
    rw [drop] at ih
    by_cases dropped : k = key
    · rw [drop, List.filter_cons_of_neg (by simp [dropped]), ih, find?]
      by_cases same : query = key
      · rw [if_pos same, if_pos same]
      · rw [if_neg same, if_neg same, if_neg (fun here => same (here.symm.trans dropped))]
    · rw [drop, List.filter_cons_of_pos (by simp [dropped]), find?, find?, ih]
      by_cases same : k = query
      · rw [if_pos same, if_pos same, if_neg (fun here => dropped (same.trans here))]
      · rw [if_neg same, if_neg same]

theorem find_mem (table : Table α) (key : String) (value : α) (found : table.find? key = some value) :
    (key, value) ∈ table := by
  induction table with
  | nil => simp [find?] at found
  | cons entry rest ih =>
    obtain ⟨k, old⟩ := entry
    by_cases same : k = key
    · rw [find?, if_pos same, Option.some.injEq] at found
      simp [same, found]
    · rw [find?, if_neg same] at found
      exact List.mem_cons_of_mem _ (ih found)

theorem find_of_mem (table : Table α) (key : String) (value : α) (ascending : table.Ascending) (member : (key, value) ∈ table) :
    table.find? key = some value := by
  induction table with
  | nil => simp at member
  | cons first rest ih =>
    obtain ⟨k, old⟩ := first
    obtain ⟨above, restAscending⟩ := List.pairwise_cons.mp ascending
    rcases List.mem_cons.mp member with here | later
    · obtain ⟨rfl, rfl⟩ := Prod.mk.inj here
      rw [find?, if_pos rfl]
    · rw [find?, if_neg (ne_of_lt (above (key, value) later))]
      exact ih restAscending later

theorem mem_keys_of_has (table : Table α) (key : String) (present : table.has key = true) :
    key ∈ table.keys := by
  obtain ⟨value, found⟩ := (has_iff table key).mp present
  exact List.mem_map.mpr ⟨(key, value), find_mem table key value found, rfl⟩

theorem mem_put (table : Table α) (key : String) (value : α) (entry : String × α)
    (member : entry ∈ table.put key value) : entry = (key, value) ∨ entry ∈ table := by
  induction table with
  | nil => exact .inl (List.mem_singleton.mp member)
  | cons first rest ih =>
    obtain ⟨k, old⟩ := first
    by_cases before : key < k
    · rw [put, if_pos before] at member
      exact List.mem_cons.mp member
    · by_cases same : key = k
      · rw [put, if_neg before, if_pos same] at member
        exact (List.mem_cons.mp member).imp_right (List.mem_cons_of_mem _)
      · rw [put, if_neg before, if_neg same] at member
        rcases List.mem_cons.mp member with here | later
        · exact .inr (here ▸ List.mem_cons_self)
        · exact (ih later).imp_right (List.mem_cons_of_mem _)

-- A key that is new takes no entry's place.
theorem mem_put_new (table : Table α) (key : String) (value : α) (entry : String × α) (absent : table.has key = false) :
    entry ∈ table.put key value ↔ entry = (key, value) ∨ entry ∈ table := by
  induction table with
  | nil => simp [put]
  | cons first rest ih =>
    obtain ⟨k, old⟩ := first
    have different : k ≠ key := by
      rintro rfl
      simp [has, find?] at absent
    have restAbsent : Table.has rest key = false := by
      simpa [has, find?, different] using absent
    by_cases before : key < k
    · rw [put, if_pos before, List.mem_cons]
    · rw [put, if_neg before, if_neg (Ne.symm different), List.mem_cons, ih restAbsent, List.mem_cons]
      exact or_left_comm

theorem put_found (table : Table α) (key : String) (value : α) (ascending : table.Ascending)
    (found : table.find? key = some value) : table.put key value = table := by
  induction table with
  | nil => simp [find?] at found
  | cons first rest ih =>
    obtain ⟨k, old⟩ := first
    obtain ⟨above, restAscending⟩ := List.pairwise_cons.mp ascending
    by_cases same : k = key
    · subst same
      obtain rfl : old = value := by simpa [find?] using found
      rw [put, if_neg (lt_irrefl _), if_pos rfl]
    · rw [find?, if_neg same] at found
      have after : k < key := above (key, value) (find_mem rest key value found)
      rw [put, if_neg (lt_asymm after), if_neg (Ne.symm same), ih restAscending found]

theorem drop_ascending (table : Table α) (key : String) (ascending : table.Ascending) : (table.drop key).Ascending :=
  List.Pairwise.sublist List.filter_sublist ascending

theorem put_ascending (table : Table α) (key : String) (value : α) (ascending : table.Ascending) :
    (table.put key value).Ascending := by
  induction table with
  | nil => exact List.pairwise_singleton _ _
  | cons first rest ih =>
    obtain ⟨k, old⟩ := first
    obtain ⟨above, restAscending⟩ := List.pairwise_cons.mp ascending
    by_cases before : key < k
    · rw [put, if_pos before]
      refine List.pairwise_cons.mpr ⟨fun entry member => ?_, ascending⟩
      rcases List.mem_cons.mp member with here | later
      · exact here ▸ before
      · exact lt_trans before (above entry later)
    · by_cases same : key = k
      · rw [put, if_neg before, if_pos same]
        exact List.pairwise_cons.mpr ⟨fun entry member => same ▸ above entry member, restAscending⟩
      · rw [put, if_neg before, if_neg same]
        refine List.pairwise_cons.mpr ⟨fun entry member => ?_, ih restAscending⟩
        rcases mem_put rest key value entry member with here | later
        · rw [here]
          exact lt_of_le_of_ne (not_lt.mp before) (Ne.symm same)
        · exact above entry later

theorem ascending_iff_keys (table : Table α) : table.Ascending ↔ table.keys.Pairwise fun first second => first < second :=
  List.pairwise_map.symm

-- A key that is there already stays in its place.
theorem keys_put_present (table : Table α) (key : String) (value : α) (ascending : table.Ascending) (present : table.has key = true) :
    (table.put key value).keys = table.keys := by
  induction table with
  | nil => simp [has, find?] at present
  | cons first rest ih =>
    obtain ⟨k, old⟩ := first
    obtain ⟨above, restAscending⟩ := List.pairwise_cons.mp ascending
    by_cases same : key = k
    · subst same
      rw [put, if_neg (lt_irrefl _), if_pos rfl]
      rfl
    · have later : Table.has rest key = true := by
        simpa [has, find?, Ne.symm same] using present
      obtain ⟨stored, found⟩ := (has_iff rest key).mp later
      have after : k < key := above (key, stored) (find_mem rest key stored found)
      rw [put, if_neg (lt_asymm after), if_neg same, keys, List.map_cons]
      exact congrArg (k :: ·) (ih restAscending later)

end CommandScript.Table
