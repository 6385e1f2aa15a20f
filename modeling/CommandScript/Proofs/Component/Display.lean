import CommandScript.Proofs.Component.Store
import Mathlib.Data.List.Nodup
import Mathlib.Data.List.Perm.Subperm
import Mathlib.Logic.Relation

set_option autoImplicit false

namespace CommandScript

-- The components that a value names, at any depth.
inductive Value.Names : Value → ComponentId → Prop where
  | component (id : ComponentId) : Names (.component id) id
  | field (kind : CompositeKind) (fields : List Value) (field : Value) (id : ComponentId) (listed : field ∈ fields)
      (inner : Names field id) : Names (.composite kind fields) id

-- A value that holds no other values and names no component.
def Value.isSimple : Value → Bool
  | .composite _ _ | .component _ => false
  | .null | .bool _ | .int _ | .float _ | .text _ | .reference _ => true

def Component.contents (component : Component) : List Value :=
  component.fields.map Prod.snd

-- The text of a component, from the texts of what its fields hold.
def Component.layout (component : Component) (texts : List String) : String :=
  if component.fields = [] then component.typeName
  else
    component.typeName ++ " \x7b" ++
      ",".intercalate (List.zipWith (fun name text => " " ++ name ++ ": " ++ text) component.fields.keys texts) ++ " \x7d"

namespace Store

def Holds (store : Store) (outer inner : ComponentId) : Prop :=
  ∃ value ∈ (store.get outer).contents, value.Names inner

-- Values are written one after the other, to any depth, inside the texts of the opened components. What
-- stops the writing of a component is left open; the flag tells whether anything was stopped and marked.
inductive Writes (store : Store) (stops : List ComponentId → ComponentId → Prop) :
    List ComponentId → List Value → List String → Bool → Prop where
  | done (opened : List ComponentId) : Writes store stops opened [] [] false
  | simple (opened : List ComponentId) (value : Value) (rest : List Value) (texts : List String) (marked : Bool)
      (alone : value.isSimple = true) (later : Writes store stops opened rest texts marked) :
      Writes store stops opened (value :: rest) (value.textWith (fun _ => "") :: texts) marked
  | composite (opened : List ComponentId) (kind : CompositeKind) (fields rest : List Value) (inner texts : List String)
      (inMark marked : Bool) (inside : Writes store stops opened fields inner inMark)
      (later : Writes store stops opened rest texts marked) :
      Writes store stops opened (.composite kind fields :: rest) ((kind.name ++ "(" ++ ", ".intercalate inner ++ ")") :: texts)
        (inMark || marked)
  | mark (opened : List ComponentId) (id : ComponentId) (rest : List Value) (texts : List String) (marked : Bool)
      (stopped : stops opened id) (later : Writes store stops opened rest texts marked) :
      Writes store stops opened (.component id :: rest) (cycleMark :: texts) true
  | component (opened : List ComponentId) (id : ComponentId) (rest : List Value) (inner texts : List String)
      (inMark marked : Bool) (free : ¬ stops opened id) (inside : Writes store stops (id :: opened) (store.get id).contents inner inMark)
      (later : Writes store stops opened rest texts marked) :
      Writes store stops opened (.component id :: rest) ((store.get id).layout inner :: texts) (inMark || marked)

-- The writing of a value that stops at whatever component is opened already.
def Shows (store : Store) (value : Value) (text : String) (marked : Bool) : Prop :=
  store.Writes (fun opened id => id ∈ opened) [] [value] [text] marked

-- The writing of a value that stops nowhere: a component is written out wherever it is met.
def ShowsPlainly (store : Store) (value : Value) (text : String) : Prop :=
  store.Writes (fun _ _ => False) [] [value] [text] false

theorem simple_text (value : Value) (alone : value.isSimple = true) (inner : ComponentId → String) :
    value.textWith inner = value.textWith fun _ => "" := by
  cases value with
  | composite | component => cases alone
  | bool b => cases b <;> simp only [Value.textWith]
  | null | int | float | text | reference => simp only [Value.textWith]

theorem texts_with_map (inner : ComponentId → String) (values : List Value) :
    Value.textsWith inner values = values.map (Value.textWith inner) := by
  induction values with
  | nil => rfl
  | cons value rest ih => rw [Value.textsWith, ih, List.map_cons]

theorem component_text_layout (inner : ComponentId → String) (component : Component) :
    componentText inner component = component.layout (Value.textsWith inner component.contents) := by
  obtain ⟨type, fields⟩ := component
  cases fields with
  | nil => rfl
  | cons first rest =>
    rw [componentText, Component.layout, if_neg (List.cons_ne_nil _ _), texts_with_map, Component.contents, Table.keys,
      List.map_map, List.zipWith_map, List.zipWith_self]
    rfl

section Runs

variable {store : Store} {stops : List ComponentId → ComponentId → Prop} {opened : List ComponentId}

theorem Writes.cons {value : Value} {rest : List Value} {text : String} {texts : List String} {inMark marked : Bool}
    (first : store.Writes stops opened [value] [text] inMark) (later : store.Writes stops opened rest texts marked) :
    store.Writes stops opened (value :: rest) (text :: texts) (inMark || marked) := by
  cases first with
  | simple _ _ _ _ _ alone done =>
    cases done
    exact .simple opened value rest texts marked alone later
  | composite _ kind fields _ inner _ inMark _ inside done =>
    cases done
    rw [Bool.or_false]
    exact .composite opened kind fields rest inner texts inMark marked inside later
  | mark _ id _ _ _ stopped done =>
    exact .mark opened id rest texts marked stopped later
  | component _ id _ inner _ inMark _ free inside done =>
    cases done
    rw [Bool.or_false]
    exact .component opened id rest inner texts inMark marked free inside later

-- Values can be written if every component can.
theorem values_written (inner : ComponentId → String)
    (each : ∀ id, ∃ marked, store.Writes stops opened [.component id] [inner id] marked) :
    (values : List Value) → ∃ marked, store.Writes stops opened values (Value.textsWith inner values) marked
  | [] => ⟨false, .done opened⟩
  | value :: rest => by
    obtain ⟨marked, later⟩ := values_written inner each rest
    rw [Value.textsWith]
    cases value with
    | composite kind fields =>
      obtain ⟨inMark, inside⟩ := values_written inner each fields
      rw [Value.textWith]
      exact ⟨_, .composite opened kind fields rest _ _ inMark marked inside later⟩
    | component id =>
      obtain ⟨inMark, first⟩ := each id
      rw [Value.textWith]
      exact ⟨_, first.cons later⟩
    | null | bool | int | float | text | reference =>
      rw [simple_text _ rfl]
      exact ⟨marked, .simple opened _ rest _ marked rfl later⟩

theorem Writes.unique {values : List Value} {texts others : List String} {marked flag : Bool}
    (run : store.Writes stops opened values texts marked) (again : store.Writes stops opened values others flag) :
    texts = others ∧ marked = flag := by
  induction run generalizing others flag with
  | done =>
    cases again
    exact ⟨rfl, rfl⟩
  | simple opened value rest texts marked alone later ih =>
    cases again with
    | simple _ _ _ _ _ _ laterAgain =>
      obtain ⟨rfl, rfl⟩ := ih laterAgain
      exact ⟨rfl, rfl⟩
    | composite | mark | component => cases alone
  | composite opened kind fields rest inner texts inMark marked inside later ihInside ih =>
    cases again with
    | simple _ _ _ _ _ alone _ => cases alone
    | composite _ _ _ _ _ _ _ _ insideAgain laterAgain =>
      obtain ⟨rfl, rfl⟩ := ihInside insideAgain
      obtain ⟨rfl, rfl⟩ := ih laterAgain
      exact ⟨rfl, rfl⟩
  | mark opened id rest texts marked stopped later ih =>
    cases again with
    | simple _ _ _ _ _ alone _ => cases alone
    | mark _ _ _ _ _ _ laterAgain =>
      obtain ⟨rfl, rfl⟩ := ih laterAgain
      exact ⟨rfl, rfl⟩
    | component _ _ _ _ _ _ _ free _ _ => exact absurd stopped free
  | component opened id rest inner texts inMark marked free inside later ihInside ih =>
    cases again with
    | simple _ _ _ _ _ alone _ => cases alone
    | mark _ _ _ _ _ stopped _ => exact absurd stopped free
    | component _ _ _ _ _ _ _ _ insideAgain laterAgain =>
      obtain ⟨rfl, rfl⟩ := ihInside insideAgain
      obtain ⟨rfl, rfl⟩ := ih laterAgain
      exact ⟨rfl, rfl⟩

-- What is marked is opened already, so a path leads from it to itself or to where the writing started.
theorem Writes.marked_meets {values : List Value} {texts : List String} {marked : Bool}
    (run : store.Writes (fun opened id => id ∈ opened) opened values texts marked) (flag : marked = true) :
    ∃ value ∈ values, ∃ first last, value.Names first ∧ Relation.ReflTransGen store.Holds first last ∧
      (last ∈ opened ∨ Relation.TransGen store.Holds last last) := by
  induction run with
  | done => cases flag
  | simple opened value rest texts marked alone later ih =>
    obtain ⟨found, listed, met⟩ := ih flag
    exact ⟨found, List.mem_cons_of_mem _ listed, met⟩
  | composite opened kind fields rest inner texts inMark marked inside later ihInside ih =>
    rcases (Bool.or_eq_true _ _).mp flag with here | there
    · obtain ⟨field, listed, first, last, names, met⟩ := ihInside here
      exact ⟨_, List.mem_cons_self, first, last, .field kind fields field first listed names, met⟩
    · obtain ⟨found, listed, met⟩ := ih there
      exact ⟨found, List.mem_cons_of_mem _ listed, met⟩
  | mark opened id rest texts marked stopped later ih =>
    exact ⟨_, List.mem_cons_self, id, id, .component id, .refl, .inl stopped⟩
  | component opened id rest inner texts inMark marked free inside later ihInside ih =>
    rcases (Bool.or_eq_true _ _).mp flag with here | there
    · obtain ⟨field, listed, first, last, names, path, met⟩ := ihInside here
      have step : store.Holds id first := ⟨field, listed, names⟩
      refine ⟨_, List.mem_cons_self, id, last, .component id, .head step path, ?_⟩
      rcases met with within | around
      · rcases List.mem_cons.mp within with rfl | before
        · exact .inr (.head' step path)
        · exact .inl before
      · exact .inr around
    · obtain ⟨found, listed, met⟩ := ih there
      exact ⟨found, List.mem_cons_of_mem _ listed, met⟩

-- Below what was written without a mark every path comes to an end.
theorem Writes.unmarked_grounded {values : List Value} {texts : List String} {marked : Bool}
    (run : store.Writes stops opened values texts marked) (flag : marked = false) :
    ∀ value ∈ values, ∀ id, value.Names id → Acc (fun below above => store.Holds above below) id := by
  induction run with
  | done => simp
  | simple opened value rest texts marked alone later ih =>
    refine List.forall_mem_cons.mpr ⟨fun id names => ?_, ih flag⟩
    cases names <;> cases alone
  | composite opened kind fields rest inner texts inMark marked inside later ihInside ih =>
    obtain ⟨here, there⟩ := Bool.or_eq_false_iff.mp flag
    refine List.forall_mem_cons.mpr ⟨fun id names => ?_, ih there⟩
    cases names with
    | field _ _ field _ listed names => exact ihInside here field listed id names
  | mark => cases flag
  | component opened id rest inner texts inMark marked free inside later ihInside ih =>
    obtain ⟨here, there⟩ := Bool.or_eq_false_iff.mp flag
    refine List.forall_mem_cons.mpr ⟨fun own names => ?_, ih there⟩
    cases names
    exact .intro id fun below ⟨value, listed, names⟩ => ihInside here value listed below names

-- Where nothing was stopped, it makes no difference what would have been.
theorem Writes.unmarked_plain {values : List Value} {texts : List String} {marked : Bool}
    (run : store.Writes stops opened values texts marked) (flag : marked = false) (others : List ComponentId) :
    store.Writes (fun _ _ => False) others values texts false := by
  induction run generalizing others with
  | done => exact .done others
  | simple opened value rest texts marked alone later ih => exact .simple others value rest texts false alone (ih flag others)
  | composite opened kind fields rest inner texts inMark marked inside later ihInside ih =>
    obtain ⟨here, there⟩ := Bool.or_eq_false_iff.mp flag
    exact .composite others kind fields rest inner texts false false (ihInside here others) (ih there others)
  | mark => cases flag
  | component opened id rest inner texts inMark marked free inside later ihInside ih =>
    obtain ⟨here, there⟩ := Bool.or_eq_false_iff.mp flag
    exact .component others id rest inner texts false false not_false (ihInside here (id :: others)) (ih there others)

end Runs

-- Components that are opened one inside the other: each was created, and none is opened twice.
structure Nested (store : Store) (opened : List ComponentId) : Prop where
  distinct : opened.Nodup
  created : ∀ id ∈ opened, id < store.size

theorem Nested.length_le {store : Store} {opened : List ComponentId} (nested : store.Nested opened) : opened.length ≤ store.size := by
  have among : opened ⊆ List.range store.size := fun id listed => List.mem_range.mpr (nested.created id listed)
  simpa using (List.subperm_of_subset nested.distinct among).length_le

theorem created_of_contents (store : Store) (id : ComponentId) (filled : (store.get id).contents ≠ []) : id < store.size := by
  by_contra beyond
  rw [get_beyond store id (Nat.le_of_not_lt beyond)] at filled
  exact filled rfl

-- The bound on the levels is never met: each level opens one more of the components that were created.
theorem component_written (store : Store) (levels : Nat) (opened : List ComponentId) (nested : store.Nested opened)
    (enough : store.size < levels + opened.length) (id : ComponentId) :
    ∃ marked, store.Writes (fun opened id => id ∈ opened) opened [.component id] [store.textWithin levels opened id] marked := by
  induction levels generalizing opened id with
  | zero =>
    have bound := nested.length_le
    omega
  | succ levels deeper =>
    rw [textWithin]
    by_cases met : id ∈ opened
    · rw [if_pos met]
      exact ⟨true, .mark opened id [] [] false met (.done opened)⟩
    · have inside : ∃ marked, store.Writes (fun opened id => id ∈ opened) (id :: opened) (store.get id).contents
          (Value.textsWith (store.textWithin levels (id :: opened)) (store.get id).contents) marked := by
        by_cases filled : (store.get id).contents = []
        · rw [filled]
          exact ⟨false, .done _⟩
        · have created := created_of_contents store id filled
          have further : store.Nested (id :: opened) :=
            ⟨List.nodup_cons.mpr ⟨met, nested.distinct⟩, List.forall_mem_cons.mpr ⟨created, nested.created⟩⟩
          have left : store.size < levels + (id :: opened).length := by
            rw [List.length_cons]
            omega
          exact values_written _ (deeper (id :: opened) further left) _
      obtain ⟨marked, writes⟩ := inside
      rw [if_neg met, component_text_layout]
      exact ⟨_, .component opened id [] _ [] marked false met writes (.done opened)⟩

theorem text_shows (store : Store) (value : Value) : ∃ marked, store.Shows value (store.text value) marked := by
  have nested : store.Nested [] := ⟨List.nodup_nil, by simp⟩
  exact values_written _ (component_written store (store.size + 1) [] nested (by simp)) [value]

theorem grounded_below (store : Store) (first last : ComponentId)
    (grounded : Acc (fun below above => store.Holds above below) first) (path : Relation.ReflTransGen store.Holds first last) :
    Acc (fun below above => store.Holds above below) last := by
  induction path with
  | refl => exact grounded
  | tail _ step ih => exact ih.inv step

theorem grounded_acyclic (store : Store) (id : ComponentId) (grounded : Acc (fun below above => store.Holds above below) id) :
    ¬ Relation.TransGen store.Holds id id := by
  induction grounded with
  | intro id _ ih =>
    intro around
    obtain ⟨next, step, back⟩ := Relation.TransGen.head'_iff.mp around
    exact ih next step (.tail' back step)

theorem texts_end_and_mark_cycles (store : Store) (value : Value) :
    ∃ marked, (∀ text flag, store.Shows value text flag ↔ text = store.text value ∧ flag = marked) ∧
      (marked = true ↔ ∃ first last, value.Names first ∧ Relation.ReflTransGen store.Holds first last ∧
        Relation.TransGen store.Holds last last) ∧
      (marked = false → ∀ text, store.ShowsPlainly value text ↔ text = store.text value) := by
  obtain ⟨marked, run⟩ := text_shows store value
  refine ⟨marked, fun text flag => ⟨fun shows => ?_, ?_⟩, ⟨fun flag => ?_, ?_⟩, fun flag text => ⟨fun shows => ?_, ?_⟩⟩
  · obtain ⟨texts, same⟩ := Writes.unique shows run
    exact ⟨List.singleton_inj.mp texts, same⟩
  · rintro ⟨rfl, rfl⟩
    exact run
  · obtain ⟨found, listed, first, last, names, path, met⟩ := run.marked_meets flag
    rw [List.mem_singleton.mp listed] at names
    exact ⟨first, last, names, path, met.resolve_left (List.not_mem_nil)⟩
  · rintro ⟨first, last, names, path, around⟩
    by_contra unmarked
    have grounded := run.unmarked_grounded (Bool.eq_false_of_not_eq_true unmarked) value (List.mem_singleton_self value) first names
    exact grounded_acyclic store last (grounded_below store first last grounded path) around
  · exact List.singleton_inj.mp (Writes.unique shows (run.unmarked_plain flag [])).1
  · rintro rfl
    exact run.unmarked_plain flag []

-- Two fields of the box hold one leaf; the ring holds itself inside a composite.
def parts : Store :=
  ⟨[⟨.custom "Box", [("left", .component 1), ("right", .component 1)]⟩, ⟨.custom "Leaf", [("n", .int 1)]⟩,
    ⟨.custom "Ring", [("next", .composite .bounds [.null, .component 2])]⟩]⟩

theorem leaf_is_written_twice :
    parts.ShowsPlainly (.component 0) "Box \x7b left: Leaf \x7b n: 1 \x7d, right: Leaf \x7b n: 1 \x7d \x7d" ∧
      parts.Shows (.component 2) "Ring \x7b next: Bounds(null, <cycle>) \x7d" true := by
  constructor
  · obtain ⟨marked, _, cycles, plain⟩ := texts_end_and_mark_cycles parts (.component 0)
    have leaf : Acc (fun below above => parts.Holds above below) 1 := by
      refine .intro 1 fun below ⟨value, listed, names⟩ => ?_
      obtain rfl := List.mem_singleton.mp (show value ∈ [.int 1] from listed)
      cases names
    have box : Acc (fun below above => parts.Holds above below) 0 := by
      refine .intro 0 fun below ⟨value, listed, names⟩ => ?_
      obtain rfl : value = .component 1 := by simpa using (show value ∈ [.component 1, .component 1] from listed)
      cases names
      exact leaf
    have unmarked : marked = false := by
      rw [Bool.eq_false_iff, ne_eq, cycles]
      rintro ⟨first, last, names, path, around⟩
      cases names
      exact grounded_acyclic parts last (grounded_below parts 0 last box path) around
    exact (plain unmarked _).mpr (by decide +kernel)
  · obtain ⟨marked, shows, cycles, _⟩ := texts_end_and_mark_cycles parts (.component 2)
    have ring : parts.Holds 2 2 :=
      ⟨.composite .bounds [.null, .component 2], List.mem_singleton_self _, .field _ _ (.component 2) 2 (by simp) (.component 2)⟩
    have flag := cycles.mpr ⟨2, 2, .component 2, .refl, .single ring⟩
    exact (shows _ true).mpr ⟨by decide +kernel, flag.symm⟩

end Store

end CommandScript
