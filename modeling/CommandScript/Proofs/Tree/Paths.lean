import CommandScript.Proofs.Command.Call
import CommandScript.Proofs.Execution
import CommandScript.Proofs.Text.Encoding
import CommandScript.Proofs.Tree.Holding

set_option autoImplicit false

namespace CommandScript

namespace Command

theorem join_path_append (path : List String) :
    ∃ lead, ∀ key rest, (joinPath (path ++ key :: rest)).toList = lead ++ (key.toList ++ dotted rest) := by
  cases path with
  | nil => exact ⟨[], join_path_cons⟩
  | cons first others =>
    refine ⟨first.toList ++ dotted others ++ ['.'], fun key rest => ?_⟩
    rw [List.cons_append, join_path_cons]
    simp [dotted]

-- The dot comes before every character of a key, and all of them are ASCII.
theorem word_code (c : Char) (word : Text.isWordChar c = true) : 46 < c.toNat ∧ c.toNat ≤ 127 := by
  rcases (Text.word_iff c).mp word with upper | lower | digit | rfl
  · omega
  · omega
  · omega
  · decide

theorem word_bytes (c : Char) (word : Text.isWordChar c = true) : String.utf8EncodeChar c = [UInt8.ofNat c.toNat] :=
  Text.encoded_ascii c (word_code c word).2

theorem word_byte_value (c : Char) (word : Text.isWordChar c = true) : (UInt8.ofNat c.toNat).toNat = c.toNat :=
  Text.Utf8.byte_value _ (Nat.lt_of_le_of_lt (word_code c word).2 (by decide))

-- Two keys keep their order whatever further segments follow them.
theorem dotted_order (first second : List Char) (others more : List String) (firstWords : ∀ c ∈ first, Text.isWordChar c = true)
    (secondWords : ∀ c ∈ second, Text.isWordChar c = true) (before : List.Lex (· < ·) first second) :
    List.Lex (· < ·) (Text.encode (first ++ dotted others)) (Text.encode (second ++ dotted more)) := by
  induction before with
  | @nil c rest =>
    have word := secondWords c List.mem_cons_self
    rw [List.nil_append, List.cons_append, Text.encode_cons, word_bytes c word]
    cases others with
    | nil => exact .nil
    | cons key keys =>
      apply List.Lex.rel
      rw [UInt8.lt_iff_toNat_lt, word_byte_value c word]
      exact (word_code c word).1
  | @cons c rest longer before ih =>
    rw [List.cons_append, List.cons_append, Text.encode_cons, Text.encode_cons]
    apply List.Lex.append_left
    exact ih (fun d member => firstWords d (List.mem_cons_of_mem c member))
      fun d member => secondWords d (List.mem_cons_of_mem c member)
  | @rel c rest d longer less =>
    have firstWord := firstWords c List.mem_cons_self
    have secondWord := secondWords d List.mem_cons_self
    rw [List.cons_append, List.cons_append, Text.encode_cons, Text.encode_cons, word_bytes c firstWord, word_bytes d secondWord]
    apply List.Lex.rel
    rw [UInt8.lt_iff_toNat_lt, word_byte_value c firstWord, word_byte_value d secondWord]
    exact less

theorem join_path_order (path : List String) (first second : String) (others more : List String)
    (firstKey : Text.isIdentifier first.toList = true) (secondKey : Text.isIdentifier second.toList = true)
    (before : first < second) :
    Text.bytes (joinPath (path ++ first :: others)) < Text.bytes (joinPath (path ++ second :: more)) := by
  obtain ⟨lead, joined⟩ := join_path_append path
  rw [Text.bytes_encoded, Text.bytes_encoded, joined, joined, Text.encode_append lead, Text.encode_append lead]
  apply List.Lex.append_left
  exact dotted_order first.toList second.toList others more ((Text.identifier_iff _).mp firstKey).2
    ((Text.identifier_iff _).mp secondKey).2 (String.lt_iff_toList_lt.mp before)

-- The call of an operation without arguments.
def bareCall (path : String) : String :=
  path ++ "()"

theorem bare_call_empty (path : String) : bareCall path = path ++ "(" ++ "" ++ ")" := by
  rw [bareCall, String.append_empty, String.append_assoc]
  rfl

theorem parse_bare_call (keys : List String) (leads : keys ≠ []) (identifiers : ∀ key ∈ keys, Text.isIdentifier key.toList = true) :
    parse (bareCall (joinPath keys)) = .ok ⟨keys, [], none⟩ := by
  rw [bare_call_empty, parse_path_call keys leads identifiers]
  rfl

theorem bare_call_trimmed (keys : List String) (leads : keys ≠ []) (identifiers : ∀ key ∈ keys, Text.isIdentifier key.toList = true) :
    Text.trimmed (bareCall (joinPath keys)) = bareCall (joinPath keys) := by
  rw [bare_call_empty, path_call_trimmed keys leads identifiers]

end Command

namespace Tree

theorem held_identifiers {α : Type} (tree : Tree α) (wellKeyed : WellKeyed tree) (keys : List String) (leaf : α)
    (held : tree.Holds keys leaf) : ∀ key ∈ keys, Text.isIdentifier key.toList = true := by
  induction held with
  | here leaf => simp
  | inside children key child keys leaf listed held ih =>
    cases wellKeyed with
    | group _ _ identifiers inner =>
      exact List.forall_mem_cons.mpr ⟨identifiers key child listed, ih (inner key child listed)⟩

theorem paths_at_ascending {α : Type} (tree : Tree α) (wellKeyed : WellKeyed tree) (path : List String) :
    (tree.pathsAt path).Pairwise fun first second =>
      Text.bytes (Command.joinPath first) < Text.bytes (Command.joinPath second) := by
  induction wellKeyed generalizing path with
  | operation leaf =>
    rw [pathsAt]
    exact List.pairwise_singleton _ _
  | group children ascending identifiers inner ih =>
    rw [pathsAt, paths_of_children_flat, List.pairwise_flatMap]
    refine ⟨fun entry listed => ih entry.1 entry.2 listed (path ++ [entry.1]), ?_⟩
    refine List.Pairwise.imp_of_mem ?_ ascending
    intro first second firstListed secondListed before keys member others otherMember
    obtain ⟨rest, _, _, rfl⟩ := (mem_paths_at first.2 (inner first.1 first.2 firstListed) _ keys).mp member
    obtain ⟨more, _, _, rfl⟩ := (mem_paths_at second.2 (inner second.1 second.2 secondListed) _ others).mp otherMember
    rw [List.append_assoc, List.append_assoc]
    exact Command.join_path_order path first.1 second.1 rest more (identifiers first.1 first.2 firstListed)
      (identifiers second.1 second.2 secondListed) before

theorem mem_paths {α : Type} (tree : Tree α) (wellKeyed : WellKeyed tree) (path : String) :
    path ∈ tree.paths ↔ ∃ keys leaf, tree.Holds keys leaf ∧ path = Command.joinPath keys := by
  rw [paths, List.mem_map]
  constructor
  · rintro ⟨keys, member, rfl⟩
    obtain ⟨rest, leaf, held, same⟩ := (mem_paths_at tree wellKeyed [] keys).mp member
    exact ⟨rest, leaf, held, by rw [same, List.nil_append]⟩
  · rintro ⟨keys, leaf, held, rfl⟩
    exact ⟨keys, (mem_paths_at tree wellKeyed [] keys).mpr ⟨keys, leaf, held, rfl⟩, rfl⟩

theorem execute_bare_call (tree : Tree Operation) (wellKeyed : WellKeyed tree) (keys : List String) (operation : Operation)
    (held : tree.Holds keys operation) (leads : keys ≠ []) (state : State) :
    state.execute tree (Command.bareCall (Command.joinPath keys)) =
      (⟨Command.bareCall (Command.joinPath keys), ((operation.invoke []).run state.world).1⟩,
        { state with world := ((operation.invoke []).run state.world).2 }) := by
  have identifiers := held_identifiers tree wellKeyed keys operation held
  have read : Command.read (Command.bareCall (Command.joinPath keys)) = .ok ⟨keys, [], none⟩ := by
    rw [Command.read, Command.parse_bare_call keys leads identifiers]
  have routed : tree.dispatch keys [] = operation.invoke [] := by
    rw [dispatch, dispatchFrom, List.drop_zero, ← List.append_nil keys, route_held tree wellKeyed keys [] operation held]
  rw [State.execute, State.execute_with_run, Command.bare_call_trimmed keys leads identifiers,
    State.attempt_run tree none _ _ state read, Context.resolveAll, routed]
  rcases (operation.invoke []).run state.world with ⟨result, world⟩
  cases result with
  | ok value => rfl
  | error fault => rfl

-- The outermost node of a built tree is a namespace, so no operation stands at the empty path.
theorem built_keys {α : Type} (children : List (String × Outline α)) (tree : Tree α) (built : ofChildren children = .ok tree)
    (keys : List String) (leaf : α) (held : tree.Holds keys leaf) : keys ≠ [] := by
  rintro rfl
  obtain ⟨_, rfl⟩ := build_group "" children tree built
  cases held

-- A tree holds what was registered; its listing is sorted and complete, and each line of it, called
-- without arguments, runs the one operation that stands there.
theorem listed_paths_run_their_operations (children : List (String × Outline Operation)) (tree : Tree Operation)
    (built : ofChildren children = .ok tree) :
    (∀ keys operation, tree.Holds keys operation ↔ (Outline.group children).Registers keys operation) ∧
    (tree.paths.Pairwise fun first second => Text.bytes first < Text.bytes second) ∧
    (∀ path, path ∈ tree.paths ↔ ∃ keys operation, tree.Holds keys operation ∧ path = Command.joinPath keys) ∧
    ∀ path ∈ tree.paths, ∃ keys operation, tree.Holds keys operation ∧ path = Command.joinPath keys ∧
      (∀ others another, tree.Holds others another → path = Command.joinPath others → others = keys ∧ another = operation) ∧
      Command.parse (path ++ "()") = .ok ⟨keys, [], none⟩ ∧
      ∀ state : State, state.execute tree (path ++ "()") =
        (⟨path ++ "()", ((operation.invoke []).run state.world).1⟩,
          { state with world := ((operation.invoke []).run state.world).2 }) := by
  have wellKeyed : WellKeyed tree := build_well_keyed "" (.group children) tree built
  have reads (keys : List String) (operation : Operation) (held : tree.Holds keys operation) :
      Command.parse (Command.bareCall (Command.joinPath keys)) = .ok ⟨keys, [], none⟩ :=
    Command.parse_bare_call keys (built_keys children tree built keys operation held)
      (held_identifiers tree wellKeyed keys operation held)
  refine ⟨build_holds "" (.group children) tree built, List.pairwise_map.mpr (paths_at_ascending tree wellKeyed []),
    mem_paths tree wellKeyed, ?_⟩
  intro path listed
  obtain ⟨keys, operation, held, rfl⟩ := (mem_paths tree wellKeyed path).mp listed
  refine ⟨keys, operation, held, rfl, ?_, reads keys operation held, fun state => ?_⟩
  · intro others another otherHeld same
    -- Both paths are what the parser reads from the one text.
    have read := reads others another otherHeld
    rw [← same, reads keys operation held, Except.ok.injEq, Command.mk.injEq] at read
    obtain rfl := read.1
    exact ⟨rfl, held_once tree wellKeyed keys another operation otherHeld held⟩
  · exact execute_bare_call tree wellKeyed keys operation held (built_keys children tree built keys operation held) state

def counter : Operation :=
  ⟨fun arguments => pure (.int (Int64.ofNat arguments.length))⟩

def clockwork : List (String × Outline Operation) :=
  [("Tick", .operation counter), ("Gear_box", .operation counter), ("Gear", .group [("Small", .group [("Teeth", .operation counter)])])]

def gear : Tree Operation :=
  .group [("Small", .group [("Teeth", .operation counter)])]

def clockworkTree : Tree Operation :=
  .group [("Gear", gear), ("Gear_box", .operation counter), ("Tick", .operation counter)]

theorem clockwork_paths_run :
    ofChildren clockwork = .ok clockworkTree ∧ clockworkTree.paths = ["Gear.Small.Teeth", "Gear_box", "Tick"] ∧
      ∀ state : State, state.execute clockworkTree "Gear.Small.Teeth()" = (⟨"Gear.Small.Teeth()", .ok (.int 0)⟩, state) := by
  refine ⟨rfl, rfl, fun state => ?_⟩
  obtain ⟨keys, operation, _, _, only, _, runs⟩ :=
    (listed_paths_run_their_operations clockwork clockworkTree rfl).2.2.2 "Gear.Small.Teeth" List.mem_cons_self
  have teeth : gear.Holds ["Small", "Teeth"] counter :=
    .inside _ "Small" _ _ _ List.mem_cons_self (.inside [("Teeth", .operation counter)] "Teeth" _ _ _ List.mem_cons_self (.here counter))
  obtain ⟨rfl, rfl⟩ := only _ counter (.inside _ "Gear" gear _ _ List.mem_cons_self teeth) rfl
  exact runs state

end Tree

end CommandScript
