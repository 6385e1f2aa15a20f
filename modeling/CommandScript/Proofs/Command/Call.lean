import CommandScript.Proofs.Command.RoundTrip

set_option autoImplicit false

namespace CommandScript.Command

-- What follows the first segment of a path.
def dotted (rest : List String) : List Char :=
  rest.flatMap fun key => '.' :: key.toList

theorem join_path_cons (key : String) (rest : List String) : (joinPath (key :: rest)).toList = key.toList ++ dotted rest := by
  induction rest generalizing key with
  | nil => simp [joinPath, dotted]
  | cons next rest ih =>
    have tail := ih next
    rw [joinPath] at tail
    rw [joinPath, String.intercalate_cons_cons, String.toList_append, String.toList_append, tail]
    simp [dotted]

open Writing in
theorem joined_plain (key : String) (rest : List String) (identifiers : ∀ segment ∈ key :: rest, Text.isIdentifier segment.toList = true) :
    Joined '.' SegmentText (key :: rest) (key.toList ++ dotted rest) := by
  induction rest generalizing key with
  | nil =>
    have padded : Padded SegmentText key ([] ++ key.toList ++ []) :=
      .intro key [] key.toList [] rfl ⟨identifiers key List.mem_cons_self, rfl⟩ rfl
    exact .one key _ (by simpa [dotted] using padded)
  | cons next rest ih =>
    have padded : Padded SegmentText key ([] ++ key.toList ++ []) :=
      .intro key [] key.toList [] rfl ⟨identifiers key List.mem_cons_self, rfl⟩ rfl
    have remaining := ih next fun segment member => identifiers segment (List.mem_cons_of_mem key member)
    have joined : Joined '.' SegmentText (key :: next :: rest) _ := .more key _ (next :: rest) _ padded remaining
    simpa [dotted] using joined

theorem path_call_chars (key : String) (rest : List String) (text : String) :
    (joinPath (key :: rest) ++ "(" ++ text ++ ")").toList = key.toList ++ dotted rest ++ '(' :: (text.toList ++ [')']) := by
  simp [join_path_cons]

section

variable (path : List String) (leads : path ≠ []) (identifiers : ∀ segment ∈ path, Text.isIdentifier segment.toList = true)

include leads identifiers

theorem path_call_tight (text : String) : Text.Tight (joinPath path ++ "(" ++ text ++ ")").toList := by
  obtain ⟨key, rest, rfl⟩ := List.exists_cons_of_ne_nil leads
  rw [path_call_chars]
  exact call_tight key key.toList (dotted rest) text.toList ⟨identifiers key List.mem_cons_self, rfl⟩

theorem path_call_trimmed (text : String) :
    Text.trimmed (joinPath path ++ "(" ++ text ++ ")") = joinPath path ++ "(" ++ text ++ ")" := by
  rw [Text.trimmed, Text.trim_tight _ (path_call_tight path leads identifiers text), String.ofList_toList]

-- A path with an argument list behind it is a command without a binding, whatever the list holds.
theorem parse_path_call (text : String) :
    parse (joinPath path ++ "(" ++ text ++ ")") = do
      let tokens ← Arguments.split text.toList
      let arguments ← tokens.mapM Literal.read
      return ⟨path, arguments, none⟩ := by
  have tight := path_call_tight path leads identifiers text
  obtain ⟨key, rest, rfl⟩ := List.exists_cons_of_ne_nil leads
  have joined := joined_plain key rest identifiers
  have unbound : splitBinding (key.toList ++ dotted rest ++ '(' :: (text.toList ++ [')'])) =
      .ok (none, key.toList ++ dotted rest ++ '(' :: (text.toList ++ [')'])) := by
    obtain ⟨nonempty, word⟩ := (Text.identifier_iff _).mp (identifiers key List.mem_cons_self)
    obtain ⟨c, others, spelled⟩ := List.exists_cons_of_ne_nil nonempty
    rw [spelled]
    exact split_binding_absent c (word c (spelled ▸ List.mem_cons_self)) _
  rw [parse, parseChars, Text.trim_tight _ tight]
  rw [path_call_chars] at tight ⊢
  generalize key.toList ++ dotted rest = segments at tight joined unbound ⊢
  simp [tight.ne_nil, unbound, split_call_joined _ _ _ joined, read_path_joined _ _ joined, bind, Except.bind]

end

end CommandScript.Command
