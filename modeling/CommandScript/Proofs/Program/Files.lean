import CommandScript.Program.Run
import CommandScript.Proofs.Table
import CommandScript.Proofs.Text

set_option autoImplicit false

namespace CommandScript

namespace Path

-- The names that the entries of a directory can have.
structure IsName (name : List Char) : Prop where
  filled : name ≠ []
  single : '/' ∉ name
  notHere : name ≠ ['.']
  notAbove : name ≠ ['.', '.']

instance (name : List Char) : Decidable (IsName name) :=
  decidable_of_iff (name ≠ [] ∧ '/' ∉ name ∧ name ≠ ['.'] ∧ name ≠ ['.', '.'])
    ⟨fun legal => ⟨legal.1, legal.2.1, legal.2.2.1, legal.2.2.2⟩,
      fun legal => ⟨legal.filled, legal.single, legal.notHere, legal.notAbove⟩⟩

theorem file_name_last (path : String) (front : List (List Char)) (name : List Char) (legal : IsName name)
    (ends : Text.pieces '/' path.toList = front ++ [name]) : fileName? path = some name := by
  have kept : [name].filter (fun part => part != [] && part != ['.']) = [name] := by
    simp [legal.filled, legal.notHere]
  have last : (parts path).getLast? = some name := by
    rw [parts, ends, List.filter_append, kept, List.getLast?_concat]
  rw [fileName?, last]
  exact if_neg legal.notAbove

theorem pieces_joined (directory name : String) (single : '/' ∉ name.toList) :
    ∃ front, Text.pieces '/' (join directory name).toList = front ++ [name.toList] := by
  have behind (before : List Char) :
      Text.pieces '/' (before ++ '/' :: name.toList) = Text.pieces '/' before ++ [name.toList] := by
    rw [Text.pieces_join, Text.pieces_single '/' _ single]
  by_cases ends : directory.toList.getLast? = some '/'
  · obtain ⟨before, spelled⟩ := List.getLast?_eq_some_iff.mp ends
    rw [join, if_pos ends, String.toList_append, spelled, List.append_assoc, List.singleton_append]
    exact ⟨_, behind before⟩
  · rw [join, if_neg ends, String.toList_append, String.toList_append, List.append_assoc]
    exact ⟨_, behind directory.toList⟩

theorem file_name_joined (directory name : String) (legal : IsName name.toList) :
    fileName? (join directory name) = some name.toList := by
  obtain ⟨front, ends⟩ := pieces_joined directory name legal.single
  exact file_name_last _ front _ legal ends

theorem take_undotted (front rest : List Char) (absent : '.' ∉ front) (stop : rest.takeWhile (· != '.') = []) :
    (front ++ rest).takeWhile (· != '.') = front := by
  have plain : ∀ c ∈ front, (c != '.') = true := by
    intro c member
    rw [bne_iff_ne]
    rintro rfl
    exact absent member
  rw [List.takeWhile_append_of_pos plain, stop, List.append_nil]

-- A name is cut at its last dot if something stands before it.
theorem split_extension_plain (name : List Char) (absent : '.' ∉ name) : splitExtension name = (name, none) := by
  have whole : name.reverse.takeWhile (· != '.') = name.reverse := by
    simpa using take_undotted name.reverse [] (mt List.mem_reverse.mp absent) rfl
  simp [splitExtension, whole]

theorem split_extension_dotted (before extension : List Char) (absent : '.' ∉ extension) :
    splitExtension (before ++ '.' :: extension) =
      if before.isEmpty then (before ++ '.' :: extension, none) else (before, some extension) := by
  have behind : (before ++ '.' :: extension).reverse.takeWhile (· != '.') = extension.reverse := by
    have spelled : (before ++ '.' :: extension).reverse = extension.reverse ++ '.' :: before.reverse := by simp
    rw [spelled]
    exact take_undotted _ _ (mt List.mem_reverse.mp absent) rfl
  have length : (before ++ '.' :: extension).length - extension.length - 1 = before.length := by
    rw [List.length_append, List.length_cons]
    omega
  simp only [splitExtension, behind, List.reverse_reverse, length, List.take_left]

theorem last_dot (name : List Char) (dotted : '.' ∈ name) :
    ∃ before extension, name = before ++ '.' :: extension ∧ '.' ∉ extension := by
  obtain ⟨behind, before, spelled, absent⟩ := List.eq_append_cons_of_mem (List.mem_reverse.mpr dotted)
  refine ⟨before.reverse, behind.reverse, ?_, mt List.mem_reverse.mp absent⟩
  rw [← List.reverse_reverse name, spelled]
  simp

theorem split_extension_some (name stem extension : List Char) (cut : splitExtension name = (stem, some extension)) :
    name = stem ++ '.' :: extension := by
  by_cases dotted : '.' ∈ name
  · obtain ⟨before, behind, rfl, absent⟩ := last_dot name dotted
    rw [split_extension_dotted before behind absent] at cut
    split at cut
    · cases cut
    · cases cut
      rfl
  · rw [split_extension_plain name dotted] at cut
    cases cut

theorem stem_filled (name : List Char) (filled : name ≠ []) : (splitExtension name).1 ≠ [] := by
  by_cases dotted : '.' ∈ name
  · obtain ⟨before, behind, rfl, absent⟩ := last_dot name dotted
    rw [split_extension_dotted before behind absent]
    split
    · exact filled
    · rename_i some
      simpa using some
  · rw [split_extension_plain name dotted]
    exact filled

theorem script_name_stem (path : String) (name : List Char) (known : fileName? path = some name) :
    (scriptName path).toList = (splitExtension name).1 := by
  rw [scriptName, known]
  exact String.toList_ofList

theorem script_name_filled (path : String) (name : List Char) (known : fileName? path = some name) (filled : name ≠ []) :
    scriptName path ≠ "" := by
  intro empty
  have same := script_name_stem path name known
  rw [empty] at same
  exact stem_filled name filled same.symm

end Path

namespace FileTree

-- The files of a system: the entries of a directory have names, each its own, and are listed in any order.
inductive Proper : FileTree → Prop where
  | file (bytes : List UInt8) : Proper (.file bytes)
  | directory (entries : List (String × FileTree)) (apart : (Table.keys entries).Nodup)
      (named : ∀ name ∈ Table.keys entries, Path.IsName name.toList) (below : ∀ entry ∈ entries, Proper entry.2) :
      Proper (.directory entries)

theorem at_proper (tree : FileTree) (proper : tree.Proper) (path : List String) (found : FileTree)
    (there : tree.at? path = some found) : found.Proper := by
  induction path generalizing tree with
  | nil => exact Option.some.inj there ▸ proper
  | cons name rest ih =>
    cases proper with
    | file bytes => cases there
    | directory entries apart named below =>
      rw [at?] at there
      cases known : Table.find? entries name with
      | none =>
        rw [known] at there
        cases there
      | some entry =>
        rw [known] at there
        exact ih entry (below (name, entry) (Table.find_mem entries name entry known)) there

theorem at_append (tree : FileTree) (path more : List String) : tree.at? (path ++ more) = (tree.at? path).bind (·.at? more) := by
  induction path generalizing tree with
  | nil => rfl
  | cons name rest ih =>
    cases tree with
    | file bytes => rfl
    | directory entries =>
      rw [List.cons_append, at?, at?]
      cases Table.find? entries name with
      | none => rfl
      | some entry => exact ih entry

-- Where a walk goes from a place: it stays, goes up, or enters what the part names.
inductive Step (place : List String) (part : String) : List String → Prop where
  | stays : Step place part place
  | up : Step place part place.dropLast
  | enters (filled : part ≠ "") (notHere : part ≠ ".") (notAbove : part ≠ "..") : Step place part (place ++ [part])

theorem walk_step (root : FileTree) (place : List String) (part : String) (rest : List String) (tree : FileTree)
    (found : root.walk place (part :: rest) = .found tree) :
    ∃ entries next, root.at? place = some (.directory entries) ∧ Step place part next ∧ root.walk next rest = .found tree := by
  rw [walk] at found
  split at found
  · cases found
  · cases found
  · rename_i entries here
    split_ifs at found with idle above long known
    · exact ⟨entries, place, here, .stays, found⟩
    · exact ⟨entries, place.dropLast, here, .up, found⟩
    · rw [not_or] at idle
      exact ⟨entries, place ++ [part], here, .enters idle.1 idle.2 above, found⟩

theorem walk_ended (root : FileTree) (place : List String) (tree : FileTree) :
    root.walk place [] = .found tree ↔ root.at? place = some tree := by
  rw [walk]
  cases root.at? place with
  | none =>
    constructor
    · intro never
      cases never
    · intro never
      cases never
  | some own => rw [Lookup.found.injEq, Option.some.injEq]

theorem walk_found (root : FileTree) (place parts : List String) (tree : FileTree) (found : root.walk place parts = .found tree) :
    ∃ path, root.at? path = some tree := by
  induction parts generalizing place with
  | nil => exact ⟨place, (walk_ended root place tree).mp found⟩
  | cons part rest ih =>
    obtain ⟨_, next, _, _, later⟩ := walk_step root place part rest tree found
    exact ih next later

-- Going up from a directory leads to a directory.
theorem no_file_above (root : FileTree) (place : List String) (entries : List (String × FileTree)) (bytes : List UInt8)
    (here : root.at? place = some (.directory entries)) : root.at? place.dropLast ≠ some (.file bytes) := by
  intro above
  rcases List.eq_nil_or_concat place with rfl | ⟨front, name, rfl⟩
  · rw [List.dropLast_nil, here] at above
    cases above
  · rw [List.concat_eq_append, List.dropLast_concat] at above
    rw [List.concat_eq_append, at_append, above] at here
    cases here

-- A path leads to a file only through the file's own name.
theorem file_walked (root : FileTree) (place parts : List String) (bytes : List UInt8) (filled : parts ≠ [])
    (found : root.walk place parts = .found (.file bytes)) :
    ∃ front name, parts = front ++ [name] ∧ name ≠ "" ∧ name ≠ "." ∧ name ≠ ".." := by
  induction parts generalizing place with
  | nil => exact absurd rfl filled
  | cons part rest ih =>
    obtain ⟨entries, next, here, step, later⟩ := walk_step root place part rest _ found
    by_cases last : rest = []
    · subst last
      have there := (walk_ended root next _).mp later
      cases step with
      | stays =>
        rw [here] at there
        cases there
      | up => exact absurd there (no_file_above root place entries bytes here)
      | enters filled notHere notAbove => exact ⟨[], part, rfl, filled, notHere, notAbove⟩
    · obtain ⟨front, name, rfl, proper⟩ := ih next last later
      exact ⟨part :: front, name, rfl, proper⟩

end FileTree

namespace Disk

theorem find_walks (disk : Disk) (path : String) (tree : FileTree) (found : disk.find path = .found tree) :
    ∃ place, disk.root.walk place ((Text.pieces '/' path.toList).map String.ofList) = .found tree := by
  simp only [find] at found
  split_ifs at found
  · exact ⟨[], found⟩
  · exact ⟨disk.workingDirectory, found⟩

theorem find_proper (disk : Disk) (proper : disk.root.Proper) (path : String) (tree : FileTree)
    (found : disk.find path = .found tree) : tree.Proper := by
  obtain ⟨place, walked⟩ := disk.find_walks path tree found
  obtain ⟨there, known⟩ := FileTree.walk_found _ _ _ _ walked
  exact FileTree.at_proper disk.root proper there tree known

theorem find_file_name (disk : Disk) (path : String) (bytes : List UInt8) (found : disk.find path = .found (.file bytes)) :
    ∃ name, Path.fileName? path = some name ∧ name ≠ [] := by
  obtain ⟨place, walked⟩ := disk.find_walks path _ found
  have cut : (Text.pieces '/' path.toList).map String.ofList ≠ [] := by
    simpa using Text.pieces_ne_nil '/' path.toList
  obtain ⟨front, name, ends, filled, notHere, notAbove⟩ := FileTree.file_walked _ _ _ _ cut walked
  obtain ⟨before, last, pieces, _, same⟩ := List.map_eq_append_iff.mp ends
  obtain ⟨own, rest, rfl, rfl, none⟩ := List.map_eq_cons_iff.mp same
  obtain rfl := List.map_eq_nil_iff.mp none
  have legal : Path.IsName own := by
    refine ⟨?_, ?_, ?_, ?_⟩
    · rintro rfl
      exact filled rfl
    · exact Text.separator_not_mem '/' path.toList own (by simp [pieces])
    · rintro rfl
      exact notHere rfl
    · rintro rfl
      exact notAbove rfl
  exact ⟨own, Path.file_name_last path before own legal pieces, legal.filled⟩

section Views

variable (disk : Disk) (input : Option (List UInt8)) (scriptDir userScriptDir : Option String) (path : String)

theorem directory_seen (entries : List (String × FileTree)) (found : disk.find path = .found (.directory entries)) :
    ((disk.environment input scriptDir userScriptDir).isDirectory path).run = true ∧
      ((disk.environment input scriptDir userScriptDir).entries path).run = .ok (Table.keys entries) := by
  simp only [environment, found]
  exact ⟨rfl, rfl⟩

theorem file_seen (bytes : List UInt8) (found : disk.find path = .found (.file bytes)) :
    ((disk.environment input scriptDir userScriptDir).isDirectory path).run = false ∧
      ((disk.environment input scriptDir userScriptDir).read path).run = .ok bytes := by
  simp only [environment, found]
  exact ⟨rfl, rfl⟩

end Views

end Disk

end CommandScript
