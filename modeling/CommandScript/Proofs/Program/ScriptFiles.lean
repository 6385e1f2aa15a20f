import CommandScript.Proofs.Program.Files
import CommandScript.Proofs.Session.Lifecycle
import Mathlib.Data.List.Nodup
import Mathlib.Data.String.Basic

set_option autoImplicit false

namespace CommandScript

namespace Program

section Listing

variable (environment : Environment Id) (directory : String)

theorem is_script_iff (path : String) : (isScriptFile environment path).run = true ↔
    Path.extension? path = some scriptExtension.toList ∧ (environment.isFile path).run = true := by
  rw [isScriptFile]
  split
  · rename_i own
    exact ⟨fun file => ⟨own, file⟩, fun both => both.2⟩
  · rename_i other
    exact ⟨fun never => absurd never Bool.false_ne_true, fun both => absurd both.1 other⟩

theorem keep_scripts_filter (paths : List String) :
    (keepScripts environment paths).run = paths.filter fun path => (isScriptFile environment path).run := by
  induction paths with
  | nil => rfl
  | cons path rest ih =>
    rw [List.filter_cons, ← ih]
    rfl

-- The names of the script files in a directory, in the order in which their scripts are gathered.
def scriptFileNames (names : List String) : List String :=
  (names.mergeSort fun first second => decide (first ≤ second)).filter fun name =>
    (isScriptFile environment (Path.join directory name)).run

theorem scripts_in (names : List String) (listed : (environment.entries directory).run = .ok names) :
    (scriptsIn environment directory).run = .ok ((scriptFileNames environment directory names).map (Path.join directory)) := by
  simp only [scriptsIn, Id.run_bind, listed, Id.run_pure, keep_scripts_filter, List.filter_map]
  rfl

theorem expand_directory (names : List String) (there : (environment.isDirectory directory).run = true)
    (listed : (environment.entries directory).run = .ok names) :
    (expandInputs environment [directory]).run =
      .ok ((scriptFileNames environment directory names).map (Path.join directory)) := by
  have scripts := scripts_in environment directory names listed
  simp only [expandInputs, Id.run_bind, there, if_true, scripts, Id.run_pure, List.append_nil]

theorem mem_script_file_names (names : List String) (name : String) :
    name ∈ scriptFileNames environment directory names ↔
      name ∈ names ∧ (isScriptFile environment (Path.join directory name)).run = true := by
  rw [scriptFileNames, List.mem_filter, List.mem_mergeSort]

theorem sorted_ascending (names : List String) (apart : names.Nodup) :
    (names.mergeSort fun first second => decide (first ≤ second)).Pairwise fun first second => first < second := by
  have sorted := @List.pairwise_mergeSort String (fun first second => decide (first ≤ second))
    (fun first second third => by simpa using le_trans) (fun first second => by simpa using le_total first second) names
  have apartSorted := (List.mergeSort_perm names fun first second => decide (first ≤ second)).nodup_iff.mpr apart
  exact sorted.imp₂ (fun _ _ ordered different => lt_of_le_of_ne (of_decide_eq_true ordered) different) apartSorted

theorem script_file_names_ascending (names : List String) (apart : names.Nodup) :
    (scriptFileNames environment directory names).Pairwise fun first second => first < second :=
  (sorted_ascending names apart).filter _

theorem read_scripts_names (paths : List String) (bundle : Bundle) (read : (readScripts environment paths).run = .ok bundle) :
    bundle.map Prod.fst = paths.map Path.scriptName := by
  induction paths generalizing bundle with
  | nil =>
    obtain rfl := Except.ok.inj read
    rfl
  | cons path rest ih =>
    simp only [readScripts, Id.run_bind] at read
    cases own : textOfFile (environment.read path).run with
    | error text =>
      rw [own] at read
      cases read
    | ok text =>
      rw [own] at read
      simp only [Id.run_bind] at read
      cases others : (readScripts environment rest).run with
      | error text =>
        rw [others] at read
        cases read
      | ok more =>
        rw [others] at read
        obtain rfl := Except.ok.inj read
        rw [List.map_cons, List.map_cons, ih more others]

-- The name of a script file is the name of its script with the extension.
theorem script_file_spelled (name : String) (legal : Path.IsName name.toList)
    (script : (isScriptFile environment (Path.join directory name)).run = true) :
    name.toList = (Path.scriptName (Path.join directory name)).toList ++ '.' :: scriptExtension.toList := by
  have known := Path.file_name_joined directory name legal
  obtain ⟨extension, _⟩ := (is_script_iff environment _).mp script
  rw [Path.extension?, known, Option.bind_some] at extension
  rw [Path.script_name_stem _ _ known]
  exact Path.split_extension_some name.toList _ _ (Prod.ext rfl extension)

end Listing

-- What a directory of entries contributes to a run: `names` are the names of its script files.
structure Contributes (environment : Environment Id) (directory : String) (entries names : List String) : Prop where
  members : ∀ name, name ∈ names ↔ name ∈ entries ∧ (Path.splitExtension name.toList).2 = some scriptExtension.toList ∧
    (environment.isFile (Path.join directory name)).run = true
  fileNames : ∀ name ∈ names, Path.fileName? (Path.join directory name) = some name.toList
  ascending : names.Pairwise fun first second => first < second
  filled : ∀ name ∈ names, Path.scriptName (Path.join directory name) ≠ ""
  apart : (names.map fun name => Path.scriptName (Path.join directory name)).Nodup
  loads : names ≠ [] → ∀ id bundle, (readScripts environment (names.map (Path.join directory))).run = .ok bundle →
    ∃ session, Session.load id bundle = .ok session

theorem contributes (environment : Environment Id) (directory : String) (entries : List String) (apart : entries.Nodup)
    (legal : ∀ name ∈ entries, Path.IsName name.toList) :
    Contributes environment directory entries (scriptFileNames environment directory entries) := by
  have listed {name : String} := mem_script_file_names environment directory entries name
  have ascending := script_file_names_ascending environment directory entries apart
  generalize scriptFileNames environment directory entries = names at listed ascending
  have known (name : String) (member : name ∈ names) : Path.fileName? (Path.join directory name) = some name.toList :=
    Path.file_name_joined directory name (legal name (listed.mp member).1)
  have filled (name : String) (member : name ∈ names) : Path.scriptName (Path.join directory name) ≠ "" :=
    Path.script_name_filled _ _ (known name member) (legal name (listed.mp member).1).filled
  -- All of them have the one extension, so two files with one stem would be one file.
  have distinct : (names.map fun name => Path.scriptName (Path.join directory name)).Nodup := by
    refine List.Nodup.map_on (fun first firstListed second secondListed same => ?_) (ascending.imp ne_of_lt)
    have spelled (name : String) (member : name ∈ names) :=
      script_file_spelled environment directory name (legal name (listed.mp member).1) (listed.mp member).2
    exact String.toList_inj.mp (by rw [spelled first firstListed, spelled second secondListed, same])
  refine ⟨fun name => ?_, known, ascending, filled, distinct, fun some id bundle read => ?_⟩
  · rw [listed, is_script_iff, and_congr_right_iff]
    intro entry
    rw [Path.extension?, Path.file_name_joined directory name (legal name entry), Option.bind_some]
  · apply Session.distinct_loads
    rw [read_scripts_names environment _ bundle read, List.map_map]
    exact ⟨by simpa using some, List.forall_mem_map.mpr filled, distinct⟩

-- A directory can always be loaded as it stands: its scripts come in the order of their files, and no two share a name.
theorem directories_contribute (disk : Disk) (input : Option (List UInt8)) (scriptDir userScriptDir : Option String)
    (directory : String) (entries : List (String × FileTree)) (proper : disk.root.Proper)
    (found : disk.find directory = .found (.directory entries)) :
    ∃ names,
      (expandInputs (disk.environment input scriptDir userScriptDir) [directory]).run = .ok (names.map (Path.join directory)) ∧
      Contributes (disk.environment input scriptDir userScriptDir) directory (Table.keys entries) names := by
  have own := disk.find_proper proper directory _ found
  cases own with
  | directory entries apart legal below =>
    obtain ⟨there, listed⟩ := disk.directory_seen input scriptDir userScriptDir directory entries found
    exact ⟨_, expand_directory _ directory _ there listed, contributes _ directory _ apart legal⟩

-- Scripts among other entries: a name that only begins with a dot has no extension, and a directory is no script.
def mixedEntries : List (String × FileTree) :=
  [("b.sfs", .file []), ("old.sfs", .directory []), ("notes.txt", .file []), ("a.b.sfs", .file []), (".sfs", .file []),
    ("..sfs", .file [])]

def mixedDisk : Disk :=
  ⟨.directory [("work", .directory mixedEntries)], ["work"]⟩

theorem mixed_directory_contributes :
    mixedDisk.root.Proper ∧ mixedDisk.find "." = .found (.directory mixedEntries) ∧
      ∃ names, names.map (Path.join ".") = ["./..sfs", "./a.b.sfs", "./b.sfs"] ∧
        Contributes (mixedDisk.environment none none none) "." (Table.keys mixedEntries) names ∧
        ∃ session, Session.load "cli" [(".", ""), ("a.b", ""), ("b", "")] = .ok session := by
  have empty : (FileTree.directory []).Proper := .directory [] List.nodup_nil (List.forall_mem_nil _) (List.forall_mem_nil _)
  have proper : mixedDisk.root.Proper := by
    refine .directory _ (by decide) (by decide) (List.forall_mem_singleton.mpr (.directory _ (by decide) (by decide) ?_))
    simp only [mixedEntries, List.forall_mem_cons]
    exact ⟨.file [], empty, .file [], .file [], .file [], .file [], List.forall_mem_nil _⟩
  have found : mixedDisk.find "." = .found (.directory mixedEntries) := rfl
  obtain ⟨names, expanded, contributed⟩ := directories_contribute mixedDisk none none none "." mixedEntries proper found
  have same : names.map (Path.join ".") = ["./..sfs", "./a.b.sfs", "./b.sfs"] := by
    have sorted : ((Table.keys mixedEntries).mergeSort fun first second => decide (first ≤ second)) =
        ["..sfs", ".sfs", "a.b.sfs", "b.sfs", "notes.txt", "old.sfs"] := by
      simp [mixedEntries, Table.keys, List.mergeSort]
    have run : (expandInputs (mixedDisk.environment none none none) ["."]).run = .ok ["./..sfs", "./a.b.sfs", "./b.sfs"] := by
      rw [expand_directory _ "." (Table.keys mixedEntries) rfl rfl, scriptFileNames, sorted]
      rfl
    rw [run] at expanded
    exact (Except.ok.inj expanded).symm
  refine ⟨proper, found, names, same, contributed, contributed.loads ?_ "cli" _ ?_⟩
  · rintro rfl
    cases same
  · rw [same]
    rfl

end Program

end CommandScript
