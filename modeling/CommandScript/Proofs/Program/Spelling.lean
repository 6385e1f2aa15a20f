import CommandScript.Program.Options
import CommandScript.Proofs.Command.IntegerText

set_option autoImplicit false

namespace CommandScript

namespace Number

-- How a count of 64 bits may be written: digits, and a plus sign may stand before them.
def CountText (s : List Char) (n : UInt64) : Prop :=
  ∃ digits, (s = digits ∨ s = '+' :: digits) ∧ digits ≠ [] ∧ (∀ c ∈ digits, isDigit c = true) ∧ placeValue digits = n.toNat

theorem read_count_iff (s digits : List Char) (n : UInt64) (split : s = '+' :: digits ∨ s = digits ∧ s.head? ≠ some '+') :
    readUInt64 s = some n ↔ (digits ≠ [] ∧ ∀ c ∈ digits, isDigit c = true) ∧ placeValue digits = n.toNat := by
  have reads : readUInt64 s = if isDigits digits ∧ digitsValue digits < UInt64.size then
      some (UInt64.ofNat (digitsValue digits)) else none := by
    rcases split with rfl | ⟨rfl, unsigned⟩
    · rfl
    · unfold readUInt64
      split
      · simp at unsigned
      · rfl
  rw [reads, Option.ite_none_right_eq_some, Option.some_inj, ← digits_iff, place_value_digits, and_assoc]
  refine and_congr_right fun _ => ⟨?_, ?_⟩
  · rintro ⟨fits, rfl⟩
    exact (UInt64.toNat_ofNat_of_lt' fits).symm
  · intro value
    rw [value]
    exact ⟨n.toNat_lt, UInt64.ofNat_toNat⟩

theorem read_uint64_iff (s : List Char) (n : UInt64) : readUInt64 s = some n ↔ CountText s n := by
  constructor
  · intro read
    cases s with
    | nil => cases read
    | cons c rest =>
      by_cases plus : c = '+'
      · subst plus
        obtain ⟨⟨nonempty, all⟩, value⟩ := (read_count_iff _ rest n (.inl rfl)).mp read
        exact ⟨rest, .inr rfl, nonempty, all, value⟩
      · obtain ⟨⟨nonempty, all⟩, value⟩ := (read_count_iff _ _ n (.inr ⟨rfl, by simpa using plus⟩)).mp read
        exact ⟨c :: rest, .inl rfl, nonempty, all, value⟩
  · rintro ⟨digits, rfl | rfl, nonempty, all, value⟩
    · refine (read_count_iff _ _ n (.inr ⟨rfl, fun plus => ?_⟩)).mpr ⟨⟨nonempty, all⟩, value⟩
      exact absurd (all '+' (List.mem_of_head? plus)) (by decide)
    · exact (read_count_iff _ _ n (.inl rfl)).mpr ⟨⟨nonempty, all⟩, value⟩

end Number

-- A time limit is a count of milliseconds; the other flags take any text.
def ValueFlag.Admits : ValueFlag → String → Prop
  | .timeout, text => ∃ n, Number.CountText text.toList n
  | .scriptDir, _ | .command, _ | .script, _ => True

theorem ValueFlag.of_letter_iff (c : Char) (flag : ValueFlag) : ofLetter? c = some flag ↔ c = flag.letter := by
  constructor
  · intro known
    unfold ofLetter? at known
    split at known
    · obtain rfl := Option.some.inj known
      rfl
    · obtain rfl := Option.some.inj known
      rfl
    · obtain rfl := Option.some.inj known
      rfl
    · obtain rfl := Option.some.inj known
      rfl
    · cases known
  · rintro rfl
    cases flag <;> rfl

theorem ValueFlag.letter_no_dash (flag : ValueFlag) : flag.letter ≠ '-' := by
  cases flag <;> decide

namespace Options

inductive Switch where
  | debug
  | list
deriving DecidableEq

def Switch.letter : Switch → Char
  | .debug => 'd'
  | .list => 'l'

theorem Switch.letter_no_dash (switch : Switch) : switch.letter ≠ '-' := by
  cases switch <;> decide

-- What a command line may ask for, one thing after the other.
inductive Item where
  | switch (flag : Switch)
  | value (flag : ValueFlag) (text : String)
  | input (path : String)
deriving DecidableEq

def Item.valueOf? (flag : ValueFlag) : Item → Option String
  | .value own text => if own = flag then some text else none
  | .switch _ | .input _ => none

def Item.path? : Item → Option String
  | .input path => some path
  | .switch _ | .value _ _ => none

def Item.Admitted : Item → Prop
  | .value flag text => flag.Admits text
  | .switch _ | .input _ => True

-- Every flag begins with a dash, but a dash alone is no flag.
def IsBare (argument : String) : Prop :=
  argument = "-" ∨ argument.toList.head? ≠ some '-'

def clusterText (switches : List Switch) (rest : List Char) : String :=
  String.ofList ('-' :: (switches.map Switch.letter ++ rest))

-- How items may be written as arguments. The value of a flag is the rest of its cluster or the whole next argument.
inductive Spells : List Item → List String → Prop where
  | nothing : Spells [] []
  | bare (path : String) (items : List Item) (rest : List String) (plain : IsBare path) (later : Spells items rest) :
      Spells (.input path :: items) (path :: rest)
  | ended (paths : List String) : Spells (paths.map .input) ("--" :: paths)
  | switches (cluster : List Switch) (items : List Item) (rest : List String) (nonempty : cluster ≠ [])
      (later : Spells items rest) : Spells (cluster.map .switch ++ items) (clusterText cluster [] :: rest)
  | embedded (cluster : List Switch) (flag : ValueFlag) (value : String) (items : List Item) (rest : List String)
      (filled : value ≠ "") (admitted : flag.Admits value) (later : Spells items rest) :
      Spells (cluster.map .switch ++ .value flag value :: items) (clusterText cluster (flag.letter :: value.toList) :: rest)
  | separate (cluster : List Switch) (flag : ValueFlag) (value : String) (items : List Item) (rest : List String)
      (admitted : flag.Admits value) (later : Spells items rest) :
      Spells (cluster.map .switch ++ .value flag value :: items) (clusterText cluster [flag.letter] :: value :: rest)

-- The value that the last of the items gives to a flag.
def lastValue (flag : ValueFlag) (items : List Item) : Option String :=
  items.reverse.findSome? (Item.valueOf? flag)

-- Options hold what items ask for, and nothing else.
structure Holds (options : Options) (items : List Item) : Prop where
  debug : options.debug = true ↔ .switch .debug ∈ items
  list : options.list = true ↔ .switch .list ∈ items
  scriptDir : options.scriptDir = lastValue .scriptDir items
  command : options.command = lastValue .command items
  script : options.script = lastValue .script items
  timeout : Option.Rel (fun text n => Number.CountText text.toList n) (lastValue .timeout items) options.timeout
  inputs : options.inputs = items.filterMap Item.path?

def add (options : Options) : Item → Options
  | .switch .debug => { options with debug := true }
  | .switch .list => { options with list := true }
  | .value .scriptDir text => { options with scriptDir := some text }
  | .value .command text => { options with command := some text }
  | .value .script text => { options with script := some text }
  | .value .timeout text => { options with timeout := Number.readUInt64 text.toList }
  | .input path => options.addInputs [path]

def addAll (options : Options) (items : List Item) : Options :=
  items.foldl add options

theorem last_value_append (flag : ValueFlag) (items : List Item) (item : Item) :
    lastValue flag (items ++ [item]) = (item.valueOf? flag).or (lastValue flag items) := by
  rw [lastValue, List.reverse_append, List.reverse_singleton, List.singleton_append, List.findSome?_cons, lastValue]
  cases item.valueOf? flag <;> rfl

theorem add_all_append (options : Options) (items more : List Item) :
    options.addAll (items ++ more) = (options.addAll items).addAll more :=
  List.foldl_append

theorem add_inputs_all (options : Options) (paths : List String) :
    options.addAll (paths.map .input) = options.addInputs paths := by
  induction paths generalizing options with
  | nil => simp [addAll, addInputs]
  | cons path rest ih =>
    change (options.addInputs [path]).addAll (rest.map .input) = _
    rw [ih]
    simp [addInputs]

theorem set_ok_iff (options next : Options) (flag : ValueFlag) (value : String) :
    options.set flag value = .ok next ↔ flag.Admits value ∧ next = options.add (.value flag value) := by
  cases flag with
  | scriptDir | command | script =>
    exact ⟨fun done => ⟨trivial, (Except.ok.inj done).symm⟩, fun done => congrArg Except.ok done.2.symm⟩
  | timeout =>
    rw [set, add]
    cases read : Number.readUInt64 value.toList with
    | none =>
      constructor
      · intro never
        cases never
      · rintro ⟨⟨n, written⟩, _⟩
        rw [(Number.read_uint64_iff _ n).mpr written] at read
        cases read
    | some n =>
      exact ⟨fun done => ⟨⟨n, (Number.read_uint64_iff _ n).mp read⟩, (Except.ok.inj done).symm⟩,
        fun done => congrArg Except.ok done.2.symm⟩

-- How a cluster can be read: switches first, and then perhaps one flag with its value or without.
inductive ReadsCluster (options : Options) : List Char → Options → Option ValueFlag → Prop where
  | switches (cluster : List Switch) :
      ReadsCluster options (cluster.map Switch.letter) (options.addAll (cluster.map .switch)) none
  | embedded (cluster : List Switch) (flag : ValueFlag) (value : List Char) (filled : value ≠ [])
      (admitted : flag.Admits (String.ofList value)) :
      ReadsCluster options (cluster.map Switch.letter ++ flag.letter :: value)
        (options.addAll (cluster.map .switch ++ [.value flag (String.ofList value)])) none
  | pending (cluster : List Switch) (flag : ValueFlag) :
      ReadsCluster options (cluster.map Switch.letter ++ [flag.letter]) (options.addAll (cluster.map .switch)) (some flag)

theorem read_cluster_switch (options : Options) (switch : Switch) (rest : List Char) :
    options.readCluster (switch.letter :: rest) = (options.add (.switch switch)).readCluster rest := by
  cases switch <;> rfl

theorem read_cluster_switches (options : Options) (cluster : List Switch) (rest : List Char) :
    options.readCluster (cluster.map Switch.letter ++ rest) = (options.addAll (cluster.map .switch)).readCluster rest := by
  induction cluster generalizing options with
  | nil => rfl
  | cons switch others ih =>
    rw [List.map_cons, List.cons_append, read_cluster_switch, ih]
    rfl

theorem read_cluster_flag (options : Options) (flag : ValueFlag) (value : List Char) :
    options.readCluster (flag.letter :: value) =
      if value.isEmpty then .ok (options, some flag) else (·, none) <$> options.set flag (String.ofList value) := by
  cases flag <;> rfl

theorem ReadsCluster.add {options next : Options} {cluster : List Char} {flag : Option ValueFlag} (switch : Switch)
    (reads : ReadsCluster (options.add (.switch switch)) cluster next flag) :
    ReadsCluster options (switch.letter :: cluster) next flag := by
  cases reads with
  | switches cluster => exact .switches (switch :: cluster)
  | embedded cluster own value filled admitted => exact .embedded (switch :: cluster) own value filled admitted
  | pending cluster own => exact .pending (switch :: cluster) own

theorem read_cluster_iff (options next : Options) (cluster : List Char) (flag : Option ValueFlag) :
    options.readCluster cluster = .ok (next, flag) ↔ ReadsCluster options cluster next flag := by
  constructor
  · intro read
    fun_induction readCluster options cluster with
    | case1 options =>
      obtain ⟨rfl, rfl⟩ := Prod.mk.inj (Except.ok.inj read)
      exact .switches []
    | case2 options rest ih => exact (ih read).add .debug
    | case3 options rest _ ih => exact (ih read).add .list
    | case4 => cases read
    | case5 options c rest _ _ own known empty =>
      obtain ⟨rfl, rfl⟩ := Prod.mk.inj (Except.ok.inj read)
      rw [(ValueFlag.of_letter_iff c own).mp known, List.isEmpty_iff.mp empty]
      exact .pending [] own
    | case6 options c rest _ _ own known filled =>
      cases done : options.set own (String.ofList rest) with
      | error error =>
        rw [done] at read
        cases read
      | ok after =>
        rw [done] at read
        obtain ⟨rfl, rfl⟩ := Prod.mk.inj (Except.ok.inj read)
        obtain ⟨admitted, rfl⟩ := (set_ok_iff _ _ own _).mp done
        rw [(ValueFlag.of_letter_iff c own).mp known]
        exact .embedded [] own rest (by simpa using filled) admitted
  · intro reads
    cases reads with
    | switches cluster =>
      rw [← List.append_nil (cluster.map _), read_cluster_switches]
      rfl
    | embedded cluster own value filled admitted =>
      rw [read_cluster_switches, read_cluster_flag, if_neg (by simpa using filled), (set_ok_iff _ _ own _).mpr ⟨admitted, rfl⟩,
        add_all_append]
      rfl
    | pending cluster own =>
      rw [read_cluster_switches, read_cluster_flag]
      rfl

theorem ReadsCluster.no_dash {options next : Options} {cluster : List Char} {flag : Option ValueFlag}
    (reads : ReadsCluster options cluster next flag) : String.ofList ('-' :: cluster) ≠ "--" := by
  have letters (switches : List Switch) (rest : List Char) (other : rest.head? ≠ some '-') :
      (switches.map Switch.letter ++ rest).head? ≠ some '-' := by
    cases switches with
    | nil => exact other
    | cons switch others => exact mt Option.some.inj switch.letter_no_dash
  have first : cluster.head? ≠ some '-' := by
    cases reads with
    | switches cluster => simpa using letters cluster [] (by decide)
    | embedded cluster own value _ _ => exact letters cluster (own.letter :: value) (mt Option.some.inj own.letter_no_dash)
    | pending cluster own => exact letters cluster [own.letter] (mt Option.some.inj own.letter_no_dash)
  intro ended
  have same := congrArg String.toList ended
  rw [String.toList_ofList] at same
  rw [(List.cons.inj same).2] at first
  exact first rfl

theorem cluster_some_iff (argument : String) (cluster : List Char) :
    cluster? argument = some cluster ↔ argument = String.ofList ('-' :: cluster) ∧ cluster ≠ [] := by
  constructor
  · intro flags
    unfold cluster? at flags
    split at flags
    · rename_i c rest written
      obtain rfl := Option.some.inj flags
      exact ⟨by rw [← written, String.ofList_toList], List.cons_ne_nil c rest⟩
    · cases flags
  · rintro ⟨rfl, filled⟩
    obtain ⟨c, rest, rfl⟩ := List.exists_cons_of_ne_nil filled
    simp only [cluster?, String.toList_ofList]

theorem cluster_none_iff (argument : String) : cluster? argument = none ↔ IsBare argument := by
  constructor
  · intro none
    rw [IsBare, or_iff_not_imp_right, not_not]
    intro dashed
    obtain ⟨rest, written⟩ := List.head?_eq_some_iff.mp dashed
    have spelled : argument = String.ofList ('-' :: rest) := by rw [← written, String.ofList_toList]
    by_contra more
    have filled : rest ≠ [] := by
      rintro rfl
      exact more spelled
    rw [(cluster_some_iff argument rest).mpr ⟨spelled, filled⟩] at none
    cases none
  · intro bare
    rw [Option.eq_none_iff_forall_ne_some]
    intro cluster flags
    obtain ⟨rfl, filled⟩ := (cluster_some_iff argument cluster).mp flags
    rcases bare with alone | undashed
    · have same := congrArg String.toList alone
      rw [String.toList_ofList] at same
      exact filled (List.cons.inj same).2
    · simp at undashed

section Reading

variable (options next : Options) (cluster : List Char) (rest : List String)

theorem read_from_bare (path : String) (bare : IsBare path) :
    options.readFrom (path :: rest) = (options.add (.input path)).readFrom rest := by
  have going : path ≠ "--" := by
    rintro rfl
    rcases bare with alone | undashed
    · simp at alone
    · simp at undashed
  rw [readFrom, if_neg going, (cluster_none_iff path).mpr bare]
  rfl

theorem read_from_cluster (filled : cluster ≠ []) (reads : ReadsCluster options cluster next none) :
    options.readFrom (String.ofList ('-' :: cluster) :: rest) = next.readFrom rest := by
  rw [readFrom, if_neg reads.no_dash, (cluster_some_iff _ cluster).mpr ⟨rfl, filled⟩]
  simp only [(read_cluster_iff _ _ _ _).mpr reads]

theorem read_from_pending (flag : ValueFlag) (value : String) (admitted : flag.Admits value)
    (reads : ReadsCluster options cluster next (some flag)) :
    options.readFrom (String.ofList ('-' :: cluster) :: value :: rest) = (next.add (.value flag value)).readFrom rest := by
  have filled : cluster ≠ [] := by
    cases reads
    simp
  rw [readFrom, if_neg reads.no_dash, (cluster_some_iff _ cluster).mpr ⟨rfl, filled⟩]
  simp only [(read_cluster_iff _ _ _ _).mpr reads, (set_ok_iff _ _ flag value).mpr ⟨admitted, rfl⟩]

end Reading

-- What reads a spelling does to the options is to add its items one by one.
theorem read_from_spelled (items : List Item) (arguments : List String) (spells : Spells items arguments) (options : Options) :
    options.readFrom arguments = .ok (options.addAll items) := by
  induction spells generalizing options with
  | nothing => rfl
  | bare path items rest plain later ih =>
    rw [read_from_bare options rest path plain, ih]
    rfl
  | ended paths =>
    rw [add_inputs_all]
    rfl
  | switches cluster items rest nonempty later ih =>
    rw [clusterText, List.append_nil, read_from_cluster options _ _ rest (by simpa using nonempty) (.switches cluster), ih,
      add_all_append]
  | embedded cluster flag value items rest filled admitted later ih =>
    have admittedText : flag.Admits (String.ofList value.toList) := by rwa [String.ofList_toList]
    have reads : ReadsCluster options _ _ none := .embedded cluster flag value.toList (by simpa using filled) admittedText
    rw [clusterText, read_from_cluster options _ _ rest (by simp) reads, ih, ← add_all_append, String.ofList_toList,
      List.append_assoc]
    rfl
  | separate cluster flag value items rest admitted later ih =>
    rw [clusterText, read_from_pending options _ _ rest flag value admitted (.pending cluster flag), ih, add_all_append]
    rfl

theorem spelled_of_read (arguments : List String) (options final : Options) (read : options.readFrom arguments = .ok final) :
    ∃ items, Spells items arguments := by
  fun_induction readFrom options arguments with
  | case1 => exact ⟨[], .nothing⟩
  | case2 options rest => exact ⟨rest.map .input, .ended rest⟩
  | case3 options argument rest _ plain ih =>
    obtain ⟨items, later⟩ := ih read
    exact ⟨.input argument :: items, .bare argument items rest ((cluster_none_iff argument).mp plain) later⟩
  | case4 => cases read
  | case5 options argument rest _ cluster flags next done ih =>
    obtain ⟨items, later⟩ := ih read
    obtain ⟨rfl, nonempty⟩ := (cluster_some_iff argument cluster).mp flags
    cases (read_cluster_iff _ _ _ _).mp done with
    | switches cluster =>
      refine ⟨cluster.map .switch ++ items, ?_⟩
      have spelled := Spells.switches cluster items rest (by simpa using nonempty) later
      rwa [clusterText, List.append_nil] at spelled
    | embedded cluster flag value filled admitted =>
      refine ⟨cluster.map .switch ++ .value flag (String.ofList value) :: items, ?_⟩
      have spelled := Spells.embedded cluster flag (String.ofList value) items rest (by simpa using filled) admitted later
      rwa [clusterText, String.toList_ofList] at spelled
  | case6 => cases read
  | case7 => cases read
  | case8 options argument _ cluster flags next flag done value rest after set ih =>
    obtain ⟨items, later⟩ := ih read
    obtain ⟨rfl, _⟩ := (cluster_some_iff argument cluster).mp flags
    obtain ⟨admitted, _⟩ := (set_ok_iff _ _ flag value).mp set
    cases (read_cluster_iff _ _ _ _).mp done with
    | pending cluster => exact ⟨_, .separate cluster flag value items rest admitted later⟩

theorem spelled_admitted (items : List Item) (arguments : List String) (spells : Spells items arguments) :
    ∀ item ∈ items, item.Admitted := by
  have switched (cluster : List Switch) : ∀ item ∈ cluster.map Item.switch, item.Admitted :=
    List.forall_mem_map.mpr fun _ _ => trivial
  induction spells with
  | nothing => exact List.forall_mem_nil _
  | bare path items rest plain later ih => exact List.forall_mem_cons.mpr ⟨trivial, ih⟩
  | ended paths => exact List.forall_mem_map.mpr fun _ _ => trivial
  | switches cluster items rest nonempty later ih => exact List.forall_mem_append.mpr ⟨switched cluster, ih⟩
  | embedded cluster flag value items rest filled admitted later ih =>
    exact List.forall_mem_append.mpr ⟨switched cluster, List.forall_mem_cons.mpr ⟨admitted, ih⟩⟩
  | separate cluster flag value items rest admitted later ih =>
    exact List.forall_mem_append.mpr ⟨switched cluster, List.forall_mem_cons.mpr ⟨admitted, ih⟩⟩

section Adding

variable (options : Options) (item : Item)

theorem add_switches : ((options.add item).debug = true ↔ options.debug = true ∨ .switch .debug = item) ∧
    ((options.add item).list = true ↔ options.list = true ∨ .switch .list = item) := by
  rcases item with flag | ⟨flag, text⟩ | path
  · cases flag <;> simp [add]
  · cases flag <;> simp [add]
  · simp [add, addInputs]

-- The texts that a flag takes as they are replace the one before.
theorem add_texts : (options.add item).scriptDir = (item.valueOf? .scriptDir).or options.scriptDir ∧
    (options.add item).command = (item.valueOf? .command).or options.command ∧
    (options.add item).script = (item.valueOf? .script).or options.script := by
  rcases item with flag | ⟨flag, text⟩ | path
  · cases flag <;> exact ⟨rfl, rfl, rfl⟩
  · cases flag <;> exact ⟨rfl, rfl, rfl⟩
  · exact ⟨rfl, rfl, rfl⟩

theorem add_timeout : (options.add item).timeout =
    ((item.valueOf? .timeout).map fun text => Number.readUInt64 text.toList).getD options.timeout := by
  rcases item with flag | ⟨flag, text⟩ | path
  · cases flag <;> rfl
  · cases flag <;> rfl
  · rfl

theorem add_paths : (options.add item).inputs = options.inputs ++ item.path?.toList := by
  rcases item with flag | ⟨flag, text⟩ | path
  · cases flag <;> exact (List.append_nil _).symm
  · cases flag <;> exact (List.append_nil _).symm
  · rfl

end Adding

theorem value_of_some (flag : ValueFlag) (item : Item) (text : String) (given : item.valueOf? flag = some text) :
    item = .value flag text := by
  cases item with
  | switch | input => cases given
  | value own other =>
    rw [Item.valueOf?, Option.ite_none_right_eq_some] at given
    obtain ⟨rfl, same⟩ := given
    rw [Option.some.inj same]

-- One more item changes what it asks for and keeps everything else.
theorem Holds.add {options : Options} {items : List Item} (holds : Holds options items) (item : Item) (admitted : item.Admitted) :
    Holds (options.add item) (items ++ [item]) where
  debug := by rw [(add_switches options item).1, holds.debug, List.mem_append, List.mem_singleton]
  list := by rw [(add_switches options item).2, holds.list, List.mem_append, List.mem_singleton]
  scriptDir := by rw [(add_texts options item).1, holds.scriptDir, last_value_append]
  command := by rw [(add_texts options item).2.1, holds.command, last_value_append]
  script := by rw [(add_texts options item).2.2, holds.script, last_value_append]
  timeout := by
    rw [add_timeout, last_value_append]
    cases given : item.valueOf? .timeout with
    | none => exact holds.timeout
    | some text =>
      obtain rfl := value_of_some .timeout item text given
      obtain ⟨n, written⟩ := admitted
      rw [Option.map_some, Option.getD_some, (Number.read_uint64_iff _ n).mpr written]
      exact .some written
  inputs := by
    rw [add_paths, holds.inputs, List.filterMap_append, List.filterMap_cons, List.filterMap_nil]
    cases item.path? <;> rfl

theorem holds_all (items : List Item) (admitted : ∀ item ∈ items, item.Admitted) : Holds (({} : Options).addAll items) items := by
  induction items using List.reverseRecOn with
  | nil => exact ⟨by simp [addAll], by simp [addAll], rfl, rfl, rfl, .none, rfl⟩
  | append_singleton items item ih =>
    rw [add_all_append]
    exact (ih fun other listed => admitted other (List.mem_append_left _ listed)).add item (admitted item (by simp))

-- A command line is read exactly if it is a way to write some items, and then the options hold what the items ask for.
theorem options_hold_what_is_written (arguments : List String) :
    (∀ items, Spells items arguments → ∃ options, parse arguments = .ok options ∧ Holds options items) ∧
      ((¬ ∃ items, Spells items arguments) → ∃ error, parse arguments = .error error) := by
  constructor
  · intro items spells
    exact ⟨_, read_from_spelled items arguments spells {}, holds_all items (spelled_admitted items arguments spells)⟩
  · intro unwritten
    cases read : parse arguments with
    | ok options => exact absurd (spelled_of_read arguments {} options read) unwritten
    | error error => exact ⟨error, rfl⟩

-- A value in its cluster, one that looks like the end of the flags, a number with a sign and zeros, and an input that looks
-- like a flag; and a number below zero.
theorem crowded_line_is_read :
    Spells [.switch .debug, .value .scriptDir "a", .value .scriptDir "--", .input "-", .switch .list, .value .timeout "+0250", .input "-d"]
        ["-dLa", "-L", "--", "-", "-lt", "+0250", "--", "-d"] ∧
      (∃ options, parse ["-dLa", "-L", "--", "-", "-lt", "+0250", "--", "-d"] = .ok options ∧ options.scriptDir = some "--" ∧
        options.debug = true ∧ options.inputs = ["-", "-d"]) ∧
      (¬ ∃ items, Spells items ["-t", "-1"]) ∧ ∃ error, parse ["-t", "-1"] = .error error := by
  have count : Number.CountText "+0250".toList 250 :=
    ⟨"0250".toList, .inr rfl, by decide, List.all_eq_true.mp (by decide), rfl⟩
  have spells : Spells _ ["-dLa", "-L", "--", "-", "-lt", "+0250", "--", "-d"] :=
    .embedded [.debug] .scriptDir "a" _ _ (by decide) trivial <| .separate [] .scriptDir "--" _ _ trivial <|
      .bare "-" _ _ (.inl rfl) <| .separate [.list] .timeout "+0250" _ _ ⟨250, count⟩ <| .ended ["-d"]
  obtain ⟨options, read, holds⟩ := (options_hold_what_is_written _).1 _ spells
  have unwritten : ¬ ∃ items, Spells items ["-t", "-1"] := by
    rintro ⟨items, spelled⟩
    obtain ⟨_, never, _⟩ := (options_hold_what_is_written _).1 items spelled
    cases never
  exact ⟨spells, ⟨options, read, holds.scriptDir, holds.debug.mpr (by decide), holds.inputs⟩, unwritten,
    (options_hold_what_is_written _).2 unwritten⟩

end Options

end CommandScript
