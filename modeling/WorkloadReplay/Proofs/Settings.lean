import Mathlib.Data.List.Nodup
import Mathlib.Data.List.TakeWhile
import WorkloadReplay.Proofs.Entries
import WorkloadReplay.Settings

/-!
# Reading settings that have been written

Settings are written as lines `key=value`, with backslashes and line breaks of the values escaped.
`Settings.readText` reads such a text: it cuts it into lines, each line at its first `=`, and undoes
the escapes of the value. No two options have the same key, for a dot follows the prefixes of the
parameters and no other key has one; so all options are there, in the order of their keys
(`Settings.properties_perm`). Whatever the values are, they are read back. The keys are written as
they are, and the keys of parameters are free: one with an `=` or a line break in it is not read
back, and what stands after its line break is read as another option. So a text is read back exactly
if the keys of the parameters have neither (`Settings.readText_toText_iff`).
-/

namespace WorkloadReplay

/-! ## Parameters as entries -/

namespace Params

/-- A parameter is set in the entry of its key. -/
theorem insertEntry_eq_put (key value : String) (l : List (String × String)) :
    insertEntry key value l = Entries.put key value (fun _ => value) l := by
  induction l with
  | nil => rfl
  | cons y rest ih =>
    obtain ⟨k, v⟩ := y
    unfold insertEntry Entries.put
    rw [ih]
    by_cases h : key = k <;> simp [h]

/-- Parameters are made of entries one after another. -/
theorem entries_ofList (l : List (String × String)) :
    (ofList l).entries = Entries.putAll (·.1) (·.2) (fun x _ => x.2) l := by
  induction l using List.reverseRecOn with
  | nil => rfl
  | append_singleton l x ih =>
    rw [Entries.putAll_append_singleton, ← ih, ← insertEntry_eq_put]
    unfold ofList
    rw [List.foldl_append]
    rfl

end Params

namespace Settings

variable {s : Settings}

/-! ## The options -/

/-- All options under their keys: those of every run, those of the mode, and the parameters of the
database and of the workload. -/
def options (s : Settings) : List (String × String) :=
  s.commonProperties ++ s.modeProperties ++
    s.databaseParams.entries.map (fun (k, v) => ("db." ++ k, v)) ++
    s.workloadParams.entries.map (fun (k, v) => ("workload." ++ k, v))

/-- A key in which neither a line nor a key ends. -/
def PlainKey (key : String) : Prop := '=' ∉ key.toList ∧ '\n' ∉ key.toList

instance (key : String) : Decidable (PlainKey key) :=
  inferInstanceAs (Decidable ('=' ∉ key.toList ∧ '\n' ∉ key.toList))

/-- The keys of the options that every run has. -/
def commonKeys : List String :=
  ["mode", "name", "db", "workload", "operation_count", "duration_ns", "thread_count",
    "max_in_flight", "tolerated_delay_ns", "compression_ratio", "window_ns", "peer_ids",
    "ignore_scheduled_start_times", "results_dir", "results_log", "time_unit",
    "status_interval_ns", "spinner_sleep_ns", "start_delay_ns", "seed", "metrics_queue_capacity",
    "initialization_timeout_ns", "gct_wait_timeout_ns", "drain_grace_ns"]

/-- The keys of the options that a mode may have. -/
def modeKeys : List String := ["validation_params_file", "validation_set_size"]

/-- The options of a mode have some of those keys. -/
theorem keys_modeProperties (s : Settings) : (s.modeProperties.map (·.1)).Sublist modeKeys := by
  unfold modeProperties
  cases s.mode with
  | validateDatabase file => exact List.sublist_append_left ["validation_params_file"] _
  | createValidationParams file setSize => exact List.Sublist.refl _
  | execute => exact List.nil_sublist _
  | validateWorkload => exact List.nil_sublist _
  | calculateStatistics => exact List.nil_sublist _

/-- The keys that are not those of parameters have no dot, no `=` and no line break. -/
theorem plain_of_mem_fixedKeys {key : String} (h : key ∈ commonKeys ++ modeKeys) :
    '.' ∉ key.toList ∧ PlainKey key := by
  revert key
  decide

/-- The keys of parameters, behind the prefix of a component. -/
def prefixedKeys (component : String) (p : Params) : List String :=
  p.entries.map fun x => component ++ "." ++ x.1

/-- The keys of all options. -/
theorem keys_options (s : Settings) : s.options.map (·.1) =
    commonKeys ++ s.modeProperties.map (·.1) ++ prefixedKeys "db" s.databaseParams ++
      prefixedKeys "workload" s.workloadParams := by
  unfold options prefixedKeys
  rw [List.map_append, List.map_append, List.map_append, List.map_map, List.map_map]
  rfl

/-- Parameters with different keys have different keys behind a prefix. -/
theorem nodup_prefixedKeys (component : String) (p : Params) :
    (prefixedKeys component p).Nodup := by
  have hkeys : (p.entries.map (·.1)).Nodup :=
    List.pairwise_map.mpr (List.Pairwise.imp (fun hlt => hlt.ne) p.ordered)
  have hinj : Function.Injective fun key : String => component ++ "." ++ key := fun k k' heq => by
    simpa [← String.toList_inj] using heq
  have hmap : prefixedKeys component p =
      (p.entries.map (·.1)).map fun key => component ++ "." ++ key := by
    rw [List.map_map]
    rfl
  rw [hmap]
  exact hkeys.map hinj

/-- A key behind a prefix has a dot. -/
theorem dot_mem_of_prefixed {component key : String} {p : Params}
    (h : key ∈ prefixedKeys component p) : '.' ∈ key.toList := by
  obtain ⟨x, -, rfl⟩ := List.mem_map.mp h
  simp [String.toList_append]

/-- No two options have the same key. -/
theorem nodup_keys_options (s : Settings) : (s.options.map (·.1)).Nodup := by
  have hfixed : (commonKeys ++ s.modeProperties.map (·.1)).Sublist (commonKeys ++ modeKeys) :=
    (List.Sublist.refl _).append (keys_modeProperties s)
  have hdot : ∀ key ∈ commonKeys ++ s.modeProperties.map (·.1), '.' ∉ key.toList :=
    fun key hkey => (plain_of_mem_fixedKeys (hfixed.subset hkey)).1
  rw [keys_options, List.nodup_append, List.nodup_append]
  refine ⟨⟨(by decide : (commonKeys ++ modeKeys).Nodup).sublist hfixed,
    nodup_prefixedKeys "db" _, fun key hkey key' hkey' heq => ?_⟩,
    nodup_prefixedKeys "workload" _, fun key hkey key' hkey' heq => ?_⟩
  · exact hdot key hkey (heq ▸ dot_mem_of_prefixed hkey')
  · rcases List.mem_append.mp hkey with hkey | hkey
    · exact hdot key hkey (heq ▸ dot_mem_of_prefixed hkey')
    · -- The two components do not begin with the same letter.
      obtain ⟨x, -, rfl⟩ := List.mem_map.mp hkey
      obtain ⟨y, -, rfl⟩ := List.mem_map.mp hkey'
      have hletters := congrArg (·.toList.head?) heq
      simp [String.toList_append] at hletters

/-- Nothing is lost among the options that are written. -/
theorem properties_perm (s : Settings) : s.properties.entries.Perm s.options := by
  have hall : s.properties.entries = Entries.putAll (·.1) (·.2) (fun x _ => x.2) s.options :=
    Params.entries_ofList s.options
  rw [hall]
  exact (Entries.putAll_perm (nodup_keys_options s)).trans
    (List.Perm.of_eq (List.map_id _))

/-! ## Values -/

/-- Undoes the escapes of a value. A backslash before any other character stands for itself. -/
def unescape : List Char → List Char
  | '\\' :: '\\' :: cs => '\\' :: unescape cs
  | '\\' :: 'n' :: cs => '\n' :: unescape cs
  | '\\' :: 'r' :: cs => '\r' :: unescape cs
  | c :: cs => c :: unescape cs
  | [] => []

/-- A character other than a backslash is no escape. -/
theorem unescape_cons {c : Char} (h : c ≠ '\\') (cs : List Char) :
    unescape (c :: cs) = c :: unescape cs := by
  conv_lhs => unfold unescape
  split <;> simp_all

/-- The escapes of a value are undone. -/
theorem unescape_escape (cs : List Char) : unescape (cs.flatMap escapeChar) = cs := by
  induction cs with
  | nil => rfl
  | cons c cs ih =>
    rw [List.flatMap_cons, escapeChar]
    split_ifs with hbackslash hnewline hreturn
    · rw [hbackslash, List.cons_append, List.singleton_append, unescape, ih]
    · rw [hnewline, List.cons_append, List.singleton_append, unescape, ih]
    · rw [hreturn, List.cons_append, List.singleton_append, unescape, ih]
    · rw [List.singleton_append, unescape_cons hbackslash, ih]

/-- An escaped value has no line break. -/
theorem newline_not_mem_escape (cs : List Char) : '\n' ∉ cs.flatMap escapeChar := by
  intro h
  obtain ⟨c, -, hc⟩ := List.mem_flatMap.mp h
  unfold escapeChar at hc
  split_ifs at hc with hbackslash hnewline hreturn
  · simp at hc
  · simp at hc
  · simp at hc
  · exact hnewline (List.mem_singleton.mp hc).symm

/-! ## Lines -/

/-- The lines of a text, each ended by a line break. What follows the last line break is a line,
too, unless there is nothing. -/
def lines : List Char → List (List Char)
  | [] => []
  | c :: cs =>
    if c = '\n' then [] :: lines cs
    else
      match lines cs with
      | [] => [[c]]
      | line :: rest => (c :: line) :: rest

/-- A line break ends the first line. -/
theorem lines_append {line : List Char} (h : '\n' ∉ line) (rest : List Char) :
    lines (line ++ '\n' :: rest) = line :: lines rest := by
  induction line with
  | nil => simp [lines]
  | cons c line ih =>
    rw [List.mem_cons, not_or] at h
    rw [List.cons_append, lines, if_neg (Ne.symm h.1), ih h.2]

/-- The lines of what stands before a line break and of what stands behind it are apart. -/
theorem lines_append_newline (cs rest : List Char) :
    lines (cs ++ '\n' :: rest) = lines (cs ++ ['\n']) ++ lines rest := by
  induction cs with
  | nil => simp [lines]
  | cons c cs ih =>
    rw [List.cons_append, List.cons_append, lines, lines, ih]
    split_ifs with hc
    · rfl
    · -- What stands before the line break has a first line, and the character is part of it.
      have hsome : lines (cs ++ ['\n']) ≠ [] := by
        cases cs with
        | nil => simp [lines]
        | cons d cs => rw [List.cons_append, lines]; split_ifs <;> [simp; (split <;> simp)]
      obtain ⟨first, others, hlines⟩ := List.exists_cons_of_ne_nil hsome
      rw [hlines]
      rfl

/-- A text of lines has these lines. -/
theorem lines_flatMap {α : Type} {line : α → List Char} {l : List α}
    (h : ∀ a ∈ l, '\n' ∉ line a) : lines (l.flatMap fun a => line a ++ ['\n']) = l.map line := by
  induction l with
  | nil => rfl
  | cons a l ih =>
    obtain ⟨hfirst, hrest⟩ := List.forall_mem_cons.mp h
    rw [List.flatMap_cons, List.append_assoc, List.singleton_append, lines_append hfirst, ih hrest,
      List.map_cons]

/-- No line has a line break. -/
theorem newline_not_mem_of_mem_lines {cs line : List Char} (h : line ∈ lines cs) :
    '\n' ∉ line := by
  induction cs generalizing line with
  | nil => simp [lines] at h
  | cons c cs ih =>
    unfold lines at h
    split_ifs at h with hc
    · rcases List.mem_cons.mp h with rfl | h
      · exact List.not_mem_nil
      · exact ih h
    · split at h
      · rw [List.mem_singleton.mp h, List.mem_singleton]
        exact Ne.symm hc
      · rename_i first rest hlines
        rcases List.mem_cons.mp h with rfl | h
        · have hfirst := ih (hlines ▸ List.mem_cons_self)
          simp [Ne.symm hc, hfirst]
        · exact ih (hlines ▸ List.mem_cons_of_mem _ h)

/-- Takes a line apart at its first `=`, and undoes the escapes of what follows. -/
def readLine (line : List Char) : Option (String × String) :=
  match line.dropWhile (· ≠ '=') with
  | _ :: value =>
    some (String.ofList (line.takeWhile (· ≠ '=')), String.ofList (unescape value))
  | [] => none

/-- The options that a text says, line by line. -/
def readText (text : String) : Option (List (String × String)) := (lines text.toList).mapM readLine

/-- The line of an option. -/
def lineOf (x : String × String) : List Char := x.1.toList ++ '=' :: x.2.toList.flatMap escapeChar

/-- A line is read back if its key has no `=`. -/
theorem readLine_lineOf {x : String × String} (h : '=' ∉ x.1.toList) :
    readLine (lineOf x) = some x := by
  have hkey : ∀ c ∈ x.1.toList, decide (c ≠ '=') = true := fun c hc =>
    decide_eq_true fun heq => h (heq ▸ hc)
  unfold readLine lineOf
  rw [List.dropWhile_append_of_pos hkey, List.takeWhile_append_of_pos hkey]
  simp [unescape_escape]

/-- A key that is read has no `=`, and no line break if its line has none. -/
theorem plain_of_readLine {line : List Char} {x : String × String} (h : readLine line = some x)
    (hline : '\n' ∉ line) : PlainKey x.1 := by
  unfold readLine at h
  split at h
  · obtain rfl := Option.some.inj h
    unfold PlainKey
    rw [String.toList_ofList]
    refine ⟨fun heq => ?_, fun hbreak => hline ((List.takeWhile_sublist _).subset hbreak)⟩
    simpa using List.mem_takeWhile_imp heq
  · simp at h

/-- All lines are read, each as one option. -/
theorem mapM_eq_some_iff {α β : Type} {f : α → Option β} {l : List α} {r : List β} :
    l.mapM f = some r ↔ l.map f = r.map some := by
  induction l generalizing r with
  | nil => cases r <;> simp
  | cons a l ih =>
    rw [List.mapM_cons, List.map_cons]
    cases hf : f a with
    | none => cases r <;> simp
    | some b =>
      cases r with
      | nil => cases l.mapM f <;> simp
      | cons b' r =>
        rw [List.map_cons, List.cons.injEq, ← ih]
        cases l.mapM f <;> simp

/-- The text of settings, line by line. -/
theorem toList_toText (s : Settings) :
    s.toText.toList = s.properties.entries.flatMap fun x => lineOf x ++ ['\n'] := by
  unfold toText
  rw [String.toList_join, List.flatMap_map]
  congr 1
  funext x
  simp [lineOf, escape, String.toList_append]

/-- The lines of options are read back exactly if the keys are plain. -/
theorem readLines_iff (l : List (String × String)) :
    (lines (l.flatMap fun x => lineOf x ++ ['\n'])).mapM readLine = some l ↔
      ∀ x ∈ l, PlainKey x.1 := by
  constructor
  · intro h
    -- What is read comes of a line, and no line break is left in that.
    have hread := mapM_eq_some_iff.mp h
    intro x hx
    have hmem : some x ∈ (lines (l.flatMap fun x => lineOf x ++ ['\n'])).map readLine :=
      hread ▸ List.mem_map_of_mem hx
    obtain ⟨line, hline, hreadLine⟩ := List.mem_map.mp hmem
    exact plain_of_readLine hreadLine (newline_not_mem_of_mem_lines hline)
  · intro h
    have hline : ∀ x ∈ l, '\n' ∉ lineOf x := fun x hx => by
      have hkey := (h x hx).2
      have hvalue := newline_not_mem_escape x.2.toList
      simp [lineOf, hkey, hvalue]
    rw [lines_flatMap hline, mapM_eq_some_iff, List.map_map]
    exact List.map_congr_left fun x hx => readLine_lineOf (h x hx).1

/-- What stands behind a line break in a key is read as the key of another option. -/
theorem lineOf_mem_lines {key forged value : String} {l : List (String × String)}
    (hmem : (key ++ "\n" ++ forged, value) ∈ l) (hforged : '\n' ∉ forged.toList) :
    lineOf (forged, value) ∈ lines (l.flatMap fun x => lineOf x ++ ['\n']) := by
  obtain ⟨before, after, rfl⟩ := List.append_of_mem hmem
  have hline : '\n' ∉ lineOf (forged, value) := by
    have hvalue := newline_not_mem_escape value.toList
    simp [lineOf, hforged, hvalue]
  -- The text is cut at the line break in the key.
  have hcut : (before ++ (key ++ "\n" ++ forged, value) :: after).flatMap
      (fun x => lineOf x ++ ['\n']) =
        (before.flatMap (fun x => lineOf x ++ ['\n']) ++ key.toList) ++
          '\n' :: (lineOf (forged, value) ++
            '\n' :: after.flatMap fun x => lineOf x ++ ['\n']) := by
    simp [lineOf, String.toList_append]
  rw [hcut, lines_append_newline, lines_append hline]
  exact List.mem_append_right _ List.mem_cons_self

/-- The keys that are written are those of the options. -/
theorem mem_keys_properties {key : String} :
    key ∈ s.properties.entries.map (·.1) ↔ key ∈ s.options.map (·.1) := by
  have hall : s.properties.entries = Entries.putAll (·.1) (·.2) (fun x _ => x.2) s.options :=
    Params.entries_ofList s.options
  rw [hall, Entries.mem_keys_putAll, List.mem_map]

/-- The keys of all options are plain exactly if those of the parameters are. -/
theorem plain_keys_options_iff : (∀ key ∈ s.options.map (·.1), PlainKey key) ↔
    ∀ x ∈ s.databaseParams.entries ++ s.workloadParams.entries, PlainKey x.1 := by
  have hprefixed : ∀ component, PlainKey component → ∀ p : Params,
      (∀ key ∈ prefixedKeys component p, PlainKey key) ↔ ∀ x ∈ p.entries, PlainKey x.1 := by
    intro component hcomponent p
    have hkey : ∀ key, PlainKey (component ++ "." ++ key) ↔ PlainKey key := fun key => by
      unfold PlainKey at *
      simp [String.toList_append, hcomponent]
    unfold prefixedKeys
    simp only [List.forall_mem_map, hkey]
  have hfixed : ∀ key ∈ commonKeys ++ s.modeProperties.map (·.1), PlainKey key := fun key hkey =>
    (plain_of_mem_fixedKeys
      (((List.Sublist.refl _).append (keys_modeProperties s)).subset hkey)).2
  rw [keys_options, List.forall_mem_append, List.forall_mem_append,
    hprefixed "db" (by decide), hprefixed "workload" (by decide)]
  constructor
  · rintro ⟨⟨-, hdatabase⟩, hworkload⟩
    exact List.forall_mem_append.mpr ⟨hdatabase, hworkload⟩
  · intro h
    obtain ⟨hdatabase, hworkload⟩ := List.forall_mem_append.mp h
    exact ⟨⟨hfixed, hdatabase⟩, hworkload⟩

/-- A text of settings is read back exactly if the keys of their parameters are plain. -/
theorem readText_toText_iff : readText s.toText = some s.properties.entries ↔
    ∀ x ∈ s.databaseParams.entries ++ s.workloadParams.entries, PlainKey x.1 := by
  have hkeys : (∀ x ∈ s.properties.entries, PlainKey x.1) ↔
      ∀ key ∈ s.options.map (·.1), PlainKey key := by
    simp only [← mem_keys_properties, List.forall_mem_map]
  unfold readText
  rw [toList_toText, readLines_iff, hkeys, plain_keys_options_iff]

/-- All options are written in the order of their keys, each once and none lost, and reading the
text gives them back, whatever their values, exactly if no key of a parameter has an `=` or a line
break. -/
theorem properties_readable (s : Settings) :
    Entries.InOrder s.properties.entries ∧ s.properties.entries.Perm s.options ∧
      (readText s.toText = some s.properties.entries ↔
        ∀ x ∈ s.databaseParams.entries ++ s.workloadParams.entries, PlainKey x.1) :=
  ⟨s.properties.ordered, properties_perm s, readText_toText_iff⟩

/-- Settings with parameters whose values have a backslash, line breaks and an `=`. -/
def awkwardValues : Settings where
  databaseParams := Params.ofList [("path", "C:\\new"), ("note", "a=b\r\nseed=7")]
  workloadParams := Params.ofList [("seed", "")]

/-- Awkward values are read back. -/
theorem properties_readable_awkwardValues :
    Entries.InOrder awkwardValues.properties.entries ∧
      awkwardValues.properties.entries.Perm awkwardValues.options ∧
      readText awkwardValues.toText = some awkwardValues.properties.entries := by
  obtain ⟨horder, hperm, hread⟩ := properties_readable awkwardValues
  exact ⟨horder, hperm, hread.mpr (by decide)⟩

/-- Settings with a parameter whose key has a line break. -/
def forgingKey : Settings where
  database := some "memory"
  workload := some "synthetic"
  databaseParams := Params.ofList [("a\nseed", "7")]

/-- A key with a line break is not read back: the text has a line that gives the seed as 7, which
is 42. -/
theorem seed_forged_by_key :
    readText forgingKey.toText ≠ some forgingKey.properties.entries ∧
      "seed=7".toList ∈ lines forgingKey.toText.toList ∧
      forgingKey.properties.get? "seed" = some "42" := by
  refine ⟨fun h => ?_, ?_, by decide +kernel⟩
  · have hplain := readText_toText_iff.mp h
    revert hplain
    decide
  · have hoption : ("db.a" ++ "\n" ++ "seed", "7") ∈ forgingKey.options :=
      List.mem_append_left _ (List.mem_append_right _ (by decide))
    have hmem := (properties_perm forgingKey).mem_iff.mpr hoption
    rw [toList_toText]
    exact lineOf_mem_lines hmem (by decide)

end Settings

end WorkloadReplay
