import Mathlib.Data.List.Nodup
import Mathlib.Logic.Function.Basic
import Mathlib.Tactic.SplitIfs
import WorkloadReplay.KeyValueStore
import WorkloadReplay.Proofs.Synthetic.Payload

/-!
# The store and the plain map it stands for

A `KeyMap` gives each whole number a value or none, and `KeyMap.execute` says what key/value
operations mean to it: there is no greatest key, and a range of keys ends where it ends. A store
that is loaded with some records and then executes operations one after another holds what the map
holds (`holds_after`), by induction on the operations, one case for each way in which an operation
is executed (`execute_cases`).

Its answers are those of the map, but for one: the range of a scan ends before the greatest key of
64 bits at the latest, so that key is never in a scan, though it can be read and updated
(`execute_refines`). It takes an update to give that key a value, since no number of records reaches
up to it.
-/

namespace WorkloadReplay

/-! ## Numbers that are read -/

namespace Text

/-- Digits are read up to a limit. -/
theorem readDigits_le {limit n m : Nat} {beyond : NumeralError} {cs : List Char} (hn : n ≤ limit)
    (h : readDigits limit beyond n cs = .ok m) : m ≤ limit := by
  induction cs generalizing n with
  | nil => exact Except.ok.inj h ▸ hn
  | cons c cs ih =>
    rw [readDigits] at h
    split at h
    · simp at h
    · split_ifs at h with hlimit
      exact ih (Nat.le_of_not_lt hlimit) h

/-- A number that is read does not exceed its limit. -/
theorem readNat_le {limit n : Nat} {s : String} (h : readNat limit s = .ok n) : n ≤ limit := by
  unfold readNat at h
  split at h
  · simp at h
  · simp at h
  · exact readDigits_le (Nat.zero_le limit) h
  · exact readDigits_le (Nat.zero_le limit) h

end Text

/-- A parameter that is read as a number does not exceed the limit of its reader, if its default
does not. -/
theorem Params.parseOr_le {p : Params} {limit absent n : Nat} {key : String}
    (h : p.parseOr (Text.readNat limit) key absent = .ok n) (habsent : absent ≤ limit) :
    n ≤ limit := by
  unfold parseOr parse at h
  split at h
  · exact Except.ok.inj h ▸ habsent
  · split at h
    · rename_i hread
      exact Except.ok.inj h ▸ Text.readNat_le hread
    · simp [Except.map] at h

/-! ## Plain maps -/

/-- An operation is a scan, with the arguments of one. -/
def Operation.IsScan (op : Operation KeyValuePayload) (start limit : Nat) : Prop :=
  op.operationType = "scan" ∧ op.payload = .scan start limit

/-- A value or none for each whole number. -/
abbrev KeyMap := Nat → Option String

namespace KeyMap

open KeyValueStore (maxKey)

/-- The keys below a number, each with its initial value. -/
def initial (n : Nat) : KeyMap := fun key =>
  if key < n then some ("initial-" ++ toString key) else none

/-- The keys from `start` on and below `start + limit` that have a value, in order, with their
values. -/
def range (m : KeyMap) (start limit : Nat) : List (Nat × String) :=
  (List.range' start limit).filterMap fun key => (m key).map (key, ·)

/-- The answer of a scan that has found some keys with their values. -/
def scanAnswer (start : Nat) (rows : List (Nat × String)) : Json :=
  .obj [("rows", .arr (rows.map fun (key, value) =>
    .obj [("key", Json.nat key), ("value", .str value)])), ("start_key", Json.nat start)]

/-- An answer of a scan tells how many keys have been found. -/
theorem length_of_scanAnswer {start : Nat} {rows rows' : List (Nat × String)}
    (h : scanAnswer start rows = scanAnswer start rows') : rows.length = rows'.length := by
  have hfields := (List.cons.inj (Json.obj.inj h)).1
  have hitems := Json.arr.inj (Prod.mk.inj hfields).2
  simpa using congrArg List.length hitems

/-- What an operation does: its answer, and the map after it. An operation of another type, or whose
arguments are not those of its type, is refused and does nothing. -/
def execute (op : Operation KeyValuePayload) (m : KeyMap) : Except DatabaseError Json × KeyMap :=
  match op.operationType, op.payload with
  | "read", .read key =>
    (.ok (.obj [("key", Json.nat key), ("value", ((m key).map Json.str).getD .null)]), m)
  | "update", .update key value =>
    (.ok (.obj [("created", .bool (m key).isNone), ("key", Json.nat key)]),
      Function.update m key (some value))
  | "scan", .scan start limit => (.ok (scanAnswer start (m.range start limit)), m)
  | operationType, payload =>
    if operationType ∈ ["read", "update", "scan"] then
      (.error (.execution operationType ("unexpected payload " ++ payload.describe)), m)
    else (.error (.unsupported operationType), m)

/-- The map after operations one after another. -/
def after (ops : List (Operation KeyValuePayload)) (m : KeyMap) : KeyMap :=
  ops.foldl (fun m op => (m.execute op).2) m

/-- An operation is a scan over the greatest key of 64 bits, which has a value. -/
def Overlooks (m : KeyMap) (op : Operation KeyValuePayload) : Prop :=
  ∃ start limit, op.IsScan start limit ∧ start ≤ maxKey ∧ maxKey < start + limit ∧
    (m maxKey).isSome = true

/-- Keys of more than 64 bits have no value. -/
def Bounded (m : KeyMap) : Prop := ∀ key, maxKey < key → m key = none

variable {m : KeyMap} {op : Operation KeyValuePayload}

theorem mem_range {start limit key : Nat} {value : String} :
    (key, value) ∈ m.range start limit ↔
      (start ≤ key ∧ key < start + limit) ∧ m key = some value := by
  unfold range
  rw [List.mem_filterMap]
  constructor
  · rintro ⟨k, hk, hvalue⟩
    obtain ⟨v, hv, heq⟩ := Option.map_eq_some_iff.mp hvalue
    obtain ⟨rfl, rfl⟩ := Prod.mk.inj heq
    exact ⟨List.mem_range'_1.mp hk, hv⟩
  · rintro ⟨hkey, hvalue⟩
    exact ⟨key, List.mem_range'_1.mpr hkey, by rw [hvalue]; rfl⟩

theorem pairwise_range (m : KeyMap) (start limit : Nat) :
    (m.range start limit).Pairwise (·.1 < ·.1) := by
  refine List.Pairwise.filterMap _ (fun k k' hlt a ha b hb => ?_) (List.pairwise_lt_range' 1)
  obtain ⟨v, -, rfl⟩ := Option.map_eq_some_iff.mp ha
  obtain ⟨v', -, rfl⟩ := Option.map_eq_some_iff.mp hb
  exact hlt

/-- A list of keys with their values, in order, is a range if it has the same keys. -/
theorem eq_range {start limit : Nat} {rows : List (Nat × String)}
    (hordered : rows.Pairwise (·.1 < ·.1))
    (hmem : ∀ key value, (key, value) ∈ rows ↔
      (start ≤ key ∧ key < start + limit) ∧ m key = some value) : rows = m.range start limit := by
  have hnodup : ∀ {l : List (Nat × String)}, l.Pairwise (·.1 < ·.1) → l.Nodup :=
    fun hl => hl.imp fun hlt heq => Nat.ne_of_lt hlt (congrArg Prod.fst heq)
  refine List.Perm.eq_of_pairwise (fun a b _ _ hab hba => absurd hab (Nat.lt_asymm hba)) hordered
    (pairwise_range m start limit) ?_
  rw [List.perm_ext_iff_of_nodup (hnodup hordered) (hnodup (pairwise_range m start limit))]
  exact fun ⟨key, value⟩ => (hmem key value).trans mem_range.symm

/-- An operation whose arguments fit leaves keys of more than 64 bits without a value. -/
theorem Bounded.execute (h : m.Bounded) (hop : op.payload.Fits) : (m.execute op).2.Bounded := by
  intro key hkey
  unfold KeyMap.execute
  split
  · exact h key hkey
  · rename_i updated value _ hpayload
    rw [hpayload] at hop
    have hne : key ≠ updated := by
      simp only [KeyValuePayload.Fits, maxKey] at hop hkey
      omega
    exact (Function.update_of_ne hne (some value) m).trans (h key hkey)
  · exact h key hkey
  · split <;> exact h key hkey

/-- Only a key that has a value is missing in the range that ends before it. -/
theorem Bounded.range_overlooked (h : m.Bounded) {start limit : Nat} (hstart : start ≤ maxKey)
    (hend : maxKey < start + limit) : m.range start limit =
      m.range start (maxKey - start) ++ (m maxKey).toList.map (maxKey, ·) := by
  obtain ⟨more, rfl⟩ : ∃ more, limit = maxKey - start + (1 + more) :=
    ⟨limit - (maxKey - start) - 1, by omega⟩
  have hbeyond : (List.range' (maxKey + 1) more).filterMap
      (fun key => (m key).map (key, ·)) = [] := by
    rw [List.filterMap_eq_nil_iff]
    intro key hkey
    rw [h key (Nat.lt_of_succ_le (List.mem_range'_1.mp hkey).1), Option.map_none]
  have hsplit : List.range' start (maxKey - start + (1 + more)) =
      List.range' start (maxKey - start) ++ ([maxKey] ++ List.range' (maxKey + 1) more) := by
    rw [← List.range'_append_1, ← List.range'_append_1, Nat.add_sub_cancel' hstart]
    rfl
  unfold range
  rw [hsplit, List.filterMap_append, List.filterMap_append, hbeyond, List.append_nil]
  cases hvalue : m maxKey <;> simp [hvalue]

/-- Any other range ends before the greatest key in any case, or has no value there. -/
theorem Bounded.range_min (h : m.Bounded) {start limit : Nat}
    (hseen : ¬ (start ≤ maxKey ∧ maxKey < start + limit ∧ (m maxKey).isSome = true)) :
    m.range start (min limit (maxKey - start)) = m.range start limit := by
  by_cases hstart : start ≤ maxKey
  · by_cases hend : maxKey < start + limit
    · have hnone : m maxKey = none := by simpa [hstart, hend] using hseen
      rw [h.range_overlooked hstart hend, hnone, Nat.min_eq_right (by omega)]
      simp
    · rw [Nat.min_eq_left (by omega)]
  · -- All keys of the range have more than 64 bits.
    have hempty : ∀ n, m.range start n = [] := by
      intro n
      rw [range, List.filterMap_eq_nil_iff]
      intro key hkey
      rw [h key (Nat.lt_of_lt_of_le (Nat.lt_of_not_le hstart) (List.mem_range'_1.mp hkey).1),
        Option.map_none]
    rw [hempty, hempty]

end KeyMap

/-! ## The store -/

namespace KeyValueStore

variable {s : KeyValueStore} {m : KeyMap} {op : Operation KeyValuePayload}

/-- A store has the values of a map. -/
def Holds (s : KeyValueStore) (m : KeyMap) : Prop := ∀ key, s.get? key = m key

theorem get?_empty (key : Nat) : empty.get? key = none := Std.TreeMap.getElem?_emptyc

theorem get?_insert (s : KeyValueStore) (key : Nat) (value : String) (k : Nat) :
    (s.insert key value).get? k = if key = k then some value else s.get? k := by
  simp only [get?, insert, Std.TreeMap.getElem?_insert, Nat.compare_eq_eq]

/-- Setting a value in the store sets it in the map. -/
theorem Holds.insert (h : s.Holds m) (key : Nat) (value : String) :
    (s.insert key value).Holds (Function.update m key (some value)) := by
  intro k
  rw [get?_insert, Function.update_apply, h k]
  simp [eq_comm]

/-- A store that has been loaded holds the initial map. -/
theorem holds_loaded (n : Nat) : (loaded n).Holds (KeyMap.initial n) := by
  induction n with
  | zero => exact get?_empty
  | succ n ih =>
    intro k
    have hloaded : loaded (n + 1) = (loaded n).insert n (initialValue n) := by
      simp [loaded, List.range_succ]
    rw [hloaded, get?_insert, ih k, KeyMap.initial, KeyMap.initial]
    by_cases hlast : n = k
    · rw [if_pos hlast, if_pos (by omega), initialValue, hlast]
    · have hbelow : k < n + 1 ↔ k < n := by omega
      rw [if_neg hlast]
      simp only [hbelow]

/-- A scan gives the range of the map that ends before the greatest key at the latest. -/
theorem Holds.scan_eq (h : s.Holds m) (start limit : Nat) :
    s.scan start limit = m.range start (min limit (maxKey - start)) := by
  refine KeyMap.eq_range ?_ fun key value => ?_
  · have hordered := Std.TreeMap.ordered_keys_toList (t := s.values)
    exact (hordered.imp fun hlt => Nat.compare_eq_lt.mp hlt).filter _
  · unfold scan toList
    rw [List.mem_filter, Std.TreeMap.mem_toList_iff_getElem?_eq_some, ← h key]
    simp only [Bool.and_eq_true, decide_eq_true_eq, get?]
    constructor
    · rintro ⟨hvalue, hkey⟩
      exact ⟨by omega, hvalue⟩
    · rintro ⟨hkey, hvalue⟩
      exact ⟨hvalue, by omega⟩

/-- The types of operations that have handlers. -/
theorem find?_handlers (operationType : String) :
    (operationType = "read" ∧ handlers.find? operationType = .ok handleRead) ∨
    (operationType = "update" ∧ handlers.find? operationType = .ok handleUpdate) ∨
    (operationType = "scan" ∧ handlers.find? operationType = .ok handleScan) ∨
    (operationType ∉ ["read", "update", "scan"] ∧
      handlers.find? operationType = .error (.unsupported operationType)) := by
  by_cases hread : operationType = "read"
  · subst hread
    exact .inl ⟨rfl, rfl⟩
  by_cases hupdate : operationType = "update"
  · subst hupdate
    exact .inr (.inl ⟨rfl, rfl⟩)
  by_cases hscan : operationType = "scan"
  · subst hscan
    exact .inr (.inr (.inl ⟨rfl, rfl⟩))
  · refine .inr (.inr (.inr ⟨by simp [hread, hupdate, hscan], ?_⟩))
    simp [HandlerTable.find?, handlers, HandlerTable.register, HandlerTable.empty,
      Ne.symm hread, Ne.symm hupdate, Ne.symm hscan]

/-- How a store that holds a map executes an operation: a scan gives a range of the map that may
end early, and all else is executed as by the map. -/
theorem Holds.execute_cases (h : s.Holds m) (op : Operation KeyValuePayload) :
    (∃ start limit, op.IsScan start limit ∧
      execute op s =
        (.ok (KeyMap.scanAnswer start (m.range start (min limit (maxKey - start)))), s) ∧
      m.execute op = (.ok (KeyMap.scanAnswer start (m.range start limit)), m)) ∨
    ((∀ start limit, ¬ op.IsScan start limit) ∧ (execute op s).1 = (m.execute op).1 ∧
      (execute op s).2.Holds (m.execute op).2) := by
  obtain ⟨operationType, start, dependency, mode, payload⟩ := op
  rcases find?_handlers operationType with
    ⟨rfl, hhandler⟩ | ⟨rfl, hhandler⟩ | ⟨rfl, hhandler⟩ | ⟨hother, hhandler⟩
  · refine .inr ⟨fun _ _ hscan => absurd hscan.1 (by simp), ?_⟩
    cases payload with
    | read key =>
      have hvalue : Json.ofOption .str (m key) = ((m key).map Json.str).getD .null := by
        cases m key <;> rfl
      simp [execute, hhandler, handleRead, KeyMap.execute, row, h key, hvalue, h]
    | update key value => simp [execute, hhandler, handleRead, KeyMap.execute, h]
    | scan start limit => simp [execute, hhandler, handleRead, KeyMap.execute, h]
  · refine .inr ⟨fun _ _ hscan => absurd hscan.1 (by simp), ?_⟩
    cases payload with
    | read key => simp [execute, hhandler, handleUpdate, KeyMap.execute, h]
    | update key value => simp [execute, hhandler, handleUpdate, KeyMap.execute, h key, h.insert]
    | scan start limit => simp [execute, hhandler, handleUpdate, KeyMap.execute, h]
  · cases payload with
    | read key =>
      refine .inr ⟨fun _ _ hscan => absurd hscan.2 (by simp), ?_⟩
      simp [execute, hhandler, handleScan, KeyMap.execute, h]
    | update key value =>
      refine .inr ⟨fun _ _ hscan => absurd hscan.2 (by simp), ?_⟩
      simp [execute, hhandler, handleScan, KeyMap.execute, h]
    | scan start limit =>
      refine .inl ⟨start, limit, ⟨rfl, rfl⟩, ?_, rfl⟩
      simp [execute, hhandler, handleScan, KeyMap.scanAnswer, Json.ofList, row, h.scan_eq]
  · obtain ⟨hread, hupdate, hscan⟩ : operationType ≠ "read" ∧ operationType ≠ "update" ∧
        operationType ≠ "scan" := by simpa using hother
    refine .inr ⟨fun _ _ heq => hscan heq.1, ?_⟩
    simp [execute, hhandler, KeyMap.execute, hread, hupdate, hscan, h]

/-! ## Operations one after another -/

/-- The store after operations one after another. -/
def after (ops : List (Operation KeyValuePayload)) (s : KeyValueStore) : KeyValueStore :=
  ops.foldl (fun s op => (database.execute op s).2) s

/-- One operation leaves the store with the values of the map. -/
theorem Holds.execute (h : s.Holds m) (op : Operation KeyValuePayload) :
    (database.execute op s).2.Holds (m.execute op).2 := by
  change (KeyValueStore.execute op s).2.Holds (m.execute op).2
  rcases h.execute_cases op with ⟨start, limit, -, hstore, hmap⟩ | ⟨-, -, hholds⟩
  · rw [hstore, hmap]
    exact h
  · exact hholds

/-- So do any number of operations. -/
theorem Holds.after (h : s.Holds m) (hm : m.Bounded) {ops : List (Operation KeyValuePayload)}
    (hops : ∀ op ∈ ops, op.payload.Fits) :
    (after ops s).Holds (KeyMap.after ops m) ∧ (KeyMap.after ops m).Bounded := by
  induction ops generalizing s m with
  | nil => exact ⟨h, hm⟩
  | cons op ops ih =>
    exact ih (h.execute op) (hm.execute (hops op List.mem_cons_self))
      fun o ho => hops o (List.mem_cons_of_mem op ho)

/-- A store is loaded with as many records as the parameter says, of which none has the greatest
key. -/
theorem init_eq {p : Params} {n : Nat}
    (hp : p.parseOr Text.readWord "record_count" 1000 = .ok n) (s : KeyValueStore) :
    database.init p s = (.ok (), loaded n) ∧ (KeyMap.initial n).Bounded := by
  refine ⟨?_, fun key hkey => ?_⟩
  · change load p s = _
    rw [load, hp]
  · have hle : n ≤ Text.maxWord := Params.parseOr_le hp (by decide)
    refine if_neg ?_
    simp only [maxKey, Text.maxWord] at hle hkey
    omega

/-- A store that holds a map answers an operation as the map does, but for a scan over the greatest
key while that has a value: the row of that key, the last one, is missing. -/
theorem Holds.answer (h : s.Holds m) (hm : m.Bounded) (op : Operation KeyValuePayload) :
    ((KeyValueStore.execute op s).1 = (m.execute op).1 ↔ ¬ m.Overlooks op) ∧
    (m.Overlooks op → ∃ start limit rows value, op.IsScan start limit ∧
      m.range start limit = rows ++ [(maxKey, value)] ∧
      (KeyValueStore.execute op s).1 = .ok (KeyMap.scanAnswer start rows)) := by
  rcases h.execute_cases op with ⟨start, limit, hscan, hstore, hmap⟩ | ⟨hother, hsame, -⟩
  · rw [hstore, hmap]
    by_cases hover : start ≤ maxKey ∧ maxKey < start + limit ∧ (m maxKey).isSome = true
    · have hoverlooks : m.Overlooks op := ⟨start, limit, hscan, hover⟩
      obtain ⟨hstart, hend, hsome⟩ := hover
      obtain ⟨value, hvalue⟩ := Option.isSome_iff_exists.mp hsome
      have hrange := hm.range_overlooked hstart hend
      rw [hvalue] at hrange
      rw [Nat.min_eq_right (by omega)]
      refine ⟨iff_of_false (fun heq => ?_) (not_not_intro hoverlooks),
        fun _ => ⟨start, limit, _, value, hscan, hrange, rfl⟩⟩
      have hlength := KeyMap.length_of_scanAnswer (Except.ok.inj heq)
      simp [hrange] at hlength
    · have hseen : ¬ m.Overlooks op := by
        rintro ⟨start', limit', hscan', hover'⟩
        obtain ⟨rfl, rfl⟩ := KeyValuePayload.scan.inj (hscan.2.symm.trans hscan'.2)
        exact hover hover'
      rw [hm.range_min hover]
      exact ⟨iff_of_true rfl hseen, fun hoverlooks => absurd hoverlooks hseen⟩
  · have hseen : ¬ m.Overlooks op := fun ⟨start, limit, hscan, _⟩ => hother start limit hscan
    rw [hsame]
    exact ⟨iff_of_true rfl hseen, fun hoverlooks => absurd hoverlooks hseen⟩

/-- A store is loaded with any number of records and executes operations one after another, with
keys of 64 bits. Then it has the values of the plain map that is loaded with the same records and
executes the same operations, and it still has them after one operation more. It answers that
operation as the map does, error or not, unless the operation is a scan over the greatest key of 64
bits while that key has a value: then the row of that key, the last one, is missing. -/
theorem execute_refines {p : Params} {n : Nat}
    (hp : p.parseOr Text.readWord "record_count" 1000 = .ok n)
    {ops : List (Operation KeyValuePayload)} (hops : ∀ op ∈ ops, op.payload.Fits)
    (op : Operation KeyValuePayload) :
    let s := after ops (database.init p database.fresh).2
    let m := KeyMap.after ops (KeyMap.initial n)
    (database.init p database.fresh).1 = .ok () ∧ s.Holds m ∧
    (database.execute op s).2.Holds (m.execute op).2 ∧
    ((database.execute op s).1 = .returned (m.execute op).1 ↔ ¬ m.Overlooks op) ∧
    (m.Overlooks op → ∃ start limit rows value, op.IsScan start limit ∧
      m.range start limit = rows ++ [(maxKey, value)] ∧
      (database.execute op s).1 = .returned (.ok (KeyMap.scanAnswer start rows))) := by
  obtain ⟨hinit, hinitial⟩ := init_eq hp database.fresh
  rw [hinit]
  obtain ⟨hholds, hbounded⟩ := (holds_loaded n).after hinitial hops
  have hanswer := hholds.answer hbounded op
  refine ⟨rfl, hholds, hholds.execute op, ?_, fun hoverlooks => ?_⟩
  · rw [← hanswer.1]
    exact CallOutcome.returned.injEq _ _ ▸ Iff.rfl
  · obtain ⟨start, limit, rows, value, hscan, hrange, hrows⟩ := hanswer.2 hoverlooks
    exact ⟨start, limit, rows, value, hscan, hrange, congrArg CallOutcome.returned hrows⟩

/-- Three records, to which two keys are added, the greatest one among them. -/
def threeRecords : Params := Params.ofList [("record_count", "3")]

/-- An operation at the epoch. -/
def operationOf (payload : KeyValuePayload) : Operation KeyValuePayload :=
  .independent payload.operationType Instant.epoch payload

/-- A scan of records and an update gives them in order, as the map says. -/
theorem execute_refines_three :
    let ops := [operationOf (.update 7 "fresh"), operationOf (.update maxKey "last")]
    (database.execute (operationOf (.scan 1 10))
      (after ops (database.init threeRecords database.fresh).2)).1 =
      .returned (.ok (KeyMap.scanAnswer 1 [(1, "initial-1"), (2, "initial-2"), (7, "fresh")])) := by
  intro ops
  have hops : ∀ op ∈ ops, op.payload.Fits := by
    simp [ops, operationOf, Operation.independent, KeyValuePayload.Fits, maxKey]
  have hseen : ¬ (KeyMap.after ops (KeyMap.initial 3)).Overlooks (operationOf (.scan 1 10)) := by
    rintro ⟨start, limit, ⟨-, hscan⟩, -, hend, -⟩
    obtain ⟨rfl, rfl⟩ := KeyValuePayload.scan.inj hscan
    simp [maxKey] at hend
  have hcount : threeRecords.parseOr Text.readWord "record_count" 1000 = .ok 3 := by decide
  obtain ⟨-, -, -, hanswer, -⟩ := execute_refines hcount hops (operationOf (.scan 1 10))
  rw [hanswer.mpr hseen]
  rfl

/-- A scan of the greatest key alone, which has been given a value, gives nothing. -/
theorem scan_overlooks_greatest :
    let s := after [operationOf (.update maxKey "last")]
      (database.init threeRecords database.fresh).2
    let m := KeyMap.after [operationOf (.update maxKey "last")] (KeyMap.initial 3)
    s.get? maxKey = some "last" ∧ m.range maxKey 1 = [(maxKey, "last")] ∧
    (database.execute (operationOf (.scan maxKey 1)) s).1 =
      .returned (.ok (KeyMap.scanAnswer maxKey [])) :=
  ⟨by decide +kernel, by decide +kernel, by rfl⟩

end KeyValueStore

end WorkloadReplay
