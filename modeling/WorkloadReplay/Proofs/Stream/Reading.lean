import WorkloadReplay.Proofs.Stream.Limits

/-!
# Limited sequences, item by item

What limits leave of a sequence is the longest run of operations at its front that is within them
(`Limits.IsLongest`), and then the error behind it, unless the limit on the number of operations is
reached before (`limit_exact`).

A consumer reads a limited sequence item by item. `LimitedReader.next` is one such reading: it looks
at the limit on the number before it pulls an item off the sequence, and at the duration after. Its
answers are the items of the limited sequence, and then nothing any more
(`LimitedReader.next_after`), and it pulls no more items than the limit on the number allows
(`LimitedReader.Frugal`). So what stands behind that many items makes no difference (`limit_congr`).
-/

namespace WorkloadReplay

variable {P : Type} {l : Limits} {s s' : Schedule P} {count : Nat} {first : Option Instant}

namespace Limits

/-! ## Operations within limits -/

/-- Operations are within limits: before each of them come fewer than the limit on their number, and
none of them starts later after the first one than the duration allows. -/
def Within (l : Limits) (ops : List (ScheduledOperation P)) : Prop :=
  ∀ (i : Nat) (x : ScheduledOperation P), ops[i]? = some x →
    (∀ n, l.operationCount = some n → i < n) ∧
    ∀ d y, l.duration = some d → ops.head? = some y → x.start.nanos - y.start.nanos ≤ d.nanos

/-- The operations at the front of a sequence that are within limits, as many as there are. -/
structure IsLongest (l : Limits) (items : List (Except ReplayError (ScheduledOperation P)))
    (kept : List (ScheduledOperation P)) : Prop where
  front : kept.map .ok <+: items
  within : l.Within kept
  longest : ∀ ops, ops.map .ok <+: items → l.Within ops → ops <+: kept

/-- Limits admit operations one after another, after `count` others of which the first started at
`first`. -/
def Admits (l : Limits) : Nat → Option Instant → List (ScheduledOperation P) → Prop
  | _, _, [] => True
  | count, first, x :: rest => l.isReached count = false ∧
    l.isLate (first.getD x.start) x.start = false ∧
    Admits l (count + 1) (some (first.getD x.start)) rest

/-- A number of operations is not enough yet if it is below the limit. -/
theorem isReached_eq_false_iff :
    l.isReached count = false ↔ ∀ n, l.operationCount = some n → count < n := by
  unfold isReached
  cases l.operationCount <;> simp

/-- Nothing is late without a limit on the duration, and with one only what is beyond it. -/
theorem isLate_eq_false_iff_forall (hd : ∀ d, l.duration = some d → 0 ≤ d.nanos) {t u : Instant} :
    l.isLate t u = false ↔ ∀ d, l.duration = some d → u.nanos - t.nanos ≤ d.nanos := by
  cases hduration : l.duration with
  | none => simp [isLate, hduration]
  | some d => simpa using isLate_eq_false_iff hduration (hd d hduration)

/-- After a first operation each is admitted by its place and its start. -/
theorem admits_some_iff {t : Instant} {ops : List (ScheduledOperation P)} :
    l.Admits count (some t) ops ↔ ∀ (i : Nat) (x : ScheduledOperation P), ops[i]? = some x →
      l.isReached (count + i) = false ∧ l.isLate t x.start = false := by
  induction ops generalizing count with
  | nil => simp [Admits]
  | cons y rest ih =>
    rw [Admits, Option.getD_some, ih]
    constructor
    · rintro ⟨hreached, hlate, hrest⟩ i x hx
      cases i with
      | zero =>
        obtain rfl : y = x := by simpa using hx
        exact ⟨hreached, hlate⟩
      | succ i =>
        obtain ⟨hreached', hlate'⟩ := hrest i x (by simpa using hx)
        exact ⟨by rwa [Nat.add_right_comm] at hreached', hlate'⟩
    · intro h
      obtain ⟨hreached, hlate⟩ := h 0 y rfl
      refine ⟨hreached, hlate, fun i x hx => ?_⟩
      obtain ⟨hreached', hlate'⟩ := h (i + 1) x (by simpa using hx)
      exact ⟨by rwa [Nat.add_right_comm], hlate'⟩

/-- Operations are within limits that admit them one after another. -/
theorem within_iff_admits (hd : ∀ d, l.duration = some d → 0 ≤ d.nanos)
    (ops : List (ScheduledOperation P)) : l.Within ops ↔ l.Admits 0 none ops := by
  cases ops with
  | nil => simp [Within, Admits]
  | cons y rest =>
    -- The first operation is the one from which the duration counts.
    have hfirst : l.Admits 0 none (y :: rest) ↔ l.Admits 0 (some y.start) (y :: rest) := Iff.rfl
    rw [hfirst, admits_some_iff]
    unfold Within
    simp only [Nat.zero_add, isReached_eq_false_iff, isLate_eq_false_iff_forall hd,
      List.head?_cons, Option.some.injEq]
    refine forall_congr' fun i => forall_congr' fun x => imp_congr_right fun _ =>
      and_congr_right fun _ => ⟨fun h d hduration => h d y hduration rfl, ?_⟩
    rintro h d _ hduration rfl
    exact h d hduration

/-! ## What a cut leaves -/

/-- The operations that a cut leaves are admitted. -/
theorem admits_cut (h : l.isReached count = false) :
    l.Admits count first (l.cut count first s).operations := by
  induction s generalizing count first with
  | nil => trivial
  | cons item tail ih =>
    cases item with
    | error e => trivial
    | ok x =>
      unfold cut
      dsimp only
      split_ifs with hlate hreached
      · trivial
      · exact ⟨h, by simpa using hlate, trivial⟩
      · exact ⟨h, by simpa using hlate, ih () (by simpa using hreached)⟩

/-- Operations at the front that are admitted survive the cut. -/
theorem prefix_cut {ops : List (ScheduledOperation P)} (hfront : ops.map .ok <+: s.toList)
    (h : l.Admits count first ops) : ops.map .ok <+: (l.cut count first s).toList := by
  induction s generalizing ops count first with
  | nil => exact hfront
  | cons item tail ih =>
    cases ops with
    | nil => exact List.nil_prefix
    | cons x rest =>
      obtain ⟨rfl, htail⟩ := List.cons_prefix_cons.mp hfront
      obtain ⟨-, hlate, hrest⟩ := h
      unfold cut
      dsimp only
      rw [if_neg (by simpa using hlate)]
      refine List.cons_prefix_cons.mpr ⟨rfl, ?_⟩
      split_ifs with hreached
      · -- Once the number is reached, no further operation is admitted.
        cases rest with
        | nil => exact List.nil_prefix
        | cons y rest => exact absurd hreached (by simp [hrest.1])
      · exact ih () htail hrest

/-- A cut leaves operations, and behind them an error if that is what the sequence goes on with
before the number is reached. -/
theorem exists_toList_cut (h : l.isReached count = false) : ∃ failure? : Option ReplayError,
    (l.cut count first s).toList =
      (l.cut count first s).operations.map .ok ++ failure?.toList.map .error ∧
    ∀ e, failure? = some e ↔ s.toList[(l.cut count first s).operations.length]? = some (.error e) ∧
      l.isReached (count + (l.cut count first s).operations.length) = false := by
  induction s generalizing count first with
  | nil => exact ⟨none, rfl, by simp [cut, Schedule.operations]⟩
  | cons item tail ih =>
    cases item with
    | error e => exact ⟨some e, rfl, by simp [cut, Schedule.operations, h]⟩
    | ok x =>
      unfold cut
      dsimp only
      split_ifs with hlate hreached
      · exact ⟨none, rfl, by simp [Schedule.operations]⟩
      · exact ⟨none, rfl, by simp [Schedule.operations, hreached]⟩
      · obtain ⟨failure?, hlist, hfailure⟩ :=
          @ih () (count + 1) (some (first.getD x.start)) (Bool.eq_false_iff.mpr hreached)
        refine ⟨failure?, congrArg (Except.ok x :: ·) hlist, fun e => ?_⟩
        rw [hfailure e, Schedule.operations, List.length_cons, LazyList.toList_cons,
          List.getElem?_cons_succ, Nat.add_right_comm, Nat.add_assoc]

/-- What stands behind as many items as the limit on the number still allows makes no difference to
a cut. -/
theorem cut_congr {n : Nat} (hcount : l.operationCount = some n) (hlt : count < n)
    (h : s'.toList.take (n - count) = s.toList.take (n - count)) :
    l.cut count first s' = l.cut count first s := by
  induction s generalizing s' count first with
  | nil =>
    have hnil : s'.toList = [] := by
      rw [LazyList.toList_nil, List.take_nil, List.take_eq_nil_iff] at h
      exact h.resolve_left (by omega)
    cases s' with
    | nil => rfl
    | cons item tail => simp at hnil
  | cons item tail ih =>
    obtain ⟨m, hm⟩ : ∃ m, n - count = m + 1 := ⟨n - count - 1, by omega⟩
    rw [hm] at h
    cases s' with
    | nil => simp at h
    | cons item' tail' =>
      rw [LazyList.toList_cons, LazyList.toList_cons, List.take_succ_cons, List.take_succ_cons]
        at h
      obtain ⟨rfl, hrest⟩ := List.cons.inj h
      cases item' with
      | error e => rfl
      | ok x =>
        unfold cut
        dsimp only
        split_ifs with hlate hreached
        · rfl
        · rfl
        · have hmore : count + 1 < n :=
            isReached_eq_false_iff.mp (Bool.eq_false_iff.mpr hreached) n hcount
          have hm' : n - (count + 1) = m := by omega
          rw [ih () hmore (hm' ▸ hrest)]

end Limits

/-! ## What limits leave -/

/-- What stands behind as many items as the limit on the number allows makes no difference. -/
theorem limit_congr {n : Nat} (hcount : l.operationCount = some n)
    (h : s'.toList.take n = s.toList.take n) : limit l s' = limit l s := by
  unfold limit
  split_ifs with hreached
  · rfl
  · exact Limits.cut_congr hcount
      (Limits.isReached_eq_false_iff.mp (Bool.eq_false_iff.mpr hreached) n hcount) h

/-- What limits leave are the operations at the front that are within them, as many as there are. -/
theorem isLongest_limit (hd : ∀ d, l.duration = some d → 0 ≤ d.nanos) (s : Schedule P) :
    l.IsLongest s.toList (limit l s).operations where
  front := List.IsPrefix.trans (Schedule.operations_prefix _) <| limit_prefix l s
  within := by
    rw [Limits.within_iff_admits hd]
    unfold limit
    split_ifs with hreached
    · trivial
    · exact Limits.admits_cut (Bool.eq_false_iff.mpr hreached)
  longest ops hfront hwithin := by
    rw [Limits.within_iff_admits hd] at hwithin
    have hkept : ops.map .ok <+: (limit l s).toList := by
      unfold limit
      split_ifs with hreached
      · cases ops with
        | nil => exact List.nil_prefix
        | cons x rest => simp [Limits.Admits, hreached] at hwithin
      · exact Limits.prefix_cut hfront hwithin
    obtain ⟨items, hitems⟩ := hkept
    exact Schedule.prefix_operations hitems.symm

/-- Limits leave operations, and behind them an error if that is what the sequence goes on with
before the number is reached. -/
theorem exists_toList_limit (l : Limits) (s : Schedule P) : ∃ failure? : Option ReplayError,
    (limit l s).toList = (limit l s).operations.map .ok ++ failure?.toList.map .error ∧
    ∀ e, failure? = some e ↔ s.toList[(limit l s).operations.length]? = some (.error e) ∧
      ∀ n, l.operationCount = some n → (limit l s).operations.length < n := by
  unfold limit
  split_ifs with hreached
  · exact ⟨none, rfl, by simp [Schedule.operations, ← Limits.isReached_eq_false_iff, hreached]⟩
  · obtain ⟨failure?, hlist, hfailure⟩ :=
      @Limits.exists_toList_cut P l s 0 none (Bool.eq_false_iff.mpr hreached)
    simp only [Nat.zero_add, Limits.isReached_eq_false_iff] at hfailure
    exact ⟨failure?, hlist, hfailure⟩

/-! ## Reading -/

/-- A limited sequence that is being read. -/
structure LimitedReader (P : Type) where
  /-- What has not been pulled off the sequence. -/
  rest : Schedule P
  /-- How often something has been pulled off the sequence. -/
  pulled : Nat
  /-- How many operations have been given out. -/
  emitted : Nat
  /-- The start of the first operation. -/
  firstStart : Option Instant
  /-- The reading has come to its end. -/
  done : Bool

namespace LimitedReader

/-- A sequence of which nothing has been read. -/
def ofSchedule (s : Schedule P) : LimitedReader P := ⟨s, 0, 0, none, false⟩

/-- The next item within limits, or `none`, and the reader after that. -/
def next (l : Limits) (r : LimitedReader P) :
    Option (Except ReplayError (ScheduledOperation P)) × LimitedReader P :=
  if r.done || l.isReached r.emitted then (none, { r with done := true })
  else
    match r.rest with
    | .nil => (none, { r with pulled := r.pulled + 1, done := true })
    | .cons (.error e) tail =>
      (some (.error e), { r with rest := tail (), pulled := r.pulled + 1, done := true })
    | .cons (.ok x) tail =>
      let start := r.firstStart.getD x.start
      let r := { r with rest := tail (), pulled := r.pulled + 1, firstStart := some start }
      if l.isLate start x.start then (none, { r with done := true })
      else (some (.ok x), { r with emitted := r.emitted + 1 })

/-- The reader after some calls. -/
def after (l : Limits) : Nat → LimitedReader P → LimitedReader P
  | 0, r => r
  | k + 1, r => after l k (r.next l).2

/-- The items that are still to be read. -/
def toCome (l : Limits) (r : LimitedReader P) : Schedule P :=
  if r.done || l.isReached r.emitted then .nil else l.cut r.emitted r.firstStart r.rest

variable {r : LimitedReader P}

/-- At first all of the limited sequence is to be read. -/
theorem toCome_ofSchedule (l : Limits) (s : Schedule P) : (ofSchedule s).toCome l = limit l s := rfl

/-- Nothing comes after the end. -/
theorem toCome_of_done (h : r.done = true) : r.toCome l = .nil := by
  unfold toCome
  rw [h, Bool.true_or, if_pos rfl]

/-- One call gives the first of the items that are to be read, and leaves the others. -/
theorem next_toCome (l : Limits) (r : LimitedReader P) :
    (r.next l).1 = (r.toCome l).toList.head? ∧
      ((r.next l).2.toCome l).toList = (r.toCome l).toList.tail := by
  unfold next
  split_ifs with hover
  · rw [toCome, if_pos hover]
    exact ⟨rfl, congrArg LazyList.toList (toCome_of_done rfl)⟩
  · have htoCome : r.toCome l = l.cut r.emitted r.firstStart r.rest := if_neg hover
    rw [htoCome]
    -- The cases are those of the cut.
    split
    · rename_i hrest
      rw [hrest]
      exact ⟨rfl, congrArg LazyList.toList (toCome_of_done rfl)⟩
    · rename_i e tail hrest
      rw [hrest]
      exact ⟨rfl, congrArg LazyList.toList (toCome_of_done rfl)⟩
    · rename_i x tail hrest
      rw [hrest, Limits.cut]
      dsimp only
      by_cases hlate : l.isLate (r.firstStart.getD x.start) x.start = true
      · rw [if_pos hlate, if_pos hlate]
        exact ⟨rfl, congrArg LazyList.toList (toCome_of_done rfl)⟩
      · rw [if_neg hlate, if_neg hlate]
        refine ⟨rfl, ?_⟩
        have hgoing : r.done = false := by simp_all
        unfold toCome
        simp only [hgoing, Bool.false_or, LazyList.toList_cons, List.tail_cons]

/-- The calls give the items that are to be read one after another, and then nothing any more. -/
theorem next_after (l : Limits) (k : Nat) (r : LimitedReader P) :
    ((r.after l k).next l).1 = (r.toCome l).toList[k]? := by
  induction k generalizing r with
  | zero => rw [after, (next_toCome l r).1, List.head?_eq_getElem?]
  | succ k ih => rw [after, ih, (next_toCome l r).2, List.getElem?_tail]

/-- A reader is frugal: until the end it has given out all that it pulled, and it pulls no more than
the limit on the number allows. -/
structure Frugal (l : Limits) (r : LimitedReader P) : Prop where
  emitted_le : r.emitted ≤ r.pulled
  given : r.done = false → r.pulled = r.emitted
  pulled_le : ∀ n, l.operationCount = some n → r.pulled ≤ n

/-- One call keeps a reader frugal. -/
theorem Frugal.next (h : r.Frugal l) : (r.next l).2.Frugal l := by
  obtain ⟨hemitted, hgiven, hpulled⟩ := h
  unfold LimitedReader.next
  split_ifs with hover
  · exact ⟨hemitted, by simp, hpulled⟩
  · rw [Bool.not_eq_true, Bool.or_eq_false_iff, Limits.isReached_eq_false_iff] at hover
    obtain ⟨hgoing, hbelow⟩ := hover
    have hequal := hgiven hgoing
    -- As much has been pulled as given out, which is below the limit, so that there is room for
    -- one more.
    have hroom : ∀ n, l.operationCount = some n → r.pulled + 1 ≤ n := fun n hn =>
      hequal ▸ hbelow n hn
    split
    · exact ⟨Nat.le_succ_of_le hemitted, by simp, hroom⟩
    · exact ⟨Nat.le_succ_of_le hemitted, by simp, hroom⟩
    · dsimp only
      split_ifs
      · exact ⟨Nat.le_succ_of_le hemitted, by simp, hroom⟩
      · exact ⟨Nat.succ_le_succ hemitted, fun _ => congrArg (· + 1) hequal, hroom⟩

/-- Any number of calls keeps a reader frugal. -/
theorem Frugal.after (h : r.Frugal l) (k : Nat) : (r.after l k).Frugal l := by
  induction k generalizing r with
  | zero => exact h
  | succ k ih => exact ih h.next

/-- A reader begins frugal. -/
theorem frugal_ofSchedule (l : Limits) (s : Schedule P) : (ofSchedule s).Frugal l :=
  ⟨le_rfl, fun _ => rfl, fun n _ => Nat.zero_le n⟩

end LimitedReader

/-- What limits leave of any sequence, in order or not, with errors or without:

* the operations at its front that are within the limits, as many as there are, and behind them the
  error that the sequence goes on with, if fewer operations than the limit on their number are out;
* that is what a reader gets, item by item, and nothing from then on;
* with a limit on the number of operations, a reader never pulls more items than that, and what
  stands behind so many items, be it an error, makes no difference. -/
theorem limit_exact (hd : ∀ d, l.duration = some d → 0 ≤ d.nanos) (s : Schedule P) :
    (∃ kept failure?, l.IsLongest s.toList kept ∧
      (limit l s).toList = kept.map .ok ++ failure?.toList.map .error ∧
      ∀ e, failure? = some e ↔ s.toList[kept.length]? = some (.error e) ∧
        ∀ n, l.operationCount = some n → kept.length < n) ∧
    (∀ k, (((LimitedReader.ofSchedule s).after l k).next l).1 = (limit l s).toList[k]?) ∧
    ∀ n, l.operationCount = some n →
      (∀ k, ((LimitedReader.ofSchedule s).after l k).emitted ≤
          ((LimitedReader.ofSchedule s).after l k).pulled ∧
        ((LimitedReader.ofSchedule s).after l k).pulled ≤ n) ∧
      ∀ s' : Schedule P, s'.toList.take n = s.toList.take n → limit l s' = limit l s := by
  obtain ⟨failure?, hlist, hfailure⟩ := exists_toList_limit l s
  refine ⟨⟨_, failure?, isLongest_limit hd s, hlist, hfailure⟩, fun k => ?_, fun n hn =>
    ⟨fun k => ?_, fun s' h => limit_congr hn h⟩⟩
  · rw [LimitedReader.next_after, LimitedReader.toCome_ofSchedule]
  · have hfrugal := (LimitedReader.frugal_ofSchedule l s).after k
    exact ⟨hfrugal.emitted_le, hfrugal.pulled_le n hn⟩

/-- Reads out of order, and an error behind them. -/
def readsBeforeError : Schedule Unit :=
  .ofList (([10, 12, 7, 15].map fun n =>
    .ok ⟨Operation.independent "read" (.saturating n) (), false⟩) ++
      [.error (.streamConstruction "reads operations: connection lost")])

/-- Four operations within five nanoseconds. -/
def fourWithinFive : Limits := ⟨some 4, some (.saturating 5)⟩

/-- All four reads are within the limits, the last one just so. The error behind them is never
looked at. -/
theorem limit_exact_readsBeforeError :
    (∀ d, fourWithinFive.duration = some d → 0 ≤ d.nanos) ∧
    ∃ kept, fourWithinFive.IsLongest readsBeforeError.toList kept ∧ kept.length = 4 ∧
      (limit fourWithinFive readsBeforeError).toList = kept.map .ok ∧
      ∀ k ≥ 4, (((LimitedReader.ofSchedule readsBeforeError).after fourWithinFive k).next
          fourWithinFive).1 = none ∧
        ((LimitedReader.ofSchedule readsBeforeError).after fourWithinFive k).pulled ≤ 4 := by
  have hd : ∀ d, fourWithinFive.duration = some d → 0 ≤ d.nanos := by
    rintro d hd
    obtain rfl := Option.some.inj hd
    decide
  obtain ⟨⟨kept, failure?, hlongest, hlist, -⟩, hread, hpulls⟩ := limit_exact hd readsBeforeError
  have hfree : ∀ item ∈ (limit fourWithinFive readsBeforeError).toList, item.isOk = true := by
    decide
  have hlength : (limit fourWithinFive readsBeforeError).toList.length = 4 := by decide
  cases failure? with
  | some e =>
    rw [hlist] at hfree
    simpa [Except.isOk, Except.toBool] using hfree (.error e) (List.mem_append_right _ (by simp))
  | none =>
    rw [Option.toList_none, List.map_nil, List.append_nil] at hlist
    refine ⟨hd, kept, hlongest, by rw [← hlength, hlist, List.length_map], hlist, fun k hk => ?_⟩
    obtain ⟨hbound, -⟩ := hpulls 4 rfl
    exact ⟨by rw [hread, List.getElem?_eq_none (hlength ▸ hk)], (hbound k).2⟩

end WorkloadReplay
