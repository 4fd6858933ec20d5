import WorkloadReplay.Proofs.Stream.StableSort

/-!
# Merging with a heap

A merger gives the operations of streams one at a time. It keeps the sequences, a head for each one
that is not at its end, and a heap with the start and the number of every head. It is primed with
the first call, and finds the next head of a sequence as soon as the one before has been given; a
fault that it finds then is the answer of the next call. `Merger.next` is one call, and includes the
case that the heap names a sequence that has no head.

That case does not arise. `Merger.Serves` says that heads and heap agree with the lanes of a merge,
every call keeps it, and so the answers are the items of `merge`, and then nothing, forever
(`answers_ofStreams`).
-/

namespace WorkloadReplay

variable {P : Type}

/-- The state of a merger. -/
structure Merger (P : Type) where
  sources : List (Source P)
  heads : List (Option (Operation P))
  /-- The starts and numbers of heads, in no particular order. -/
  heap : List (Instant ×ₗ Nat)
  primed : Bool
  pendingError : Option ReplayError
  finished : Bool

namespace Merger

/-- What a call of a merger answers. -/
abbrev Answer (P : Type) := Option (Except ReplayError (ScheduledOperation P))

/-- A merger of streams before the first call. -/
def ofStreams (streams : List (OperationStream P)) : Merger P where
  sources := Source.ofStreams streams
  heads := (Source.ofStreams streams).map fun _ => none
  heap := []
  primed := false
  pendingError := none
  finished := false

/-- The error for a sequence that the heap names and that has no head. -/
def emptySource : ReplayError := .invalidState "merge heap referenced an empty source"

/-- Finds the next head of a sequence. -/
def refill (m : Merger P) (i : Nat) : Except ReplayError (Merger P) :=
  match m.sources[i]? with
  | none => .error (.panicked "index out of bounds")
  | some s =>
    match s.pull with
    | .error e => .error e
    | .ok none => .ok m
    | .ok (some (op, s')) =>
      .ok { m with
        sources := m.sources.set i s'
        heads := m.heads.set i (some op)
        heap := toLex (op.scheduledStart, i) :: m.heap }

/-- Finds the first heads of all sequences. -/
def prime (m : Merger P) : Except ReplayError (Merger P) :=
  (List.range m.sources.length).foldlM refill { m with primed := true }

/-- Gives the head whose start and number are the least ones in the heap. -/
def pop (m : Merger P) : Answer P × Merger P :=
  match m.heap.min? with
  | none => (none, { m with finished := true })
  | some least =>
    let i := (ofLex least).2
    let m := { m with heap := m.heap.erase least }
    match m.heads[i]?.join with
    | none => (some (.error emptySource), { m with finished := true })
    | some op =>
      let m := { m with heads := m.heads.set i none }
      (some (.ok ⟨op, m.sources[i]?.any Source.tracked⟩),
        match m.refill i with
        | .error e => { m with pendingError := some e }
        | .ok m => m)

/-- The answer of a call and the merger after it. -/
def next (m : Merger P) : Answer P × Merger P :=
  if m.finished then (none, m)
  else
    match if m.primed then .ok m else m.prime with
    | .error e => (some (.error e), { m with primed := true, finished := true })
    | .ok m =>
      match m.pendingError with
      | some e => (some (.error e), { m with pendingError := none, finished := true })
      | none => m.pop

/-- The answers of so many calls. -/
def answers : Nat → Merger P → List (Answer P)
  | 0, _ => []
  | n + 1, m => m.next.1 :: answers n m.next.2

/-- The heads and the heap of a merger agree with lanes. -/
structure Serves (m : Merger P) (lanes : List (Lane P)) : Prop where
  heap : m.heap.Perm (lanes.map Lane.key)
  heads : ∀ a ∈ lanes, m.heads[a.number]? = some (some a.head)
  sources : ∀ a ∈ lanes, m.sources[a.number]? = some a.source
  length : m.heads.length = m.sources.length
  primed : m.primed = true
  pendingError : m.pendingError = none
  finished : m.finished = false

section Serving

variable {m : Merger P} {lanes as : List (Lane P)} {a : Lane P}

/-- A sequence that has no lane is looked at, and if it is not at its end, its lane is put among the
others. -/
theorem Serves.refill (h : m.Serves as) {n : Nat} {s : Source P} (hn : m.sources[n]? = some s)
    (hnew : n ∉ as.map Lane.number) :
    (∃ e, Lane.ofSource n s = .error e ∧ m.refill n = .error e) ∨
    (Lane.ofSource n s = .ok none ∧ m.refill n = .ok m) ∨
    ∃ a m', Lane.ofSource n s = .ok (some a) ∧ m.refill n = .ok m' ∧ m'.Serves (Lane.insert a as) ∧
      ∀ j, n ≠ j → m'.sources[j]? = m.sources[j]? := by
  unfold Merger.refill Lane.ofSource
  rw [hn]
  simp only
  cases hpull : s.pull with
  | error e => exact .inl ⟨e, rfl, rfl⟩
  | ok found =>
    cases found with
    | none => exact .inr (.inl ⟨rfl, rfl⟩)
    | some found =>
      obtain ⟨op, s'⟩ := found
      refine .inr (.inr ⟨⟨n, op, s'⟩, _, rfl, rfl, ?_, fun j hj => List.getElem?_set_ne hj⟩)
      have hperm := Lane.insert_perm ⟨n, op, s'⟩ as
      have hlt : n < m.sources.length := (List.getElem?_eq_some_iff.mp hn).1
      have hne : ∀ b ∈ as, n ≠ b.number := fun b hb heq => hnew (heq ▸ List.mem_map_of_mem hb)
      refine ⟨?_, fun b hb => ?_, fun b hb => ?_, ?_, h.primed, h.pendingError, h.finished⟩
      · exact (h.heap.cons _).trans (hperm.map Lane.key).symm
      · rcases Lane.mem_insert.mp hb with rfl | hb
        · exact List.getElem?_set_self (h.length ▸ hlt)
        · exact (List.getElem?_set_ne (hne b hb)).trans (h.heads b hb)
      · rcases Lane.mem_insert.mp hb with rfl | hb
        · exact List.getElem?_set_self hlt
        · exact (List.getElem?_set_ne (hne b hb)).trans (h.sources b hb)
      · rw [List.length_set, List.length_set]
        exact h.length

/-- The least key in the heap is that of the first lane. -/
theorem Serves.min?_heap (h : m.Serves (a :: as)) (hordered : Lane.Ordered (a :: as)) :
    m.heap.min? = some a.key := by
  rw [List.min?_eq_some_iff]
  refine ⟨h.heap.mem_iff.mpr List.mem_cons_self, fun k hk => ?_⟩
  rcases List.mem_cons.mp (h.heap.mem_iff.mp hk) with rfl | hk
  · exact le_refl _
  · obtain ⟨b, hb, rfl⟩ := List.mem_map.mp hk
    exact le_of_lt ((List.pairwise_cons.mp hordered.sorted).1 b hb)

/-- A merger that has finished gives nothing any more. -/
theorem answers_finished (h : m.finished = true) (n : Nat) :
    m.answers n = List.replicate n none := by
  induction n with
  | zero => rfl
  | succ n ih =>
    have hnext : m.next = (none, m) := by
      unfold next
      rw [if_pos h]
    rw [answers, hnext, ih, List.replicate_succ]

/-- The items of a list by their numbers, and nothing after its end. -/
theorem range_map_getElem?_cons {α : Type} (x : α) (l : List α) (n : Nat) :
    (List.range (n + 1)).map ((x :: l)[·]?) = some x :: (List.range n).map (l[·]?) := by
  rw [List.range_succ_eq_map, List.map_cons, List.map_map]
  rfl

/-- Nothing is at any number of an empty list. -/
theorem range_map_getElem?_nil {α : Type} (n : Nat) :
    (List.range n).map (([] : List α)[·]?) = List.replicate n none := by
  rw [← List.length_range (n := n), ← List.map_const']
  simp

/-- A merger that has an error to give gives it with the next call, and then nothing any more. -/
theorem answers_pendingError (hprimed : m.primed = true) (hfinished : m.finished = false)
    {e : ReplayError} (herror : m.pendingError = some e) (n : Nat) :
    m.answers n = (List.range n).map ([.error e][·]?) := by
  cases n with
  | zero => rfl
  | succ n =>
    have hnext : m.next = (some (.error e), { m with pendingError := none, finished := true }) := by
      unfold next
      rw [if_neg (by simp [hfinished]), if_pos hprimed]
      simp only [herror]
    rw [answers, hnext, answers_finished rfl, range_map_getElem?_cons, range_map_getElem?_nil]

/-- A merger that agrees with lanes is primed and has no error to give, so it gives a head. -/
theorem Serves.next_eq_pop (h : m.Serves lanes) : m.next = m.pop := by
  unfold next
  rw [if_neg (by simp [h.finished]), if_pos h.primed]
  simp only [h.pendingError]

/-- The merger without the head of a lane. -/
def takeHead (a : Lane P) (m : Merger P) : Merger P :=
  { m with heap := m.heap.erase a.key, heads := m.heads.set a.number none }

/-- A merger that agrees with lanes agrees with the others without the head of the first one. -/
theorem Serves.takeHead (h : m.Serves (a :: as)) (hnew : a.number ∉ as.map Lane.number) :
    (m.takeHead a).Serves as := by
  have hne : ∀ b ∈ as, a.number ≠ b.number := fun b hb heq =>
    hnew (heq ▸ List.mem_map_of_mem hb)
  refine ⟨?_, fun b hb => ?_, fun b hb => h.sources b (List.mem_cons_of_mem a hb), ?_,
    h.primed, h.pendingError, h.finished⟩
  · have herase := h.heap.erase a.key
    rw [List.map_cons, List.erase_cons_head] at herase
    exact herase
  · exact (List.getElem?_set_ne (hne b hb)).trans (h.heads b (List.mem_cons_of_mem a hb))
  · unfold Merger.takeHead
    rw [List.length_set]
    exact h.length

/-- A merger that agrees with lanes gives the head of the first one, and looks at its sequence
again. An error that it finds is kept for the next call. -/
theorem Serves.next_cons (h : m.Serves (a :: as)) (hordered : Lane.Ordered (a :: as)) :
    m.next = (some (.ok ⟨a.head, a.source.tracked⟩),
      match (m.takeHead a).refill a.number with
      | .error e => { m.takeHead a with pendingError := some e }
      | .ok m => m) := by
  rw [h.next_eq_pop]
  unfold pop
  rw [h.min?_heap hordered]
  simp only [Lane.key, ofLex_toLex, h.heads a List.mem_cons_self,
    h.sources a List.mem_cons_self]
  rfl

/-- A merger that agrees with no lanes has finished. -/
theorem Serves.next_nil (h : m.Serves []) : m.next = (none, { m with finished := true }) := by
  rw [h.next_eq_pop]
  unfold pop
  rw [h.heap.eq_nil]
  rfl

/-- The answers of a merger that agrees with lanes are the merge of the lanes. -/
theorem Serves.answers (h : m.Serves lanes) (hordered : Lane.Ordered lanes) (n : Nat) :
    m.answers n = (List.range n).map ((Lane.merge lanes).toList[·]?) := by
  induction n generalizing m lanes with
  | zero => rfl
  | succ n ih =>
    unfold Merger.answers
    cases lanes with
    | nil =>
      rw [h.next_nil, answers_finished rfl, Lane.merge, LazyList.toList_nil,
        range_map_getElem?_nil]
      rfl
    | cons a as =>
      have hnew : a.number ∉ as.map Lane.number := (List.nodup_cons.mp hordered.nodup).1
      have hserves := h.takeHead hnew
      rw [h.next_cons hordered]
      rcases hserves.refill (h.sources a List.mem_cons_self) hnew with ⟨e, hnext, hrefill⟩ |
        ⟨hnext, hrefill⟩ | ⟨b, m', hnext, hrefill, hserves', -⟩
      · rw [Lane.merge_of_next_error hnext, hrefill, LazyList.toList_cons,
          range_map_getElem?_cons, LazyList.toList_cons, LazyList.toList_nil]
        have hpending := answers_pendingError (m := { m.takeHead a with pendingError := some e })
          hserves.primed hserves.finished rfl n
        exact congrArg (_ :: ·) hpending
      · rw [Lane.merge_of_next_none hnext, hrefill, LazyList.toList_cons, range_map_getElem?_cons]
        exact congrArg (_ :: ·) (ih hserves hordered.tail)
      · rw [Lane.merge_of_next_some hnext, hrefill, LazyList.toList_cons, range_map_getElem?_cons]
        exact congrArg (_ :: ·) (ih hserves' (hordered.next hnext))

/-- Finding the first heads of numbered sequences is finding their lanes. -/
theorem Serves.prime {n : Nat} {ss : List (Source P)} (h : m.Serves as)
    (hlt : ∀ a ∈ as, a.number < n) (hs : ∀ j, m.sources[n + j]? = ss[j]?) :
    (∃ e, Lane.ofSources n ss as = .error e ∧
      (List.range' n ss.length).foldlM Merger.refill m = .error e) ∨
    ∃ lanes m', Lane.ofSources n ss as = .ok lanes ∧
      (List.range' n ss.length).foldlM Merger.refill m = .ok m' ∧ m'.Serves lanes := by
  induction ss generalizing m n as with
  | nil => exact .inr ⟨as, m, rfl, rfl, h⟩
  | cons s ss ih =>
    have hn : m.sources[n]? = some s := hs 0
    have hnext : ∀ j, m.sources[n + 1 + j]? = ss[j]? := fun j => by
      rw [Nat.add_right_comm, Nat.add_assoc]
      exact hs (j + 1)
    have hnew : n ∉ as.map Lane.number := Lane.not_mem_numbers hlt
    rw [List.length_cons, List.range'_succ, List.foldlM_cons]
    unfold Lane.ofSources
    rcases h.refill hn hnew with ⟨e, hlane, hrefill⟩ | ⟨hlane, hrefill⟩ |
      ⟨a, m', hlane, hrefill, hserves, hothers⟩
    · rw [hlane, hrefill]
      exact .inl ⟨e, rfl, rfl⟩
    · rw [hlane, hrefill]
      exact ih h (fun a ha => Nat.lt_succ_of_lt (hlt a ha)) hnext
    · rw [hlane, hrefill]
      obtain ⟨-, hnumber⟩ := Lane.ofSource_eq_some hlane
      refine ih hserves (Lane.number_lt_succ hlt hnumber) fun j => ?_
      rw [hothers _ (by omega)]
      exact hnext j

end Serving

/-- The answers of a merger of streams are the items of their merge, and then nothing. -/
theorem answers_ofStreams (streams : List (OperationStream P)) (n : Nat) :
    (ofStreams streams).answers n = (List.range n).map ((merge streams).toList[·]?) := by
  cases n with
  | zero => rfl
  | succ n =>
    have hbegin : Serves { ofStreams streams with primed := true } [] :=
      ⟨List.Perm.refl _, by simp, by simp, by simp [ofStreams], rfl, rfl, rfl⟩
    -- The first call looks at all sources, in the order of their numbers.
    have hprime : (ofStreams streams).prime =
        (List.range' 0 (Source.ofStreams streams).length).foldlM refill
          { ofStreams streams with primed := true } := by
      unfold prime
      rw [List.range_eq_range']
      rfl
    have hsources : ∀ j, (ofStreams streams).sources[0 + j]? = (Source.ofStreams streams)[j]? :=
      fun j => by
        rw [Nat.zero_add]
        rfl
    rcases hbegin.prime (by simp) hsources with
      ⟨e, hlanes, herror⟩ | ⟨lanes, m, hlanes, hok, hserves⟩
    · have hnext : (ofStreams streams).next =
          (some (.error e), { ofStreams streams with primed := true, finished := true }) := by
        unfold next
        rw [if_neg (by simp [ofStreams]), if_neg (by simp [ofStreams]), hprime, herror]
      rw [answers, hnext, answers_finished rfl]
      unfold merge
      rw [hlanes, LazyList.toList_cons, range_map_getElem?_cons, LazyList.toList_nil,
        range_map_getElem?_nil]
    · -- The first call of the merger is that of a primed one.
      have hnext : (ofStreams streams).next = m.next := by
        rw [hserves.next_eq_pop]
        unfold next
        rw [if_neg (by simp [ofStreams]), if_neg (by simp [ofStreams]), hprime, hok]
        simp only [hserves.pendingError]
      have hanswers := hserves.answers (Lane.ordered_nil.ofSources (by simp) hlanes) (n + 1)
      rw [answers, hnext]
      unfold merge
      rw [hlanes]
      exact hanswers

/-- Where the sequences of all streams are free of errors, in order of start and without
dependencies on later times, a merger of the streams gives their operations sorted by start, with
ties as they stand in the concatenation of the sequences, and after the last one nothing, however
often it is called. The heap never names a sequence that has no head. -/
theorem answers_stableSort (streams : List (OperationStream P))
    (h : ∀ s ∈ streams, s.dependencies.Proper ∧ s.others.Proper) :
    (merge streams).toList = ((concatenation streams).mergeSort
      (·.operation.scheduledStart ≤ ·.operation.scheduledStart)).map .ok ∧
    ∀ n, (ofStreams streams).answers n = (List.range n).map (fun i =>
        (((concatenation streams).mergeSort
          (·.operation.scheduledStart ≤ ·.operation.scheduledStart))[i]?).map .ok) ∧
      some (.error emptySource) ∉ (ofStreams streams).answers n := by
  refine ⟨toList_merge h, fun n => ?_⟩
  rw [answers_ofStreams, toList_merge h]
  refine ⟨List.map_congr_left fun i _ => by rw [List.getElem?_map], fun hmem => ?_⟩
  obtain ⟨i, -, hi⟩ := List.mem_map.mp hmem
  rw [List.getElem?_map] at hi
  obtain ⟨x, -, hx⟩ := Option.map_eq_some_iff.mp hi
  simp at hx

/-- Two streams with ties within a sequence, within a stream and between the streams. -/
theorem answers_stableSort_ties :
    let item (time : Instant) (payload : Nat) : Except WorkloadError (Operation Nat) :=
      .ok (.independent "read" time payload)
    let streams : List (OperationStream Nat) :=
      [⟨"a", .ofList [item ⟨1, by decide⟩ 0, item ⟨2, by decide⟩ 1, item ⟨2, by decide⟩ 2],
          .ofList [item ⟨0, by decide⟩ 3, item ⟨2, by decide⟩ 4]⟩,
        ⟨"b", .ofList [item ⟨0, by decide⟩ 5, item ⟨2, by decide⟩ 6], .nil⟩]
    (∀ s ∈ streams, s.dependencies.Proper ∧ s.others.Proper) ∧
    (merge streams).toList = ((concatenation streams).mergeSort
      (·.operation.scheduledStart ≤ ·.operation.scheduledStart)).map .ok ∧
    ((ofStreams streams).answers 8).map (·.map (·.map fun s => (s.operation.payload, s.tracked))) =
      [some (.ok (3, false)), some (.ok (5, true)), some (.ok (0, true)), some (.ok (1, true)),
        some (.ok (2, true)), some (.ok (4, false)), some (.ok (6, true)), none] := by
  intro item streams
  have h : ∀ s ∈ streams, s.dependencies.Proper ∧ s.others.Proper := by
    intro s hs
    rcases List.mem_cons.mp hs with rfl | hs
    · exact ⟨⟨by decide, by decide, by decide⟩, ⟨by decide, by decide, by decide⟩⟩
    · obtain rfl := List.mem_singleton.mp hs
      exact ⟨⟨by decide, by decide, by decide⟩, ⟨by decide, by decide, by decide⟩⟩
  refine ⟨h, (answers_stableSort streams h).1, ?_⟩
  unfold streams item
  decide +kernel

/-- Where faulty sequences cut what a merger of streams gives. The sequences are numbered, the
dependencies of stream `i` by `2 * i` and its other operations by `2 * i + 1`. What each of them
adds, `offeredBy`, is its longest part, from its beginning on, that is free of errors, in order of
start and without dependencies on later times, and it is faulty, with the error `defectOf?`, if an
item follows that part. If faulty sequences begin with their faults, all that the merger gives is
the error of the first of them. Otherwise, if there are faulty sequences, it gives the shortest part
of the stable merge that includes all that one of them adds, and then the error of that sequence.
After that it gives nothing, however often it is called. -/
theorem answers_cut (streams : List (OperationStream P)) :
    (∀ i, (Source.ofStreams streams)[2 * i]? = (streams[i]?).map
        (fun s => ⟨s.operationType ++ " dependencies", true, none, s.dependencies⟩) ∧
      (Source.ofStreams streams)[2 * i + 1]? = (streams[i]?).map
        (fun s => ⟨s.operationType ++ " operations", false, none, s.others⟩)) ∧
    (∀ (k : Nat) (s : Source P), (Source.ofStreams streams)[k]? = some s →
      s.rest.IsSoundPart s.sound ∧ offeredBy streams k = s.sound.map (⟨·, s.tracked⟩) ∧
      (defectOf? streams k = none → s.rest.toList = s.sound.map .ok) ∧
      ∀ e, defectOf? streams k = some e → ∃ item, s.rest.toList[s.sound.length]? = some item ∧
        Source.ItemFault s.label (s.sound.getLast?.map (·.scheduledStart)) item e) ∧
    (∀ k e, offeredBy streams k = [] → defectOf? streams k = some e →
      (∀ j < k, offeredBy streams j = [] → defectOf? streams j = none) →
      (merge streams).toList = [.error e]) ∧
    ((∀ k, offeredBy streams k = [] → defectOf? streams k = none) →
      (∃ k, (defectOf? streams k).isSome) →
      ∃ m k e, defectOf? streams k = some e ∧
        IsCut (offeredBy streams) (defectOf? streams) (2 * streams.length) m k ∧
        (merge streams).toList = ((stableMerge (·.start) (offeredBy streams)
          (2 * streams.length)).take m).map (.ok ·.2) ++ [.error e]) ∧
    ∀ n, (ofStreams streams).answers n = (List.range n).map ((merge streams).toList[·]?) := by
  refine ⟨(Source.ofStreams_spec streams).2, fun k s hk => ?_, fun k e hnil hsome hleast => ?_,
    fun hall ⟨k, hk⟩ => ?_, answers_ofStreams streams⟩
  · have hlast : s.lastStart = none := Source.lastStart_of_mem_ofStreams (List.mem_of_getElem? hk)
    unfold offeredBy defectOf?
    rw [hk]
    refine ⟨Source.isSoundPart_sound hlast, rfl, Source.toList_of_defect?_eq_none, fun e he => ?_⟩
    have hfault := Source.itemFault_of_defect? he
    rwa [hlast, Option.or_none] at hfault
  · rcases merge_cases streams with ⟨j, e', hnil', hsome', hleast', hmerge⟩ | ⟨hall, -⟩
    · -- Both are the first sequence that begins with a fault.
      obtain rfl : k = j := by
        rcases Nat.lt_trichotomy k j with hlt | heq | hlt
        · exact absurd (hleast' k hlt hnil) (by simp [hsome])
        · exact heq
        · exact absurd (hleast j hlt hnil') (by simp [hsome'])
      rw [hmerge, Option.some.inj (hsome'.symm.trans hsome)]
    · exact absurd (hall k hnil) (by simp [hsome])
  · rcases merge_cases streams with ⟨j, e', hnil', hsome', -, -⟩ | ⟨-, hyields⟩
    · exact absurd (hall j hnil') (by simp [hsome'])
    · generalize (merge streams).toList = items at hyields
      cases hyields with
      | all hnone =>
        have hlt : k < 2 * streams.length := lt_of_defectOf? hk
        rw [hnone k hlt] at hk
        simp at hk
      | @cut m i e hcut hsome => exact ⟨m, i, e, hsome, hcut, rfl⟩

/-- An update comes before the one that it follows, and the reads break off with an error. The fault
of the updates is found first, when their second operation has been taken. -/
theorem answers_cut_unordered :
    let item (time : Instant) (payload : Nat) : Except WorkloadError (Operation Nat) :=
      .ok (.independent "read" time payload)
    let streams : List (OperationStream Nat) :=
      [⟨"update", .ofList [item ⟨1, by decide⟩ 0, item ⟨2, by decide⟩ 1, item ⟨1, by decide⟩ 2],
          .ofList [item ⟨0, by decide⟩ 3, item ⟨3, by decide⟩ 4]⟩,
        ⟨"read", .ofList [item ⟨2, by decide⟩ 5, .error (.stream "broken")], .nil⟩]
    (∀ k, offeredBy streams k = [] → defectOf? streams k = none) ∧
    (∃ k, (defectOf? streams k).isSome) ∧
    (∃ m k e, defectOf? streams k = some e ∧
      IsCut (offeredBy streams) (defectOf? streams) (2 * streams.length) m k) ∧
    ((ofStreams streams).answers 6).map (·.map (·.map fun s => (s.operation.payload, s.tracked))) =
      [some (.ok (3, false)), some (.ok (0, true)), some (.ok (1, true)),
        some (.error (.streamConstruction
          "update dependencies is not time ordered: 1 follows 2")), none, none] := by
  intro item streams
  have hfirst : ∀ k < 4, offeredBy streams k = [] → defectOf? streams k = none := by
    unfold streams item
    decide +kernel
  have hall : ∀ k, offeredBy streams k = [] → defectOf? streams k = none := fun k hnil => by
    by_cases hk : k < 4
    · exact hfirst k hk hnil
    · exact Option.not_isSome_iff_eq_none.mp fun hsome => hk (lt_of_defectOf? hsome)
  have hfault : ∃ k, (defectOf? streams k).isSome := ⟨0, by unfold streams item; decide +kernel⟩
  obtain ⟨-, -, -, hcut, -⟩ := answers_cut streams
  obtain ⟨m, k, e, hsome, hcut, -⟩ := hcut hall hfault
  refine ⟨hall, hfault, ⟨m, k, e, hsome, hcut⟩, ?_⟩
  unfold streams item
  decide +kernel

end Merger

end WorkloadReplay
