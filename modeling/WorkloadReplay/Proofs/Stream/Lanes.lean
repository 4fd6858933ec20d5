import Mathlib.Data.List.Nodup
import Mathlib.Data.List.Sort
import Mathlib.Data.Prod.Lex
import WorkloadReplay.Proofs.Time.Order
import WorkloadReplay.Stream.Merge

/-!
# Lanes in order

The lanes of a merge are ordered by the starts of their first operations and then by their numbers.
`Lane.key` is that pair, so that the order is the lexicographic one of the library. `Lane.Ordered`
says what is true of the lanes at any time: their keys are in order, no two have the same number,
and each comes with an operation that is good as the next one of its sequence. It is kept when a
lane moves on (`Lane.Ordered.next`), and so the operations that come out are in order of start, from
whatever streams they come (`merge_timeOrdered`).
-/

namespace WorkloadReplay

variable {P : Type}

/-- The operations at the front of a schedule, up to its end or the first error. -/
def Schedule.operations : Schedule P → List (ScheduledOperation P)
  | .nil => []
  | .cons (.error _) _ => []
  | .cons (.ok s) tail => s :: operations (tail ())

/-- The operations of a schedule are in order of start, and none depends on a time after its
start. -/
structure Schedule.TimeOrdered (s : Schedule P) : Prop where
  sorted : s.operations.Pairwise (·.operation.scheduledStart ≤ ·.operation.scheduledStart)
  dependencies : ∀ x ∈ s.operations, x.operation.dependencyTime ≤ x.operation.scheduledStart

namespace Source

/-- An operation is good as the next one of a sequence if it is no earlier than the last one, and
depends on nothing later than its start. -/
theorem fault?_eq_none {s : Source P} {op : Operation P} : s.fault? op = none ↔
    s.lastStart ≤ some op.scheduledStart ∧ op.dependencyTime ≤ op.scheduledStart := by
  have hlate : fault?.late s op = none ↔ op.dependencyTime ≤ op.scheduledStart := by
    unfold fault?.late Operation.hasValidDependency
    by_cases hv : op.dependencyTime ≤ op.scheduledStart <;> simp [hv]
  unfold fault?
  cases hl : s.lastStart with
  | none => simpa using hlate
  | some last =>
    rw [Option.some_le_some]
    by_cases hlt : op.scheduledStart < last
    · simp [hlt]
    · simpa [hlt, not_lt.mp hlt] using hlate

/-- What a sequence without a fault in its next operation gives. -/
theorem pull_eq_some {s s' : Source P} {op : Operation P} : s.pull = .ok (some (op, s')) ↔
    ∃ tail, s.rest = .cons (.ok op) tail ∧
      s' = { s with lastStart := some op.scheduledStart, rest := tail () } ∧
      s.lastStart ≤ some op.scheduledStart ∧ op.dependencyTime ≤ op.scheduledStart := by
  constructor
  · intro h
    unfold pull at h
    split at h
    · simp at h
    · simp at h
    · simp at h
    · rename_i op' tail hrest
      split at h
      · simp at h
      · rename_i hfault
        simp only [Except.ok.injEq, Option.some.injEq, Prod.mk.injEq] at h
        obtain ⟨rfl, rfl⟩ := h
        exact ⟨tail, hrest, rfl, fault?_eq_none.mp hfault⟩
  · rintro ⟨tail, hrest, rfl, hgood⟩
    unfold pull
    simp [hrest, fault?_eq_none.mpr hgood]

/-- The sequences of streams are the dependencies and the other operations of each stream. -/
theorem mem_ofStreams {streams : List (OperationStream P)} {source : Source P} :
    source ∈ ofStreams streams ↔ ∃ s ∈ streams,
      source = ⟨s.operationType ++ " dependencies", true, none, s.dependencies⟩ ∨
      source = ⟨s.operationType ++ " operations", false, none, s.others⟩ := by
  induction streams with
  | nil => simp [ofStreams]
  | cons s ss ih => simp [ofStreams, ih, or_assoc]

end Source

namespace Lane

/-- The start of the operation that a lane comes with, and the lane's number. -/
def key (a : Lane P) : Instant ×ₗ Nat := toLex (a.head.scheduledStart, a.number)

/-- Keys compare by the starts of the operations, and then by the numbers. -/
theorem key_lt_iff {a b : Lane P} : a.key < b.key ↔
    a.head.scheduledStart < b.head.scheduledStart ∨
      a.head.scheduledStart = b.head.scheduledStart ∧ a.number < b.number :=
  Prod.Lex.toLex_lt_toLex

/-- A lane comes before another if its key is less. -/
theorem before_iff {a b : Lane P} : a.before b = true ↔ a.key < b.key := by
  unfold before
  rw [key_lt_iff]
  simp

/-- Inserting a lane adds it. -/
theorem insert_perm (a : Lane P) (as : List (Lane P)) : (insert a as).Perm (a :: as) := by
  induction as with
  | nil => exact List.Perm.refl _
  | cons b bs ih =>
    unfold insert
    split_ifs
    · exact List.Perm.refl _
    · exact (ih.cons b).trans (List.Perm.swap a b bs)

/-- After a lane has been inserted, a lane is that one or one from before. -/
theorem mem_insert {a b : Lane P} {as : List (Lane P)} : b ∈ insert a as ↔ b = a ∨ b ∈ as :=
  (insert_perm a as).mem_iff.trans List.mem_cons

/-- A number above those of all lanes is that of none. -/
theorem not_mem_numbers {as : List (Lane P)} {n : Nat} (h : ∀ a ∈ as, a.number < n) :
    n ∉ as.map number := by
  intro hmem
  obtain ⟨a, ha, heq⟩ := List.mem_map.mp hmem
  have hlt := h a ha
  omega

/-- Numbers stay below the next bound when the lane of the bound is inserted. -/
theorem number_lt_succ {a : Lane P} {as : List (Lane P)} {n : Nat} (h : ∀ b ∈ as, b.number < n)
    (ha : a.number = n) : ∀ b ∈ insert a as, b.number < n + 1 := by
  intro b hb
  rcases mem_insert.mp hb with rfl | hb
  · omega
  · exact Nat.lt_succ_of_lt (h b hb)

/-- The lanes of a merge as they are at any time. -/
structure Ordered (lanes : List (Lane P)) : Prop where
  sorted : lanes.Pairwise (·.key < ·.key)
  nodup : (lanes.map number).Nodup
  /-- The last operation taken from a lane's sequence is the one that it comes with. -/
  taken : ∀ a ∈ lanes, a.source.lastStart = some a.head.scheduledStart
  dependencies : ∀ a ∈ lanes, a.head.dependencyTime ≤ a.head.scheduledStart

section Keeping

variable {lanes as : List (Lane P)} {a b : Lane P}

/-- A lane with a number of its own is put in order among lanes in order. -/
theorem Ordered.insert (h : Ordered as) (hnew : a.number ∉ as.map number)
    (htaken : a.source.lastStart = some a.head.scheduledStart)
    (hdep : a.head.dependencyTime ≤ a.head.scheduledStart) : Ordered (insert a as) := by
  have hperm := insert_perm a as
  refine ⟨?_, ?_, ?_, ?_⟩
  · obtain ⟨hsorted, -, -, -⟩ := h
    induction as with
    | nil => exact List.pairwise_singleton _ _
    | cons b bs ih =>
      obtain ⟨hb, hbs⟩ := List.pairwise_cons.mp hsorted
      rw [List.map_cons, List.mem_cons, not_or] at hnew
      unfold Lane.insert
      split_ifs with hab
      · rw [before_iff] at hab
        refine List.pairwise_cons.mpr ⟨fun c hc => ?_, hsorted⟩
        rcases List.mem_cons.mp hc with rfl | hc
        · exact hab
        · exact lt_trans hab (hb c hc)
      · refine List.pairwise_cons.mpr ⟨fun c hc => ?_, ih hnew.2 (insert_perm a bs) hbs⟩
        rcases mem_insert.mp hc with rfl | hc
        · -- The keys differ, since the numbers do.
          rw [before_iff, not_lt] at hab
          refine lt_of_le_of_ne hab fun heq => hnew.1 ?_
          exact (congrArg (fun k => (ofLex k).2) heq).symm
        · exact hb c hc
  · rw [(hperm.map number).nodup_iff, List.map_cons]
    exact List.nodup_cons.mpr ⟨hnew, h.nodup⟩
  · intro c hc
    rcases mem_insert.mp hc with rfl | hc
    · exact htaken
    · exact h.taken c hc
  · intro c hc
    rcases mem_insert.mp hc with rfl | hc
    · exact hdep
    · exact h.dependencies c hc

/-- Lanes in order stay so without the first one. -/
theorem Ordered.tail (h : Ordered (a :: as)) : Ordered as where
  sorted := (List.pairwise_cons.mp h.sorted).2
  nodup := (List.nodup_cons.mp h.nodup).2
  taken c hc := h.taken c (List.mem_cons_of_mem a hc)
  dependencies c hc := h.dependencies c (List.mem_cons_of_mem a hc)

/-- The lane of a sequence comes with its next operation. -/
theorem ofSource_eq_some {n : Nat} {s : Source P} (h : ofSource n s = .ok (some a)) :
    s.pull = .ok (some (a.head, a.source)) ∧ a.number = n := by
  unfold ofSource at h
  split at h
  · simp at h
  · simp at h
  · rename_i op s' hpull
    obtain rfl := Option.some.inj (Except.ok.inj h)
    exact ⟨hpull, rfl⟩

/-- A lane that moves on keeps its number, and comes with no earlier operation. -/
theorem next_eq_some (htaken : a.source.lastStart = some a.head.scheduledStart)
    (h : a.next = .ok (some b)) : b.number = a.number ∧
      a.head.scheduledStart ≤ b.head.scheduledStart ∧
      b.source.lastStart = some b.head.scheduledStart ∧
      b.head.dependencyTime ≤ b.head.scheduledStart := by
  obtain ⟨hpull, hnumber⟩ := ofSource_eq_some h
  obtain ⟨tail, -, hsource, hlast, hdep⟩ := Source.pull_eq_some.mp hpull
  rw [htaken] at hlast
  exact ⟨hnumber, Option.some_le_some.mp hlast, by rw [hsource], hdep⟩

/-- The first of the lanes in order moves on, and they are put in order again. -/
theorem Ordered.next (h : Ordered (a :: as)) (hb : a.next = .ok (some b)) :
    Ordered (Lane.insert b as) := by
  obtain ⟨hnumber, -, htaken, hdep⟩ := next_eq_some (h.taken a List.mem_cons_self) hb
  refine h.tail.insert ?_ htaken hdep
  rw [hnumber]
  exact (List.nodup_cons.mp h.nodup).1

/-- The first of the lanes in order comes with the earliest operation. -/
theorem Ordered.head_le (h : Ordered (a :: as)) (hb : b ∈ a :: as) :
    a.head.scheduledStart ≤ b.head.scheduledStart := by
  rcases List.mem_cons.mp hb with rfl | hb
  · exact le_refl _
  · have hlt := key_lt_iff.mp ((List.pairwise_cons.mp h.sorted).1 b hb)
    exact hlt.elim le_of_lt fun heq => le_of_eq heq.1

/-- What a merge gives after the operation of its first lane, if that lane's sequence is faulty. -/
theorem merge_of_next_error {e : ReplayError} (h : a.next = .error e) : merge (a :: as) =
    .cons (.ok ⟨a.head, a.source.tracked⟩) fun _ => .cons (.error e) fun _ => .nil := by
  rw [merge]
  congr 1
  funext
  split <;> simp_all

/-- What a merge gives after the operation of its first lane, if that lane's sequence has ended. -/
theorem merge_of_next_none (h : a.next = .ok none) : merge (a :: as) =
    .cons (.ok ⟨a.head, a.source.tracked⟩) fun _ => merge as := by
  rw [merge]
  congr 1
  funext
  split <;> simp_all

/-- What a merge gives after the operation of its first lane, if that lane moves on. -/
theorem merge_of_next_some (h : a.next = .ok (some b)) : merge (a :: as) =
    .cons (.ok ⟨a.head, a.source.tracked⟩) fun _ => merge (insert b as) := by
  rw [merge]
  congr 1
  funext
  split <;> simp_all

/-- What lanes in order give is in order, and begins no earlier than they do. -/
theorem Ordered.merge (h : Ordered lanes) : (merge lanes).TimeOrdered ∧
    ∀ x ∈ (merge lanes).operations, ∃ a ∈ lanes,
      a.head.scheduledStart ≤ x.operation.scheduledStart := by
  induction lanes using Lane.merge.induct with
  | case1 =>
    unfold Lane.merge
    exact ⟨⟨List.Pairwise.nil, by simp [Schedule.operations]⟩, by simp [Schedule.operations]⟩
  | case2 a as ihas ihnext =>
    -- Whatever becomes of the first lane, what follows its operation starts no earlier.
    have hrest : ∃ rest : Schedule P,
        Lane.merge (a :: as) = .cons (.ok ⟨a.head, a.source.tracked⟩) (fun _ => rest) ∧
        rest.TimeOrdered ∧ ∀ x ∈ rest.operations,
          a.head.scheduledStart ≤ x.operation.scheduledStart := by
      cases hnext : a.next with
      | error e =>
        refine ⟨_, merge_of_next_error hnext, ⟨List.Pairwise.nil, ?_⟩, ?_⟩ <;>
          simp [Schedule.operations]
      | ok next =>
        cases next with
        | none =>
          obtain ⟨hordered, hge⟩ := ihas h.tail
          refine ⟨_, merge_of_next_none hnext, hordered, fun x hx => ?_⟩
          obtain ⟨b, hb, hle⟩ := hge x hx
          exact le_trans (h.head_le (List.mem_cons_of_mem a hb)) hle
        | some b =>
          obtain ⟨hordered, hge⟩ := ihnext b hnext (h.next hnext)
          refine ⟨_, merge_of_next_some hnext, hordered, fun x hx => ?_⟩
          obtain ⟨c, hc, hle⟩ := hge x hx
          refine le_trans ?_ hle
          rcases mem_insert.mp hc with rfl | hc
          · exact (next_eq_some (h.taken a List.mem_cons_self) hnext).2.1
          · exact h.head_le (List.mem_cons_of_mem a hc)
    obtain ⟨rest, heq, hordered, hge⟩ := hrest
    rw [heq]
    refine ⟨⟨?_, ?_⟩, ?_⟩
    · exact List.pairwise_cons.mpr ⟨hge, hordered.sorted⟩
    · intro x hx
      rcases List.mem_cons.mp hx with rfl | hx
      · exact h.dependencies a List.mem_cons_self
      · exact hordered.dependencies x hx
    · intro x hx
      refine ⟨a, List.mem_cons_self, ?_⟩
      rcases List.mem_cons.mp hx with rfl | hx
      · exact le_refl _
      · exact hge x hx

/-- The lanes of numbered sequences are in order. -/
theorem Ordered.ofSources {n : Nat} {sources : List (Source P)} (h : Ordered as)
    (hlt : ∀ a ∈ as, a.number < n) (hs : ofSources n sources as = .ok lanes) : Ordered lanes := by
  induction sources generalizing n as with
  | nil =>
    obtain rfl := Except.ok.inj hs
    exact h
  | cons s ss ih =>
    unfold Lane.ofSources at hs
    split at hs
    · simp at hs
    · exact ih h (fun a ha => Nat.lt_succ_of_lt (hlt a ha)) hs
    · rename_i a ha
      obtain ⟨hpull, hnumber⟩ := ofSource_eq_some ha
      obtain ⟨tail, -, hsource, -, hdep⟩ := Source.pull_eq_some.mp hpull
      have hnew : a.number ∉ as.map number := hnumber ▸ not_mem_numbers hlt
      exact ih (h.insert hnew (by rw [hsource]) hdep) (number_lt_succ hlt hnumber) hs

end Keeping

/-- No lanes are in order. -/
theorem ordered_nil : Ordered ([] : List (Lane P)) :=
  ⟨List.Pairwise.nil, List.nodup_nil, by simp, by simp⟩

end Lane

/-- A merged sequence is in order of start up to its end or its error. -/
theorem merge_timeOrdered (streams : List (OperationStream P)) : (merge streams).TimeOrdered := by
  unfold merge
  split
  · exact ⟨List.Pairwise.nil, by simp [Schedule.operations]⟩
  · rename_i lanes hlanes
    exact (Lane.ordered_nil.ofSources (by simp) hlanes).merge.1

end WorkloadReplay
