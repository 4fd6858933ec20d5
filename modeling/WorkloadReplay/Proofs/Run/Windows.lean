import WorkloadReplay.Proofs.Run.Batching

/-!
# How a window divides a sequence

With a window, the calls for the next batch divide a sequence greedily (`Schedule.Greedy`): a batch
begins with the next operation that is left, and takes in those after it that start within the
window of it. An error ends a batch, and is what the next call gives.

The window ends where the range of instants ends, and what starts at its end does not belong to it
any more. So an operation at the last instant of all belongs to no batch that begins before it, nor
to one that begins with another operation of that instant, even where the window reaches beyond
(`Schedule.batches_greedy`).
-/

namespace WorkloadReplay

variable {P : Type} {w : Duration} {s : Schedule P}

/-- An operation starts before the window is over that begins with another one, as whole numbers
go. -/
def ScheduledOperation.InWindow (w : Duration) (first x : ScheduledOperation P) : Prop :=
  x.start.nanos < first.start.nanos + w.nanos

/-- An operation that starts within the window of another one and not at the last instant. -/
def ScheduledOperation.InWindowBeforeEnd (w : Duration) (first x : ScheduledOperation P) : Prop :=
  first.InWindow w x ∧ x.start ≠ Instant.greatest

/-- An instant is before the end of a window if it is within it and not the last one, as far as a
window ends there. -/
theorem Instant.lt_addOrGreatest_iff {t u : Instant} (hw : 0 < w.nanos) :
    u < t.addOrGreatest w ↔ u.nanos < t.nanos + w.nanos ∧ u ≠ Instant.greatest := by
  have hlast : u ≠ Instant.greatest ↔ u.nanos < greatestNanos := by
    have hle := u.fits.2
    rw [ne_eq, Instant.ext_iff]
    change ¬ u.nanos = greatestNanos ↔ _
    omega
  rw [hlast]
  unfold Instant.addOrGreatest Instant.add? Instant.ofNanos?
  split_ifs with hfits
  · have hend := hfits.2
    rw [Option.getD_some, Instant.lt_iff]
    dsimp only
    omega
  · -- The window leads beyond the last instant, and so every instant is within it.
    have hend : greatestNanos < t.nanos + w.nanos := by
      have := t.fits.1
      unfold FitsNanos at hfits
      omega
    rw [Option.getD_none, Instant.lt_iff]
    change u.nanos < greatestNanos ↔ _
    omega

/-- What follows the operations that are taken off a sequence does not start before the limit. -/
theorem not_lt_of_head_takeBefore {limit : Instant} {x : ScheduledOperation P}
    (hx : (takeBefore limit s).2.operations.head? = some x) : ¬ x.start < limit := by
  induction s with
  | nil => simp [takeBefore, Schedule.operations] at hx
  | cons item tail ih =>
    cases item with
    | error e => simp [takeBefore, Schedule.operations] at hx
    | ok y =>
      unfold takeBefore at hx
      split_ifs at hx with hlt
      · exact ih () hx
      · obtain rfl := Option.some.inj hx
        exact hlt

/-- What follows a batch with a window does not start before the window ends. -/
theorem not_lt_of_nextBatch {b : Batch P} (h : nextBatch (some w) s = some (.ok b))
    {x : ScheduledOperation P} (hx : b.rest.operations.head? = some x) :
    ¬ x.start < b.first.start.addOrGreatest w := by
  unfold nextBatch at h
  split at h
  · simp at h
  · simp at h
  · obtain rfl := Except.ok.inj (Option.some.inj h)
    exact not_lt_of_head_takeBefore hx

namespace Schedule

/-- Some batches divide a sequence greedily, where `belongs first x` says that an operation `x`
belongs to the batch that begins with `first`. They are what the calls for the next batch give, one
after another, up to the first error or the end. -/
inductive Greedy (window : Option Duration)
    (belongs : ScheduledOperation P → ScheduledOperation P → Prop) :
    Schedule P → List (Batch P) → Prop
  /-- At the end of the sequence there is no batch. -/
  | ends {s : Schedule P} (hend : s.toList = []) (hcall : nextBatch window s = none) :
    Greedy window belongs s []
  /-- Where an error is next, the call gives the error and nothing else. -/
  | fails {s : Schedule P} {e : ReplayError} (herror : s.toList.head? = some (.error e))
      (hcall : nextBatch window s = some (.error e)) :
    Greedy window belongs s []
  /-- A batch is the next operation with those after it that belong to it; none of the others before
  the next error does. -/
  | takes {s : Schedule P} {b : Batch P} {batches : List (Batch P)}
      (hcall : nextBatch window s = some (.ok b))
      (hitems : s.toList = b.operations.map .ok ++ b.rest.toList)
      (hmembers : ∀ x ∈ b.others, belongs b.first x)
      (hleft : ∀ x ∈ b.rest.operations, ¬ belongs b.first x)
      (hrest : Greedy window belongs b.rest batches) :
    Greedy window belongs s (b :: batches)

section Greedy

variable {window : Option Duration}
  {belongs belongs' : ScheduledOperation P → ScheduledOperation P → Prop} {batches : List (Batch P)}

/-- What is left after a batch does not belong to it. -/
theorem Greedy.not_belongs (h : s.Greedy window belongs batches) {b : Batch P} (hb : b ∈ batches)
    {x : ScheduledOperation P} (hx : x ∈ b.rest.operations) : ¬ belongs b.first x := by
  induction h with
  | ends => simp at hb
  | fails => simp at hb
  | takes _ _ _ hleft _ ih =>
    rcases List.mem_cons.mp hb with rfl | hmem
    · exact hleft x hx
    · exact ih hmem

/-- More operations may belong to the batches, as long as these are not left after them. -/
theorem Greedy.mono (h : s.Greedy window belongs batches)
    (hmore : ∀ first x, belongs first x → belongs' first x)
    (hleft : ∀ b ∈ batches, ∀ x ∈ b.rest.operations, ¬ belongs' b.first x) :
    s.Greedy window belongs' batches := by
  induction h with
  | ends hend hcall => exact .ends hend hcall
  | fails herror hcall => exact .fails herror hcall
  | takes hcall hitems hmembers _ _ ih =>
    obtain ⟨hfirst, hlater⟩ := List.forall_mem_cons.mp hleft
    exact .takes hcall hitems (fun x hx => hmore _ x (hmembers x hx)) hfirst (ih hlater)

end Greedy

/-- A call that gives an error has found it at the front of the sequence. -/
theorem head?_of_nextBatch_error {window : Option Duration} {e : ReplayError}
    (h : nextBatch window s = some (.error e)) : s.toList.head? = some (.error e) := by
  unfold nextBatch at h
  split at h
  · simp at h
  · obtain rfl := Except.error.inj (Option.some.inj h)
    rfl
  · split at h <;> simp at h

/-- A window divides a sequence in order greedily. What belongs to a batch are the operations within
the window of its first one, but for those at the last instant. -/
theorem greedy_batches (hw : 0 < w.nanos) (hordered : s.operations.Pairwise (·.start ≤ ·.start)) :
    s.Greedy (some w) (ScheduledOperation.InWindowBeforeEnd w) (s.batches (some w)) := by
  induction s using Schedule.batches.induct (some w) with
  | case1 s b hnext ih =>
    have hparts := nextBatch_append hnext
    rw [← hparts, List.pairwise_append] at hordered
    obtain ⟨-, hrest, -⟩ := hordered
    rw [batches_of_nextBatch hnext]
    refine .takes hnext (nextBatch_toList hnext).symm (fun x hx => ?_) (fun x hx => ?_) (ih hrest)
    · exact (Instant.lt_addOrGreatest_iff hw).mp ((keeps_of_nextBatch hnext).within w rfl x hx)
    · refine fun hin => ?_
      -- The next operation is not before the end of the window, and this one is not before that.
      have hlt := (Instant.lt_addOrGreatest_iff hw).mpr hin
      cases hops : b.rest.operations with
      | nil => simp [hops] at hx
      | cons y ys =>
        have hnot := not_lt_of_nextBatch hnext (x := y) (by rw [hops]; rfl)
        rw [hops] at hx hrest
        rcases List.mem_cons.mp hx with rfl | hmem
        · exact hnot hlt
        · exact hnot (lt_of_le_of_lt ((List.pairwise_cons.mp hrest).1 x hmem) hlt)
  | case2 s e hnext =>
    rw [batches_eq_nil (by simp [hnext])]
    exact .fails (head?_of_nextBatch_error hnext) hnext
  | case3 s hnext =>
    rw [batches_eq_nil (by simp [hnext])]
    exact .ends (toList_of_nextBatch_none hnext) hnext

/-- The batches of a sequence in order, with a window:

* they divide it greedily, where what belongs to a batch are the operations that start within the
  window of its first one, and not at the last instant;
* they divide it greedily by the windows alone exactly if no operation at the last instant is left
  after a batch within whose window it starts. -/
theorem batches_greedy (hw : 0 < w.nanos) (hordered : s.operations.Pairwise (·.start ≤ ·.start)) :
    s.Greedy (some w) (ScheduledOperation.InWindowBeforeEnd w) (s.batches (some w)) ∧
    (s.Greedy (some w) (ScheduledOperation.InWindow w) (s.batches (some w)) ↔
      ∀ b ∈ s.batches (some w), ∀ x ∈ b.rest.operations, x.start = Instant.greatest →
        ¬ b.first.InWindow w x) := by
  have hgreedy := greedy_batches hw hordered
  refine ⟨hgreedy, fun h b hb x hx _ => h.not_belongs hb hx, fun h => ?_⟩
  refine hgreedy.mono (fun _ _ hin => hin.1) fun b hb x hx hin => ?_
  by_cases hlast : x.start = Instant.greatest
  · exact h b hb x hx hlast hin
  · exact hgreedy.not_belongs hb hx ⟨hin, hlast⟩

/-- A window of three nanoseconds. -/
def threeNanos : Duration := .saturating 3

/-- Reads in two windows, the second of which reaches just to the last instant, and an error. -/
def readsBeforeEnd : Schedule Unit :=
  .ofList (([1, 3, 4, greatestNanos - 3, greatestNanos - 1].map fun n =>
    .ok ⟨Operation.independent "read" (.saturating n) (), false⟩) ++
      [.error (.streamConstruction "reads operations: connection lost")])

/-- The third read starts just when the first window is over, so a batch of two comes first. -/
theorem batches_greedy_readsBeforeEnd :
    0 < threeNanos.nanos ∧ readsBeforeEnd.operations.Pairwise (·.start ≤ ·.start) ∧
    readsBeforeEnd.Greedy (some threeNanos) (ScheduledOperation.InWindowBeforeEnd threeNanos)
      (readsBeforeEnd.batches (some threeNanos)) ∧
    ∃ b batches, readsBeforeEnd.batches (some threeNanos) = b :: batches ∧
      b.operations.length = 2 ∧
      ∀ x ∈ b.rest.operations, x.start = Instant.greatest → ¬ b.first.InWindow threeNanos x := by
  have hw : 0 < threeNanos.nanos := by decide
  have hordered : readsBeforeEnd.operations.Pairwise (·.start ≤ ·.start) := by decide
  obtain ⟨b, hnext, hlength, hnone⟩ : ∃ b : Batch Unit,
      nextBatch (some threeNanos) readsBeforeEnd = some (.ok b) ∧ b.operations.length = 2 ∧
      ∀ x ∈ b.rest.operations, x.start ≠ Instant.greatest :=
    ⟨_, rfl, rfl, by decide⟩
  exact ⟨hw, hordered, (batches_greedy hw hordered).1, b, _, batches_of_nextBatch hnext, hlength,
    fun x hx hlast => absurd hlast (hnone x hx)⟩

/-- Four reads that start together, at the last instant. -/
def readsAtEnd : Schedule Unit :=
  .ofList (List.replicate 4 (.ok ⟨Operation.independent "read" .greatest (), false⟩))

/-- All four start within the window of the first, but that is a batch of its own. So they are not
divided as the windows say. -/
theorem batches_not_greedy_at_end :
    0 < threeNanos.nanos ∧ readsAtEnd.operations.Pairwise (·.start ≤ ·.start) ∧
    (∃ b, nextBatch (some threeNanos) readsAtEnd = some (.ok b) ∧ b.others = [] ∧
      b.rest.operations.length = 3 ∧ ∀ x ∈ b.rest.operations, b.first.InWindow threeNanos x) ∧
    ¬ readsAtEnd.Greedy (some threeNanos) (ScheduledOperation.InWindow threeNanos)
      (readsAtEnd.batches (some threeNanos)) := by
  obtain ⟨b, hnext, hothers, hlength, hwithin⟩ : ∃ b : Batch Unit,
      nextBatch (some threeNanos) readsAtEnd = some (.ok b) ∧ b.others = [] ∧
      b.rest.operations.length = 3 ∧
      ∀ x ∈ b.rest.operations, b.first.start.nanos + 3 > x.start.nanos :=
    ⟨_, rfl, rfl, rfl, by decide⟩
  refine ⟨by decide, by decide, ⟨b, hnext, hothers, hlength, hwithin⟩, fun h => ?_⟩
  obtain ⟨x, hx⟩ := List.exists_mem_of_length_pos (by omega : 0 < b.rest.operations.length)
  refine h.not_belongs ?_ hx (hwithin x hx)
  rw [batches_of_nextBatch hnext]
  exact List.mem_cons_self

end Schedule

end WorkloadReplay
