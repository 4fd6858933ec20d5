import WorkloadReplay.Proofs.Run.Accounting

/-!
# Gated operations

A gated operation is dispatched only after the global completion time has reached its dependency
time. `spawn_gated` says what that is worth. Whenever a gated operation is dispatched, every tracked
operation that starts strictly before its dependency time has been dispatched by this run and
completed in its tracker, in whatever order handlers end and other peers report.

For tracked operations that start just at the dependency time this is not so. A tracker with nothing
pending reports the highest time that it has initiated, and an operation of that very time may still
follow. `spawn_gated` gives the exact condition, and a condition on the sequence that suffices: at
most one tracked operation starts at the dependency time. `not_settled_of_tie` is a run in which two
start together and the gated operation does not wait for the second.
-/

namespace WorkloadReplay

variable {P κ : Type}

namespace Run

/-- Every tracked operation of a sequence whose start has a property is dispatched, and it is
completed. -/
def Settled (ops : List (ScheduledOperation P)) (done : List (ScheduledOperation P × Nat))
    (r : Run P κ) (p : Instant → Prop) : Prop :=
  ∀ (i : Nat) (x : ScheduledOperation P), ops[i]? = some x → x.tracked = true →
    p x.operation.scheduledStart → r.dispatched[i]? = some x ∧ (x, i) ∈ done

/-- A tracked operation that starts at a time has a number in a sequence. -/
def TrackedAt (ops : List (ScheduledOperation P)) (time : Instant) (i : Nat) : Prop :=
  ∃ x, ops[i]? = some x ∧ x.tracked = true ∧ x.operation.scheduledStart = time

/-- In a sequence in order of start, what stands later starts no earlier. -/
theorem start_le {ops : List (ScheduledOperation P)}
    (hsorted : ops.Pairwise (·.operation.scheduledStart ≤ ·.operation.scheduledStart)) {i j : Nat}
    {x y : ScheduledOperation P} (hx : ops[i]? = some x) (hy : ops[j]? = some y) (hle : i ≤ j) :
    x.operation.scheduledStart ≤ y.operation.scheduledStart := by
  rcases Nat.lt_or_eq_of_le hle with hlt | rfl
  · obtain ⟨hi, rfl⟩ := List.getElem?_eq_some_iff.mp hx
    obtain ⟨hj, rfl⟩ := List.getElem?_eq_some_iff.mp hy
    exact List.pairwise_iff_getElem.mp hsorted i j hi hj hlt
  · rw [hx] at hy
    rw [Option.some.inj hy]

section Spawning

variable {setup : RunSetup κ} {ops : List (ScheduledOperation P)}
  {done : List (ScheduledOperation P × Nat)} {r : Run P κ} {t : CompletionTracker} {time : Instant}

/-- What has been dispatched stands at the front of the sequence. -/
theorem Sound.getElem?_ops (h : Sound setup ops done r) {i : Nat} (hi : i < r.dispatched.size) :
    ops[i]? = r.dispatched[i]? := by
  obtain ⟨tail, heq⟩ := h.position
  rw [← heq, List.append_assoc, List.getElem?_append_left (by simpa using hi),
    Array.getElem?_toList]

/-- A dispatched tracked operation stands in the sequence where its number says. -/
theorem Sound.getElem?_of_mem (h : Sound setup ops done r) {x : ScheduledOperation P} {i : Nat}
    (hjob : (x, i) ∈ r.trackedJobs) : ops[i]? = some x := by
  have hi := (mem_trackedJobs.mp hjob).1
  rw [h.getElem?_ops (Array.getElem?_eq_some_iff.mp hi).1, hi]

/-- The operation that the scheduler holds first follows what has been dispatched. -/
theorem Sound.getElem?_held (h : Sound setup ops done r) {next : ScheduledOperation P}
    {batch : List (ScheduledOperation P)} (hheld : r.phase.held? = some (next :: batch)) :
    ops[r.dispatched.size]? = some next := by
  obtain ⟨tail, heq⟩ := h.position
  have hremaining : r.remaining = next :: (batch ++ r.operations.operations) := by
    unfold remaining
    rw [hheld]
    rfl
  rw [← heq, hremaining, List.append_assoc, List.getElem?_append_right (by simp)]
  simp

/-- What an admitted operation is, and where it stands: it follows what has been dispatched. -/
theorem Sound.getElem?_size (h : Sound setup ops done r) {next : ScheduledOperation P}
    {batch : List (ScheduledOperation P)} (hphase : r.phase = .admitting next batch) :
    ops[r.dispatched.size]? = some next :=
  h.getElem?_held (by rw [hphase]; rfl)

/-- What starts before an admitted operation has been dispatched. -/
theorem Sound.lt_size (h : Sound setup ops done r) {next : ScheduledOperation P}
    {batch : List (ScheduledOperation P)} (hphase : r.phase = .admitting next batch)
    (hsorted : ops.Pairwise (·.operation.scheduledStart ≤ ·.operation.scheduledStart)) {i : Nat}
    {x : ScheduledOperation P} (hx : ops[i]? = some x)
    (hlt : x.operation.scheduledStart < next.operation.scheduledStart) :
    i < r.dispatched.size := by
  by_contra hi
  have hnext := h.getElem?_size hphase
  exact absurd hlt (not_lt.mpr (start_le hsorted hnext hx (not_lt.mp hi)))

/-- When a gated operation is admitted, the tracker has reported its dependency time. -/
theorem Sound.reported (h : Sound setup ops done r) {g : ScheduledOperation P}
    {batch : List (ScheduledOperation P)} (hphase : r.phase = .admitting g batch)
    (hgated : g.operation.isGated = true) :
    ∃ t, r.tracker = some t ∧ some g.operation.dependencyTime ≤ t.lastSubmitted := by
  obtain ⟨t, ht⟩ := h.exists_tracker (by simp [hphase]) (by simp [hphase, SchedulerPhase.held?])
  obtain ⟨seeds, -, hlinked⟩ := h.linked t ht
  have hadmitted := h.admitted g (by rw [hphase]; rfl) hgated
  exact ⟨t, ht, optionLe_trans (CompletionService.hasReached_iff.mp hadmitted)
    (hlinked.global_le h.service)⟩

/-- Of the tracked operations that have been dispatched, those that start before a time that the
tracker has reported are completed. -/
theorem Sound.mem_done (h : Sound setup ops done r) (ht : r.tracker = some t)
    (hreported : some time ≤ t.lastSubmitted) {j : ScheduledOperation P × Nat}
    (hj : j ∈ r.trackedJobs) (hlt : j.1.operation.scheduledStart < time) : j ∈ done := by
  by_contra hnot
  obtain ⟨seeds, -, slot, -, -, haccounts⟩ := h.linked t ht
  -- Nothing that is pending is earlier than what has been reported.
  have hkept := haccounts.kept _ ((h.mem_pending_iff ht).mpr ⟨j, hj, hnot, rfl⟩)
  have hle := Option.some_le_some.mp (optionLe_trans hreported hkept)
  exact absurd hlt (not_lt.mpr hle)

/-- A time of the run that the tracker has reported although it is pending is that of a completed
operation, too. -/
theorem Sound.exists_completed (h : Sound setup ops done r) (ht : r.tracker = some t)
    (hreported : some time ≤ t.lastSubmitted) (hpending : time ∈ t.pending)
    (hstart : setup.start ≤ time) : ∃ j ∈ done, j.1.operation.scheduledStart = time := by
  obtain ⟨seeds, hseeds, slot, -, -, haccounts⟩ := h.linked t ht
  rcases List.mem_append.mp (haccounts.mem_completed hpending hreported) with hmem | hmem
  · exact List.mem_map.mp hmem
  · exact absurd (hseeds _ hmem) (not_lt.mpr hstart)

/-- If at most one tracked operation starts at the dependency time of an admitted gated operation,
that one has been dispatched. -/
theorem Sound.tie_lt_size (h : Sound setup ops done r) {g : ScheduledOperation P}
    {batch : List (ScheduledOperation P)} (hphase : r.phase = .admitting g batch)
    (hsorted : ops.Pairwise (·.operation.scheduledStart ≤ ·.operation.scheduledStart))
    (ht : r.tracker = some t) (hreported : some g.operation.dependencyTime ≤ t.lastSubmitted)
    (hstart : setup.start ≤ g.operation.dependencyTime)
    (hdep : g.operation.dependencyTime ≤ g.operation.scheduledStart)
    (hone : ∀ i j, TrackedAt ops g.operation.dependencyTime i →
      TrackedAt ops g.operation.dependencyTime j → i = j)
    {i : Nat} (hi : TrackedAt ops g.operation.dependencyTime i) : i < r.dispatched.size := by
  obtain ⟨x, hx, htracked, htie⟩ := hi
  rcases lt_or_eq_of_le hdep with hlt | heq
  · exact h.lt_size hphase hsorted hx (by rwa [htie])
  · -- What has been reported comes from a dispatched operation, which starts with the gated one.
    obtain ⟨seeds, hseeds, slot, -, -, haccounts⟩ := h.linked t ht
    obtain ⟨later, hlater, hle⟩ := haccounts.exists_initiated hreported
    rcases List.mem_append.mp hlater with hmem | hmem
    · obtain ⟨⟨y, j⟩, hjob, rfl⟩ := List.mem_map.mp hmem
      have hy := h.getElem?_of_mem hjob
      obtain ⟨hj, hytracked⟩ := mem_trackedJobs.mp hjob
      have hsize := (Array.getElem?_eq_some_iff.mp hj).1
      have hupper := start_le hsorted hy (h.getElem?_size hphase) hsize.le
      rw [← heq] at hupper
      have hytie := le_antisymm hupper hle
      rw [hone i j ⟨x, hx, htracked, htie⟩ ⟨y, hy, hytracked, hytie⟩]
      exact hsize
    · exact absurd (hstart.trans hle) (not_le.mpr (hseeds later hmem))

/-- Where all earlier operations are settled, those that start at a time are settled, too, if and
only if they have all been dispatched and none is pending. -/
theorem Sound.settled_le_iff (h : Sound setup ops done r) (ht : r.tracker = some t)
    (hbefore : Settled ops done r (· < time)) : Settled ops done r (· ≤ time) ↔
      (∀ i, TrackedAt ops time i → i < r.dispatched.size) ∧ time ∉ t.pending := by
  constructor
  · intro hsettled
    refine ⟨?_, fun hpending => ?_⟩
    · rintro i ⟨x, hx, htracked, htie⟩
      have hi := (hsettled i x hx htracked (le_of_eq htie)).1
      exact (Array.getElem?_eq_some_iff.mp hi).1
    · obtain ⟨⟨x, i⟩, hjob, hnot, htie⟩ := (h.mem_pending_iff ht).mp hpending
      have htracked := (mem_trackedJobs.mp hjob).2
      exact hnot (hsettled i x (h.getElem?_of_mem hjob) htracked (le_of_eq htie)).2
  · -- What starts at the time and is dispatched is pending unless it is completed.
    rintro ⟨hties, hnone⟩ i x hx htracked hle
    rcases lt_or_eq_of_le hle with hlt | htie
    · exact hbefore i x hx htracked hlt
    · have hi := (h.getElem?_ops (hties i ⟨x, hx, htracked, htie⟩)).symm.trans hx
      refine ⟨hi, ?_⟩
      by_contra hnot
      exact hnone ((h.mem_pending_iff ht).mpr
        ⟨(x, i), mem_trackedJobs.mpr ⟨hi, htracked⟩, hnot, htie⟩)

/-- A time of the run that the tracker has reported is not pending if at most one tracked operation
starts at it. -/
theorem Sound.not_mem_pending (h : Sound setup ops done r) (ht : r.tracker = some t)
    (hreported : some time ≤ t.lastSubmitted) (hstart : setup.start ≤ time)
    (hone : ∀ i j, TrackedAt ops time i → TrackedAt ops time j → i = j) : time ∉ t.pending := by
  intro hpending
  obtain ⟨⟨x, i⟩, hjob, hnot, htie⟩ := (h.mem_pending_iff ht).mp hpending
  obtain ⟨⟨y, j⟩, hdone, htie'⟩ := h.exists_completed ht hreported hpending hstart
  have hjob' := h.completed _ hdone
  have hx := h.getElem?_of_mem hjob
  have hy := h.getElem?_of_mem hjob'
  -- The pending operation and the completed one are the same.
  obtain rfl := hone i j ⟨x, hx, (mem_trackedJobs.mp hjob).2, htie⟩
    ⟨y, hy, (mem_trackedJobs.mp hjob').2, htie'⟩
  rw [hx] at hy
  exact hnot (Option.some.inj hy ▸ hdone)

end Spawning

/-- What is settled when a gated operation is dispatched, where `done` are the operations that have
been completed until then:

* all tracked operations that start strictly before its dependency time;
* also those that start at its dependency time, if and only if they have all been dispatched and
  none of that time is pending;
* which is so if at most one starts at its dependency time, and not before the start of the run. -/
theorem spawn_gated {setup : RunSetup κ} {ops : Schedule P} {peers : List String}
    {metrics : MetricsPipeline κ} {log : ErrorLog} {events : List RunEvent} {e : RunEvent}
    {r r' : Run P κ} {g : ScheduledOperation P} {done : List (ScheduledOperation P × Nat)}
    (hpeers : peers ≠ []) (hops : ops.TimeOrdered)
    (hsteps : (fresh ops (.ofPeers peers) metrics log).steps setup events = some r)
    (hdone : (fresh ops (.ofPeers peers) metrics log).completions setup events = done)
    (hstep : r.step setup e = some r') (hspawn : r'.dispatched = r.dispatched.push g)
    (hgated : g.operation.isGated = true) :
    Settled ops.operations done r (· < g.operation.dependencyTime) ∧
    (Settled ops.operations done r (· ≤ g.operation.dependencyTime) ↔
      (∀ i, TrackedAt ops.operations g.operation.dependencyTime i → i < r.dispatched.size) ∧
      ∀ t, r.tracker = some t → g.operation.dependencyTime ∉ t.pending) ∧
    (setup.start ≤ g.operation.dependencyTime →
      (∀ i j, TrackedAt ops.operations g.operation.dependencyTime i →
        TrackedAt ops.operations g.operation.dependencyTime j → i = j) →
      Settled ops.operations done r (· ≤ g.operation.dependencyTime)) := by
  have h : Sound setup ops.operations done r := by
    have hsound := (sound_fresh hpeers).steps hsteps
    rwa [hdone, List.nil_append] at hsound
  obtain ⟨batch, hphase⟩ := (turn_of_step hstep).admitting hspawn
  obtain ⟨t, ht, hreported⟩ := h.reported hphase hgated
  have hdep : g.operation.dependencyTime ≤ g.operation.scheduledStart :=
    hops.dependencies g (List.mem_of_getElem? (h.getElem?_size hphase))
  -- What starts before the dependency time starts before the gated operation, too.
  have hbefore : Settled ops.operations done r (· < g.operation.dependencyTime) := by
    intro i x hx htracked hlt
    have hsize := h.lt_size hphase hops.sorted hx (lt_of_lt_of_le hlt hdep)
    have hi := (h.getElem?_ops hsize).symm.trans hx
    exact ⟨hi, h.mem_done ht hreported (mem_trackedJobs.mpr ⟨hi, htracked⟩) hlt⟩
  have hiff := h.settled_le_iff ht hbefore
  have hunique : ∀ u, r.tracker = some u → u = t := fun u hu => by
    rw [ht] at hu
    exact (Option.some.inj hu).symm
  refine ⟨hbefore, ?_, fun hstart hone => ?_⟩
  · rw [hiff]
    exact and_congr_right fun _ =>
      ⟨fun hnone u hu => hunique u hu ▸ hnone, fun hnone => hnone t ht⟩
  · have hearly := fun i hi =>
      h.tie_lt_size hphase hops.sorted ht hreported hstart hdep hone (i := i) hi
    exact hiff.mpr ⟨hearly, h.not_mem_pending ht hreported hstart hone⟩

/-- Events that have been evaluated lead to a state from which the next event dispatches an
operation. -/
theorem exists_spawn [DecidableEq P] {setup : RunSetup κ} {start : Run P κ}
    {events : List RunEvent} {e : RunEvent} {g : ScheduledOperation P}
    (h : (start.steps setup events).bind (fun r => (r.step setup e).map fun r' =>
      decide (r'.dispatched = r.dispatched.push g)) = some true) :
    ∃ r r', start.steps setup events = some r ∧ r.step setup e = some r' ∧
      r'.dispatched = r.dispatched.push g := by
  obtain ⟨r, hr, hmore⟩ := Option.bind_eq_some_iff.mp h
  obtain ⟨r', hr', hspawn⟩ := Option.map_eq_some_iff.mp hmore
  exact ⟨r, r', hr, hr', of_decide_eq_true hspawn⟩

/-- A setup for a start at instant 10 in which operations are dispatched as soon as possible. -/
def localSetup : RunSetup Unit :=
  ⟨{ ignoreScheduledStarts := true }, ⟨10, by decide⟩,
    ⟨fun _ _ => (.done, ()), fun _ => (.done, ())⟩⟩

/-- The beginning of a run of some streams whose only peer is the local one. -/
def localRun (streams : List (OperationStream Unit)) : Run Unit Unit :=
  fresh (merge streams) (.ofPeers ["local"])
    ⟨2, true, [], .receiving, Collector.fresh {} () false, false, none⟩ ErrorLog.empty

/-- The scheduler goes on some number of times. -/
def goesOn (n : Nat) : List RunEvent := List.replicate n (.schedule ⟨10, by decide⟩ false)

/-- The handler of an operation gets a worker and an answer, and sends its record. -/
def handles (number : Nat) : List RunEvent :=
  [.execute number ⟨10, by decide⟩, .answer number (.returned (.ok .null)) Duration.zero,
    .submit number]

/-- An operation at instant 11 that is gated on instant 10. -/
def gatedRead : Operation Unit :=
  (Operation.independent "read" ⟨11, by decide⟩ ()).gatedOn ⟨10, by decide⟩

/-- An operation at instant 10, and one that is gated on it. -/
def singleStreams : List (OperationStream Unit) :=
  [⟨"first", .ofList [.ok (.independent "first" ⟨10, by decide⟩ ())], .ofList [.ok gatedRead]⟩]

/-- Two operations at instant 10, and one that is gated on them. -/
def tieStreams : List (OperationStream Unit) :=
  [⟨"first", .ofList [.ok (.independent "first" ⟨10, by decide⟩ ())], .nil⟩,
    ⟨"second", .ofList [.ok (.independent "second" ⟨10, by decide⟩ ())], .ofList [.ok gatedRead]⟩]

/-- A gated operation is dispatched after the only operation at its dependency time has been
dispatched and completed. -/
theorem spawn_gated_single :
    ∃ r r' : Run Unit Unit,
      (localRun singleStreams).steps localSetup (goesOn 6 ++ handles 0 ++ goesOn 5) = some r ∧
      r.step localSetup (.schedule ⟨10, by decide⟩ false) = some r' ∧
      r'.dispatched = r.dispatched.push ⟨gatedRead, false⟩ ∧
      Settled (merge singleStreams).operations
        ((localRun singleStreams).completions localSetup (goesOn 6 ++ handles 0 ++ goesOn 5)) r
        (· ≤ gatedRead.dependencyTime) := by
  have hrun : ∃ r r', (localRun singleStreams).steps localSetup
      (goesOn 6 ++ handles 0 ++ goesOn 5) = some r ∧
      r.step localSetup (.schedule ⟨10, by decide⟩ false) = some r' ∧
      r'.dispatched = r.dispatched.push ⟨gatedRead, false⟩ := exists_spawn (by decide +kernel)
  obtain ⟨r, r', hr, hr', hspawn⟩ := hrun
  have hties : ∀ i, TrackedAt (merge singleStreams).operations gatedRead.dependencyTime i →
      i = 0 := by
    have hops : (merge singleStreams).operations =
        [⟨.independent "first" ⟨10, by decide⟩ (), true⟩, ⟨gatedRead, false⟩] := by
      decide +kernel
    rintro i ⟨x, hx, htracked, -⟩
    rw [hops] at hx
    match i with
    | 0 => rfl
    | 1 =>
      obtain rfl := Option.some.inj hx
      simp at htracked
    | i + 2 => simp at hx
  refine ⟨r, r', hr, hr', hspawn, ?_⟩
  refine (spawn_gated (by simp) (merge_timeOrdered singleStreams) hr rfl hr' hspawn rfl).2.2
    (by decide) fun i j hi hj => ?_
  rw [hties i hi, hties j hj]

/-- A gated operation is dispatched although an operation at its dependency time has not been
completed: when the first of two operations of one time is completed before the second is
dispatched, the tracker has reported that time. -/
theorem not_settled_of_tie :
    ∃ r r' : Run Unit Unit, (merge tieStreams).TimeOrdered ∧
      (localRun tieStreams).steps localSetup (goesOn 6 ++ handles 0 ++ goesOn 10) = some r ∧
      r.step localSetup (.schedule ⟨10, by decide⟩ false) = some r' ∧
      r'.dispatched = r.dispatched.push ⟨gatedRead, false⟩ ∧ gatedRead.isGated = true ∧
      ¬ Settled (merge tieStreams).operations
        ((localRun tieStreams).completions localSetup (goesOn 6 ++ handles 0 ++ goesOn 10)) r
        (· ≤ gatedRead.dependencyTime) := by
  have hrun : ∃ r r', (localRun tieStreams).steps localSetup
      (goesOn 6 ++ handles 0 ++ goesOn 10) = some r ∧
      r.step localSetup (.schedule ⟨10, by decide⟩ false) = some r' ∧
      r'.dispatched = r.dispatched.push ⟨gatedRead, false⟩ := exists_spawn (by decide +kernel)
  obtain ⟨r, r', hr, hr', hspawn⟩ := hrun
  refine ⟨r, r', merge_timeOrdered _, hr, hr', hspawn, rfl, fun hsettled => ?_⟩
  -- The second operation has been dispatched, but its handler has done nothing yet.
  have hsecond : (merge tieStreams).operations[1]? =
      some ⟨.independent "second" ⟨10, by decide⟩ (), true⟩ := by
    decide +kernel
  have hnot : (⟨.independent "second" ⟨10, by decide⟩ (), true⟩, 1) ∉
      (localRun tieStreams).completions localSetup (goesOn 6 ++ handles 0 ++ goesOn 10) := by
    decide +kernel
  exact hnot (hsettled 1 _ hsecond rfl (by decide)).2

end Run

end WorkloadReplay
