import WorkloadReplay.Proofs.Run.Batching

/-!
# Nothing runs early

Unless scheduled starts are ignored, the scheduler sleeps before each batch until the clock says
that the first operation of the batch is due. All that comes after that, the dispatching of the
operations of the batch and the beginnings of their database calls, comes at later readings of the
clock. So no call begins before the first operation of its batch is due
(`Run.started_after_batch_due`): without windows, not before its own start, and with a window, less
than the window before it.

An error that cuts a sleep short lets no operation through, for the scheduler dispatches no more
then.
-/

namespace WorkloadReplay

variable {P κ : Type}

/-- No instant lies further from another than the duration that is added to it. -/
theorem Instant.nanos_addOrGreatest_le {t : Instant} {d : Duration} (hd : 0 ≤ d.nanos) :
    (t.addOrGreatest d).nanos ≤ t.nanos + d.nanos := by
  unfold addOrGreatest add? ofNanos?
  split_ifs with hfits
  · rw [Option.getD_some]
  · -- The sum does not fit, and it is not too small.
    have hbounds := t.fits
    unfold FitsNanos at hfits hbounds
    show greatestNanos ≤ t.nanos + d.nanos
    omega

/-! ## Members of batches -/

section Members

variable {window : Option Duration} {b : Batch P} {x : ScheduledOperation P}

/-- A batch with one of its operations is among the members of some batches. -/
theorem Batch.of_mem_members {batches : List (Batch P)} (h : (b, x) ∈ Batch.members batches) :
    b ∈ batches ∧ x ∈ b.operations := by
  unfold Batch.members at h
  obtain ⟨b', hb', hmem⟩ := List.mem_flatMap.mp h
  obtain ⟨y, hy, heq⟩ := List.mem_map.mp hmem
  obtain ⟨rfl, rfl⟩ := Prod.mk.inj heq
  exact ⟨hb', hy⟩

/-- Without a window an operation is the first of its batch. -/
theorem Batch.Keeps.eq_first (h : b.Keeps none) (hx : x ∈ b.operations) : x = b.first := by
  unfold Batch.operations at hx
  rw [h.alone rfl] at hx
  exact List.mem_singleton.mp hx

/-- With a window an operation starts less than the window after the first of its batch. -/
theorem Batch.Keeps.sub_lt {w : Duration} (h : b.Keeps (some w)) (hw : 0 < w.nanos)
    (hx : x ∈ b.operations) : x.operation.scheduledStart.nanos - w.nanos <
      b.first.operation.scheduledStart.nanos := by
  rcases List.mem_cons.mp hx with rfl | hmem
  · omega
  · have hlt := h.within w rfl x hmem
    have hlimit := Instant.nanos_addOrGreatest_le (t := b.first.operation.scheduledStart)
      (le_of_lt hw)
    rw [Instant.lt_iff] at hlt
    omega

end Members

namespace Run

/-! ## Batches come due before calls begin -/

/-- The clock has said that a batch is due. -/
def HasComeDue (seen : List Instant) (b : Batch P) : Prop :=
  ∃ time ∈ seen, b.first.operation.scheduledStart ≤ time

/-- The dispatched operation of a number is one of a batch that is due by an instant. -/
def IsDue (window : Option Duration) (ops : Schedule P) (r : Run P κ) (number : Nat)
    (start : Instant) : Prop :=
  ∃ b x, (Batch.members (ops.batches window))[number]? = some (b, x) ∧
    r.dispatched[number]? = some x ∧ b.first.operation.scheduledStart ≤ start

/-- A run that dispatches no operation of a batch and begins no call before the batch is due. -/
structure Timely (window : Option Duration) (ops : Schedule P) (seen : List Instant)
    (endings : List Ending) (r : Run P κ) : Prop where
  stands : Stands window ops (HasComeDue seen) r
  dispatched : ∀ (n : Nat) x, r.dispatched[n]? = some x →
    ∃ b, (Batch.members (ops.batches window))[n]? = some (b, x) ∧ HasComeDue seen b
  begun : Begun (IsDue window ops r) endings r

section Keeping

variable {setup : RunSetup κ} {window : Option Duration} {ops : Schedule P} {r r' : Run P κ}
  {e : RunEvent} {seen : List Instant} {endings : List Ending} {b : Batch P}

/-- What the clock has said once, it has said. -/
theorem HasComeDue.append (h : HasComeDue seen b) (more : List Instant) :
    HasComeDue (seen ++ more) b := by
  obtain ⟨time, htime, hle⟩ := h
  exact ⟨time, List.mem_append_left _ htime, hle⟩

/-- A run begins timely. -/
theorem timely_fresh (window : Option Duration) (ops : Schedule P) (completion : CompletionService)
    (metrics : MetricsPipeline κ) (log : ErrorLog) :
    Timely window ops [] [] (fresh ops completion metrics log) where
  stands := stands_fresh window ops _ completion metrics log
  dispatched n x h := by simp [fresh] at h
  begun := ⟨fun x hx => absurd hx List.not_mem_nil, fun d hd => absurd hd List.not_mem_nil⟩

/-- An operation that is dispatched is one of a batch for which the scheduler has woken up. -/
theorem Timely.dispatched_step (h : Timely setup.config.window ops seen endings r)
    (hstep : r.step setup e = some r') (n : Nat) (x : ScheduledOperation P)
    (hx : r'.dispatched[n]? = some x) :
    ∃ b, (Batch.members (ops.batches setup.config.window))[n]? = some (b, x) ∧
      HasComeDue seen b := by
  rcases dispatched_cases hstep with hsame | ⟨next, batch, hphase, hd⟩
  · exact h.dispatched n x (hsame ▸ hx)
  · rw [hd.dispatched, Array.getElem?_push] at hx
    split_ifs at hx with hn
    · -- The operation that is new comes from the batch in which the run is.
      obtain rfl := Option.some.inj hx
      rcases h.stands (next :: batch) (by rw [hphase]; rfl) with hahead | ⟨b, hwithin, hfound⟩
      · exact absurd hahead.held (List.cons_ne_nil _ _)
      · have hdue : HasComeDue seen b := hfound.resolve_left fun hasleep => by
          simp [hphase, SchedulerPhase.IsAsleep] at hasleep
        exact ⟨b, hn ▸ hwithin.getElem?_members, hdue⟩
    · exact h.dispatched n x hx

/-- Every event keeps a run timely, if the clock does not go back. -/
theorem Timely.step (h : Timely setup.config.window ops seen endings r) {left : List Nat}
    (haccounts : Accounts endings left r)
    (hignore : setup.config.ignoreScheduledStarts = false)
    (hclock : ∀ now, e.reading? = some now → ∀ time ∈ seen, time ≤ now)
    (hstep : r.step setup e = some r') :
    Timely setup.config.window ops (seen ++ e.reading?.toList)
      (endings ++ (r.ending? setup e).toList) r' where
  stands := by
    refine h.stands.step hstep (fun b hdue => hdue.append _) (fun b now hnow hle => ?_)
      fun hignored => absurd hignored (by simp [hignore])
    exact ⟨now, List.mem_append_right _ (Option.mem_toList.mpr hnow), hle⟩
  dispatched n x hx := by
    obtain ⟨b, hmember, hdue⟩ := h.dispatched_step hstep n x hx
    exact ⟨b, hmember, hdue.append _⟩
  begun := by
    refine h.begun.step hstep ?_ ?_
    · -- What has begun or ended before is as timely as it was.
      rintro n start ⟨b, x, hmember, hx, hle⟩
      exact ⟨b, x, hmember, dispatched_kept hstep hx, hle⟩
    · intro x hx start hnow
      -- The call begins at a reading after the one at which its batch was due.
      obtain ⟨hscheduled, -⟩ := haccounts.handlers x hx
      obtain ⟨b, hmember, time, htime, hle⟩ := h.dispatched x.number x.scheduled hscheduled
      have hlater : time ≤ start := hclock start hnow time htime
      refine ⟨b, x.scheduled, hmember, dispatched_kept hstep hscheduled, ?_⟩
      rw [Instant.le_iff] at hle hlater ⊢
      omega

/-- Any events keep it so. -/
theorem Timely.steps (h : Timely setup.config.window ops seen endings r)
    (haccounted : Accounted setup endings r)
    (hignore : setup.config.ignoreScheduledStarts = false) {events : List RunEvent}
    (hs : r.steps setup events = some r')
    (hordered : (seen ++ events.filterMap RunEvent.reading?).Pairwise (· ≤ ·)) :
    Timely setup.config.window ops (seen ++ events.filterMap RunEvent.reading?)
      (endings ++ r.endings setup events) r' := by
  induction events generalizing r seen endings with
  | nil =>
    obtain rfl := Option.some.inj hs
    simpa [Run.endings] using h
  | cons e rest ih =>
    obtain ⟨s, hstep, hrest⟩ := Option.bind_eq_some_iff.mp hs
    obtain ⟨left, haccounts⟩ := haccounted.exists_accounts
    have hsplit : seen ++ (e :: rest).filterMap RunEvent.reading? =
        (seen ++ e.reading?.toList) ++ rest.filterMap RunEvent.reading? := by
      rw [List.append_assoc]
      congr 1
      cases hreading : e.reading? <;> simp [hreading]
    rw [hsplit] at hordered ⊢
    -- What the clock says now is after all that it has said.
    have hclock : ∀ now, e.reading? = some now → ∀ time ∈ seen, time ≤ now := by
      intro now hnow time htime
      have hfirst := (List.pairwise_append.mp hordered).1
      rw [hnow] at hfirst
      exact (List.pairwise_append.mp hfirst).2.2 time htime now (List.mem_singleton.mpr rfl)
    have hlater := ih (h.step haccounts hignore hclock hstep)
      (haccounted.tally (tally_of_step hstep)) hrest hordered
    rw [List.append_assoc endings] at hlater
    rw [Run.endings, hstep]
    exact hlater

end Keeping

/-- Where scheduled starts are not ignored and the clock does not go back, no database call begins
early, whatever else happens in a run. The record of a handler with the number `d.number` is one of
the operation of that number in the batches of the sequence. Its call does not begin before the
first operation of its batch is due. So it does not begin before the start of its own operation
without windows, and with a window it begins less than the window before it. -/
theorem started_after_batch_due {setup : RunSetup κ} {operations : Schedule P}
    {completion : CompletionService} {metrics : MetricsPipeline κ} {log : ErrorLog}
    {events : List RunEvent} {r : Run P κ}
    (hignore : setup.config.ignoreScheduledStarts = false)
    (hordered : (events.filterMap RunEvent.reading?).Pairwise (· ≤ ·))
    (hs : (fresh operations completion metrics log).steps setup events = some r) :
    ∀ d ∈ (fresh operations completion metrics log).endings setup events,
      ∀ record, d.record = some record →
      ∃ b x, (Batch.members (operations.batches setup.config.window))[d.number]? = some (b, x) ∧
        r.dispatched[d.number]? = some x ∧ record.Describes x.operation ∧
        b.first.operation.scheduledStart ≤ record.actualStart ∧
        (setup.config.window = none → record.scheduledStart ≤ record.actualStart) ∧
        ∀ w, setup.config.window = some w → 0 < w.nanos →
          record.scheduledStart.nanos - w.nanos < record.actualStart.nanos := by
  intro d hd record hrecord
  have haccounted := accounted_fresh setup operations completion metrics log
  have htimely := (timely_fresh setup.config.window operations completion metrics log).steps
    haccounted hignore hs hordered
  obtain ⟨left, haccounts⟩ := (haccounted.steps hs).exists_accounts
  rw [List.nil_append] at haccounts htimely
  obtain ⟨b, x, hmember, hx, hle⟩ := htimely.begun.records d hd record hrecord
  obtain ⟨x', hx', hdescribes⟩ := haccounts.records d hd record hrecord
  obtain rfl : x = x' := Option.some.inj (hx.symm.trans hx')
  obtain ⟨hb, hxb⟩ := Batch.of_mem_members (List.mem_of_getElem? hmember)
  have hkeeps : b.Keeps setup.config.window := keeps_of_mem_batches hb
  refine ⟨b, x, hmember, hx, hdescribes, hle, fun hnone => ?_, fun w hw hpos => ?_⟩
  · rw [hnone] at hkeeps
    rw [hdescribes.2, hkeeps.eq_first hxb]
    exact hle
  · rw [hw] at hkeeps
    have hwithin := hkeeps.sub_lt hpos hxb
    rw [Instant.le_iff] at hle
    rw [hdescribes.2]
    omega

/-- Half a millisecond after the start. -/
def halfway : Instant := ⟨500012, by decide⟩

/-- Two operations half a millisecond apart. -/
def staggeredRun : Run Unit Unit :=
  fresh (.ofList [.ok ⟨.independent "first" soloSetup.start (), false⟩,
      .ok ⟨.independent "second" halfway (), false⟩]) (.ofPeers [])
    ⟨2, true, [], .receiving, Collector.fresh {} () false, false, none⟩ ErrorLog.empty

/-- Windows of a millisecond, and starts that count. -/
def patientSetup : RunSetup Unit :=
  { windowedSetup with config := { windowedSetup.config with ignoreScheduledStarts := false } }

/-- Both operations are dispatched when the first one is due. The second one is executed a quarter
of a millisecond later. -/
def bothAtOnce : List RunEvent :=
  List.replicate 9 (.schedule soloSetup.start false) ++
    [.execute 0 soloSetup.start, .answer 0 (.returned (.ok .null)) Duration.zero, .submit 0,
      .execute 1 ⟨250012, by decide⟩, .answer 1 (.returned (.ok .null)) Duration.zero, .submit 1]

/-- The second operation begins before its own start, but within the window. -/
theorem started_after_batch_due_staggered :
    ∃ d ∈ staggeredRun.endings patientSetup bothAtOnce, ∃ record, d.record = some record ∧
      record.actualStart.nanos = 250012 ∧ record.scheduledStart.nanos = 500012 ∧
      ∃ b x, (Batch.members (Schedule.batches patientSetup.config.window
          staggeredRun.operations))[d.number]? = some (b, x) ∧ record.Describes x.operation ∧
        b.first.operation.scheduledStart ≤ record.actualStart ∧
        record.scheduledStart.nanos - (Duration.ofUnits .milli 1).nanos <
          record.actualStart.nanos := by
  obtain ⟨r, hr⟩ := Option.isSome_iff_exists.mp
    (show (staggeredRun.steps patientSetup bothAtOnce).isSome = true by decide +kernel)
  have hrecord : ∃ d ∈ staggeredRun.endings patientSetup bothAtOnce,
      d.record.any (fun record => decide (record.actualStart.nanos = 250012 ∧
        record.scheduledStart.nanos = 500012)) = true := by
    decide +kernel
  obtain ⟨d, hd, hany⟩ := hrecord
  obtain ⟨record, hsome, hfacts⟩ := (Option.any_eq_true _ _).mp hany
  obtain ⟨hactual, hscheduled⟩ := of_decide_eq_true hfacts
  have hordered : (bothAtOnce.filterMap RunEvent.reading?).Pairwise (· ≤ ·) := by decide
  obtain ⟨b, x, hmember, -, hdescribes, hdue, -, hwithin⟩ :=
    started_after_batch_due rfl hordered hr d hd record hsome
  exact ⟨d, hd, record, hsome, hactual, hscheduled, b, x, hmember, hdescribes, hdue,
    hwithin _ rfl (by decide)⟩

end Run

end WorkloadReplay
