import WorkloadReplay.Proofs.Run.Traversal
import WorkloadReplay.Proofs.Stream.Faults

/-!
# Dispatching follows the sequence

Whatever the windows, the clock, the handlers and the reports of other components, a run dispatches
the operations of its sequence in order and leaves none out. `dispatch_follows` says how far it
comes. In every state, what has been dispatched is at the front of the operations that precede the
first error of the sequence. In the step in which the scheduler turns to draining (`Run.Stops`):

* if no error has been reported, the sequence has no error and all of it has been dispatched;
* if nothing has failed before (`Run.Calm`), either the scheduler gives up the operation whose turn
  it is, for one of the reasons of `Run.Fails`, or all operations before the first error of the
  sequence have been dispatched, and that error is all that is reported.

Batches do not show in any of this: where errors stand in a batch's place they wait for the next
look at the sequence (`toList_of_nextBatch_error`), and a batch that is given up half-way has been
dispatched as far as it has come. So the windows of two runs make no difference to what they
dispatch as long as neither reports an error.
-/

namespace WorkloadReplay

variable {P κ ι : Type}

/-- An error is a batch of its own: it stands at the front of what is left of the sequence. -/
theorem toList_of_nextBatch_error {window : Option Duration} {s : Schedule P} {e : ReplayError}
    (h : nextBatch window s = some (.error e)) : ∃ items, s.toList = .error e :: items := by
  unfold nextBatch at h
  split at h
  · simp at h
  · rename_i e' tail
    obtain rfl := Except.error.inj (Option.some.inj h)
    exact ⟨(tail ()).toList, rfl⟩
  · split at h <;> simp at h

namespace Run

/-- Nothing has failed so far: no error has been reported, and no handler has ended with one that
the scheduler will report when it takes notice. -/
structure Calm (r : Run P κ) : Prop where
  log : r.log.entries = []
  finished : ∀ result ∈ r.finished, result = .ok ()

/-- A step in which the scheduler turns from dispatching to draining. -/
structure Stops (setup : RunSetup κ) (r r' : Run P κ) : Prop where
  step : ∃ e, r.step setup e = some r'
  dispatching : r.phase.held? ≠ none
  past : r'.IsPast

/-- The reasons for which the scheduler gives up the operation whose turn it is. -/
inductive Fails (setup : RunSetup κ) (r : Run P κ) (next : ScheduledOperation P) :
    ReplayError → Prop where
  /-- Its dependency time is waited for in vain. -/
  | gate {batch : List (ScheduledOperation P)} (hphase : r.phase = .gating next batch)
      (hnot : r.completion.hasReached next.operation.dependencyTime = false) :
      Fails setup r next
        (.gctTimeout next.operation.dependencyTime setup.config.gctWaitTimeout)
  /-- It is later than tolerated. -/
  | late {batch : List (ScheduledOperation P)} {now : Instant} {e : ReplayError}
      (hphase : r.phase = .judging next batch)
      (hbreach : setup.config.delayChecker.check next.operation now = .breach e) :
      Fails setup r next e
  /-- There will be no permit for it. -/
  | closed {batch : List (ScheduledOperation P)} (hphase : r.phase = .admitting next batch)
      (hrefused : r.flow.inFlight.request = .refused) :
      Fails setup r next FlowControl.inFlightClosed
  /-- The tracker refuses it. -/
  | refused {batch : List (ScheduledOperation P)} {t : CompletionTracker} {e : ReplayError}
      (hphase : r.phase = .admitting next batch) (htracked : next.tracked = true)
      (htracker : r.tracker = some t)
      (hinitiate : (t.initiate r.completion next.operation.scheduledStart).1 = .error e) :
      Fails setup r next e

/-- How a scheduler stops in a run in which nothing has failed before. -/
inductive Halt (setup : RunSetup κ) (r r' : Run P κ) : Prop where
  /-- Nothing is left of the sequence. -/
  | exhausted (hheld : r.phase.held? = some []) (hitems : r.operations.toList = [])
      (hlog : r'.log = r.log)
  /-- An error stands at the front of what is left of the sequence, and is reported. -/
  | fault {e : ReplayError} {items : List (Except ReplayError (ScheduledOperation P))}
      (hheld : r.phase.held? = some []) (hitems : r.operations.toList = .error e :: items)
      (hlog : r'.log = r.log.reportError e)
  /-- The operation whose turn it is is given up. -/
  | failure {next : ScheduledOperation P} {e : ReplayError} (hfails : r.Fails setup next e)
      (hlog : r'.log = r.log.reportError e)

section Scheduler

variable {setup : RunSetup κ} {r r' : Run P κ}

/-- A run in which nothing has failed has no errors. -/
theorem Calm.hasErrors (h : r.Calm) : r.log.hasErrors = false := by
  simp [ErrorLog.hasErrors, h.log]

/-- When nothing has failed, the scheduler has nothing to report of the handlers that ended. -/
theorem Calm.log_reap (h : r.Calm) : r.reap.log = r.log := by
  have hnone : r.finished.filterMap ReplayError.ofResult? = [] :=
    List.filterMap_eq_nil_iff.mpr fun result hresult => h.finished result hresult ▸ rfl
  have hentries := entries_reap r
  rw [hnone, List.map_nil, List.append_nil] at hentries
  exact congrArg ErrorLog.mk hentries

/-- A scheduler that goes on to a phase before the draining is not past its dispatching. -/
theorem not_isPast_goTo (r : Run P κ) {phase : SchedulerPhase P} (hphase : phase ≠ .draining)
    (hphase' : ¬ phase.IsTerminated) : ¬ (r.goTo phase).IsPast :=
  fun h => h.elim hphase hphase'

/-- The beginning of a run does not end the dispatching. -/
theorem not_isPast_of_opening (h : r.phase.IsOpening) : ¬ r.IsPast := by
  unfold IsPast
  cases hphase : r.phase <;> simp_all [SchedulerPhase.IsOpening, SchedulerPhase.IsTerminated]

/-- The look for the next batch stops the scheduler at the end of the sequence or at an error. -/
theorem halt_pull (hcalm : r.Calm) (hphase : r.phase = .pulling)
    (hpast : (r.pull setup).IsPast) : Halt setup r (r.pull setup) := by
  have hheld : r.phase.held? = some [] := by rw [hphase]; rfl
  have herrors : r.reap.log.hasErrors = false := hcalm.log_reap ▸ hcalm.hasErrors
  unfold pull at hpast ⊢
  split at hpast
  · rename_i hnone
    exact .exhausted hheld (toList_of_nextBatch_none hnone) rfl
  · rename_i batch hbatch
    dsimp only at hpast
    split at hpast
    · exact absurd hpast (not_isPast_goTo _ (by simp) (by simp [SchedulerPhase.IsTerminated]))
    · obtain ⟨items, hitems⟩ := toList_of_nextBatch_error hbatch
      refine .fault hheld hitems ?_
      simp only [herrors, Bool.false_eq_true, if_false]
      exact congrArg (ErrorLog.reportError · _) hcalm.log_reap
    · simp only [herrors, Bool.false_eq_true, if_false] at hpast
      split_ifs at hpast <;>
        exact absurd hpast (not_isPast_goTo _ (by simp) (by simp [SchedulerPhase.IsTerminated]))

/-- A sleeping scheduler does not stop when nothing has failed. -/
theorem wake_not_isPast (hcalm : r.Calm) {now : Instant} {first : ScheduledOperation P}
    {others : List (ScheduledOperation P)} (h : r.wake now first others = some r') :
    ¬ r'.IsPast := by
  unfold wake at h
  simp only [hcalm.hasErrors, Bool.false_eq_true, if_false] at h
  split_ifs at h
  · obtain rfl := Option.some.inj h
    exact not_isPast_goTo r (by simp) (by simp [SchedulerPhase.IsTerminated])
  · split at h
    · obtain rfl := Option.some.inj h
      exact not_isPast_goTo r (by simp) (by simp [SchedulerPhase.IsTerminated])
    · simp at h

/-- A scheduler does not stop between two operations when nothing has failed. -/
theorem choose_not_isPast (hcalm : r.Calm) (batch : List (ScheduledOperation P)) :
    ¬ (r.choose batch).IsPast := by
  cases batch with
  | nil => exact not_isPast_goTo r (by simp) (by simp [SchedulerPhase.IsTerminated])
  | cons next batch =>
    simp only [choose, hcalm.hasErrors, Bool.false_eq_true, if_false]
    split_ifs <;> exact not_isPast_goTo r (by simp) (by simp [SchedulerPhase.IsTerminated])

/-- The scheduler stops at a gate that is waited for in vain. -/
theorem halt_gate {expired : Bool} {next : ScheduledOperation P}
    {batch : List (ScheduledOperation P)} (hphase : r.phase = .gating next batch)
    (h : r.gate setup expired next batch = some r') (hpast : r'.IsPast) : Halt setup r r' := by
  obtain ⟨reached, hawaited, rfl⟩ := Option.map_eq_some_iff.mp h
  split_ifs at hpast ⊢ with hreached
  · exact absurd hpast (not_isPast_goTo r (by simp) (by simp [SchedulerPhase.IsTerminated]))
  · refine .failure (.gate hphase ?_) rfl
    -- The answer is that of a wait whose time is over.
    unfold awaited at hawaited
    split_ifs at hawaited with hdep
    · exact absurd (Option.some.inj hawaited).symm hreached
    · simpa using hdep

/-- The scheduler stops at an operation that is too late. -/
theorem halt_judge {now : Instant} {next : ScheduledOperation P}
    {batch : List (ScheduledOperation P)} (hphase : r.phase = .judging next batch)
    (hpast : (r.judge setup now next batch).IsPast) :
    Halt setup r (r.judge setup now next batch) := by
  unfold judge at hpast ⊢
  split at hpast
  · exact absurd hpast (not_isPast_goTo _ (by simp) (by simp [SchedulerPhase.IsTerminated]))
  · exact absurd hpast (not_isPast_goTo _ (by simp) (by simp [SchedulerPhase.IsTerminated]))
  · rename_i e hbreach
    exact .failure (.late hphase hbreach) rfl

/-- The scheduler stops at an operation for which there is no permit, or which the tracker
refuses. -/
theorem halt_dispatch {next : ScheduledOperation P} {batch : List (ScheduledOperation P)}
    (hphase : r.phase = .admitting next batch) (h : r.dispatch next batch = some r')
    (hpast : r'.IsPast) : Halt setup r r' := by
  unfold dispatch at h
  split at h
  · simp at h
  · rename_i hrefused
    obtain rfl := Option.some.inj h
    exact .failure (.closed hphase hrefused) rfl
  · split at h
    · rename_i t htracked htracker
      split at h
      · rename_i e t' completion hinitiate
        obtain rfl := Option.some.inj h
        exact .failure (.refused hphase htracked htracker (congrArg Prod.fst hinitiate)) rfl
      · obtain rfl := Option.some.inj h
        exact absurd hpast (not_isPast_goTo _ (by simp) (by simp [SchedulerPhase.IsTerminated]))
    · obtain rfl := Option.some.inj h
      exact absurd hpast (not_isPast_goTo _ (by simp) (by simp [SchedulerPhase.IsTerminated]))

/-- The scheduler gives up an operation at its turn. -/
theorem Fails.held? {next : ScheduledOperation P} {e : ReplayError} (h : r.Fails setup next e) :
    ∃ batch, r.phase.held? = some (next :: batch) := by
  cases h with
  | gate hphase => exact ⟨_, by rw [hphase]; rfl⟩
  | late hphase => exact ⟨_, by rw [hphase]; rfl⟩
  | closed hphase => exact ⟨_, by rw [hphase]; rfl⟩
  | refused hphase => exact ⟨_, by rw [hphase]; rfl⟩

/-- In a run in which nothing has failed, the scheduler stops in one of the three ways. -/
theorem Stops.halt (h : Stops setup r r') (hcalm : r.Calm) : Halt setup r r' := by
  obtain ⟨⟨e, hstep⟩, hdispatching, hpast⟩ := h
  -- Nothing but a step of the scheduler turns it to draining.
  obtain ⟨now, expired, rfl⟩ : ∃ now expired, e = .schedule now expired := by
    by_contra hnot
    rcases phase_of_step hstep fun now expired he => hnot ⟨now, expired, he⟩ with
      hphase | ⟨hphase, -⟩
    · exact hdispatching (hphase ▸ hpast.held?)
    · exact hdispatching (by rw [hphase]; rfl)
  simp only [Run.step, scheduleStep] at hstep
  split at hstep
  case h_1 =>
    obtain rfl := Option.some.inj hstep
    exact absurd hpast (not_isPast_of_opening (opening_begin r))
  case h_2 => exact absurd hpast (not_isPast_of_opening (opening_awaitPeers hstep))
  case h_3 hphase =>
    obtain rfl := Option.some.inj hstep
    exact halt_pull hcalm hphase hpast
  case h_4 => exact absurd hpast (wake_not_isPast hcalm hstep)
  case h_5 batch hphase =>
    obtain rfl := Option.some.inj hstep
    exact absurd hpast (choose_not_isPast hcalm batch)
  case h_6 next batch hphase => exact halt_gate hphase hstep hpast
  case h_7 next batch hphase =>
    obtain rfl := Option.some.inj hstep
    exact halt_judge hphase hpast
  case h_8 next batch hphase => exact halt_dispatch hphase hstep hpast
  case h_9 hphase => exact absurd (by rw [hphase]; rfl) hdispatching
  all_goals simp at hstep

end Scheduler

/-! ## What is dispatched -/

section Dispatched

variable {setup : RunSetup κ} {r r' : Run P κ} {ops : Schedule P}

/-- An event dispatches nothing, or the operation that has been admitted. -/
theorem dispatched_cases {e : RunEvent} (hstep : r.step setup e = some r') :
    r'.dispatched = r.dispatched ∨
      ∃ next batch, r.phase = .admitting next batch ∧ Dispatches r r' next batch := by
  generalize hc : r.completion? e = c
  have hturn := turn_of_step hstep
  rw [hc] at hturn
  cases hturn with
  | quiet hq => exact .inl hq.dispatched
  | begin => exact .inl (begin_dispatched r)
  | dispatch hphase hd => exact .inr ⟨_, _, hphase, hd⟩
  | complete hcompletes => exact .inl hcompletes.dispatched
  | claim => exact .inl rfl
  | initiated => exact .inl rfl
  | completed => exact .inl rfl
  | shutdown => exact .inl rfl

/-- An operation is dispatched between two states in which the scheduler dispatches. -/
theorem dispatched_of_step {e : RunEvent} (hstep : r.step setup e = some r') :
    r'.dispatched = r.dispatched ∨ r.phase.held? ≠ none ∧ r'.phase.held? ≠ none := by
  refine (dispatched_cases hstep).imp_right fun ⟨next, batch, hphase, hd⟩ => ?_
  exact ⟨by simp [hphase, SchedulerPhase.held?], by simp [hd.phase, SchedulerPhase.held?]⟩

/-- A scheduler that has stopped does not go on. -/
theorem over_of_step (hover : r.phase.held? = none) {e : RunEvent}
    (hstep : r.step setup e = some r') : r'.phase.held? = none := by
  have hitinerary : r.itinerary? = none := by simp [itinerary?, hover]
  cases advance_of_step hstep with
  | onward hsame hheld =>
    rw [hitinerary] at hsame
    simpa [itinerary?] using hsame
  | aside hphase =>
    rcases hphase with hphase | ⟨-, finish, hphase⟩
    · rw [hphase, hover]
    · rw [hphase]
      rfl
  | halt hheld => exact hheld
  | exhaust hsequence =>
    rw [hitinerary] at hsequence
    simp at hsequence

/-- Nothing is dispatched after the scheduler has stopped. -/
theorem dispatched_of_reaches (hover : r.phase.held? = none) (hr : r.Reaches setup r') :
    r'.dispatched = r.dispatched := by
  have hkept : r'.phase.held? = none ∧ r'.dispatched = r.dispatched := by
    refine hr.invariant (motive := fun s => s.phase.held? = none ∧ s.dispatched = r.dispatched)
      (fun {s s' e} h hstep => ⟨over_of_step h.1 hstep, ?_⟩) ⟨hover, rfl⟩
    exact ((dispatched_of_step hstep).resolve_right fun hheld => hheld.1 h.1).trans h.2
  exact hkept.2

/-- The way of a run along its sequence: what it has dispatched is at the front. -/
structure Follows (ops : Schedule P) (r : Run P κ) : Prop where
  traverses : Traverses ops.toList r
  dispatched : r.dispatched.toList <+: ops.operations

/-- A run that still dispatches has dispatched the front of its sequence. -/
theorem Traverses.dispatched_prefix (h : Traverses ops.toList r) (hheld : r.phase.held? ≠ none) :
    r.dispatched.toList <+: ops.operations := by
  obtain ⟨held, hheld⟩ := Option.ne_none_iff_exists'.mp hheld
  exact Schedule.prefix_operations (h.ahead _ (by rw [itinerary?, hheld]; rfl)).symm

/-- Every event keeps a run on its way. -/
theorem Follows.step (h : Follows ops r) {e : RunEvent} (hstep : r.step setup e = some r') :
    Follows ops r' := by
  have htraverses := h.traverses.advance (advance_of_step hstep)
  refine ⟨htraverses, ?_⟩
  rcases dispatched_of_step hstep with hsame | ⟨-, hheld⟩
  · exact hsame ▸ h.dispatched
  · exact htraverses.dispatched_prefix hheld

/-- A run begins at the front of its sequence. -/
theorem follows_fresh (ops : Schedule P) (completion : CompletionService)
    (metrics : MetricsPipeline κ) (log : ErrorLog) :
    Follows ops (fresh ops completion metrics log) :=
  ⟨traverses_fresh ops completion metrics log, List.nil_prefix⟩

/-- What a run has dispatched, what its scheduler holds and what it has not looked at. -/
theorem Follows.toList (h : Follows ops r) {held : List (ScheduledOperation P)}
    (hheld : r.phase.held? = some held) :
    ops.toList = (r.dispatched.toList ++ held).map .ok ++ r.operations.toList := by
  rw [← h.traverses.ahead _ (by rw [itinerary?, hheld]; rfl), List.map_append, List.append_assoc]

/-- The step in which the scheduler stops dispatches nothing. -/
theorem Stops.dispatched (h : Stops setup r r') : r'.dispatched = r.dispatched := by
  obtain ⟨e, hstep⟩ := h.step
  exact (dispatched_of_step hstep).resolve_right fun hheld => hheld.2 h.past.held?

/-- Where the scheduler stops and no error has been reported, there is no error in the sequence and
all of it has been dispatched. -/
theorem Follows.toList_of_stops (h : Follows ops r) (hstops : Stops setup r r')
    (hlog : r'.log.hasErrors = false) : ops.toList = r'.dispatched.toList.map .ok := by
  obtain ⟨e, hstep⟩ := hstops.step
  have hpast := (h.step hstep).traverses.past hstops.past
  exact hpast.resolve_left (by simp [hlog])

/-- Where the scheduler stops and nothing has failed before, it gives up the operation whose turn it
is, or it has dispatched all that precedes the first error of the sequence and reports that
error. -/
theorem Follows.cases_of_stops (h : Follows ops r) (hstops : Stops setup r r') (hcalm : r.Calm) :
    (∃ next e, ops.operations[r'.dispatched.size]? = some next ∧ r.Fails setup next e ∧
      r'.log.entries = [e.asReported]) ∨
    (r'.dispatched.toList = ops.operations ∧ ∀ e items,
      ops.toList = ops.operations.map .ok ++ .error e :: items →
        r'.log.entries = [e.asReported]) := by
  have hreported : ∀ e, r'.log = r.log.reportError e → r'.log.entries = [e.asReported] := by
    intro e hlog
    rw [hlog, ErrorLog.reportError, ErrorLog.entries_report, hcalm.log]
    rfl
  rw [hstops.dispatched]
  cases hstops.halt hcalm with
  | exhausted hheld hitems hlog =>
    have hall := h.toList hheld
    rw [hitems, List.append_nil, List.append_nil] at hall
    refine .inr ⟨(Schedule.operations_of_toList hall).2.symm, fun e items herror => ?_⟩
    -- A sequence all of whose items are operations has no error.
    have hfree := (Schedule.operations_of_toList hall).1 (.error e) (by simp [herror])
    simp [Except.isOk, Except.toBool] at hfree
  | fault hheld hitems hlog =>
    rename_i e items
    have hall := h.toList hheld
    rw [hitems, List.append_nil] at hall
    have hops := Schedule.operations_of_toList_error hall
    refine .inr ⟨hops.symm, fun e' items' herror => hreported e' ?_⟩
    rw [hall, hops, List.append_cancel_left_eq] at herror
    obtain ⟨he, -⟩ := List.cons.inj herror
    rw [hlog, Except.error.inj he]
  | failure hfails hlog =>
    rename_i next e
    obtain ⟨batch, hheld⟩ := hfails.held?
    obtain ⟨later, hops⟩ := Schedule.prefix_operations (h.toList hheld)
    refine .inl ⟨next, e, ?_, hfails, hreported e hlog⟩
    rw [← hops, List.append_assoc, List.getElem?_append_right (by simp)]
    simp

/-- A run that is over without being past its dispatching stays so: it has been refused, or its
scheduler has broken down. -/
theorem not_isPast_of_step (hover : r.phase.held? = none) (hnot : ¬ r.IsPast) {e : RunEvent}
    (hstep : r.step setup e = some r') : ¬ r'.IsPast := by
  by_cases he : ∃ now expired, e = .schedule now expired
  · obtain ⟨now, expired, rfl⟩ := he
    simp only [Run.step, scheduleStep] at hstep
    split at hstep
    case h_9 hphase => exact absurd (.inl hphase) hnot
    case h_10 => simp at hstep
    case h_11 => simp at hstep
    case h_12 => simp at hstep
    all_goals simp_all [SchedulerPhase.held?]
  · rcases phase_of_step hstep fun now expired h => he ⟨now, expired, h⟩ with hphase | ⟨hphase, -⟩
    · unfold IsPast
      rwa [hphase]
    · exact absurd (.inl hphase) hnot

/-- Such a run is never past its dispatching. -/
theorem not_isPast_of_reaches (hover : r.phase.held? = none) (hnot : ¬ r.IsPast)
    (hr : r.Reaches setup r') : ¬ r'.IsPast := by
  have hkept : r'.phase.held? = none ∧ ¬ r'.IsPast :=
    hr.invariant (motive := fun s => s.phase.held? = none ∧ ¬ s.IsPast)
      (fun h hstep => ⟨over_of_step h.1 hstep, not_isPast_of_step h.1 h.2 hstep⟩) ⟨hover, hnot⟩
  exact hkept.2

/-- A run that is past its dispatching has stopped in one of its steps. -/
theorem exists_stops (hdispatching : r.phase.held? ≠ none) (hr : r.Reaches setup r')
    (hpast : r'.IsPast) : ∃ s s', r.Reaches setup s ∧ Stops setup s s' ∧ s'.Reaches setup r' := by
  obtain ⟨events, hsteps⟩ := hr
  induction events generalizing r with
  | nil =>
    obtain rfl := Option.some.inj hsteps
    exact absurd hpast.held? hdispatching
  | cons e rest ih =>
    obtain ⟨r₁, hstep, hrest⟩ := Option.bind_eq_some_iff.mp hsteps
    by_cases hover : r₁.phase.held? = none
    -- The dispatching is over with this step, for good unless the run is past it.
    · by_cases hpast₁ : r₁.IsPast
      · exact ⟨r, r₁, ⟨[], rfl⟩, ⟨⟨e, hstep⟩, hdispatching, hpast₁⟩, ⟨rest, hrest⟩⟩
      · exact absurd hpast (not_isPast_of_reaches hover hpast₁ ⟨rest, hrest⟩)
    · obtain ⟨s, s', ⟨before, hbefore⟩, hstops, hafter⟩ := ih hover hrest
      exact ⟨s, s', ⟨e :: before, Option.bind_eq_some_iff.mpr ⟨r₁, hstep, hbefore⟩⟩, hstops, hafter⟩

end Dispatched

/-- Dispatching follows the sequence, whatever the configuration, the services, the clock and the
order of events. What has been dispatched is at the front of the operations before the first error
of the sequence; where the run is past its dispatching, its scheduler has stopped in one of its
steps, and nothing has been dispatched since. In the step in which the scheduler stops:

* if no error has been reported, the sequence consists of what has been dispatched;
* if nothing has failed before, the operation whose turn it is fails, or all operations before the
  first error of the sequence have been dispatched and exactly that error is reported;
* if no error has been reported, and none in another run of the sequence, the scheduler of that run
  stops with the same operations dispatched, whatever its windows. -/
theorem dispatch_follows {setup : RunSetup κ} {ops : Schedule P} {completion : CompletionService}
    {metrics : MetricsPipeline κ} {log : ErrorLog} {r : Run P κ}
    (hr : (fresh ops completion metrics log).Reaches setup r) :
    r.dispatched.toList <+: ops.operations ∧
    (r.IsPast → ∃ s s', (fresh ops completion metrics log).Reaches setup s ∧ Stops setup s s' ∧
      s'.Reaches setup r ∧ r.dispatched = s'.dispatched) ∧
    ∀ r', Stops setup r r' →
      (r'.log.hasErrors = false → ops.toList = r'.dispatched.toList.map .ok) ∧
      (r.Calm →
        (∃ next e, ops.operations[r'.dispatched.size]? = some next ∧ r.Fails setup next e ∧
          r'.log.entries = [e.asReported]) ∨
        (r'.dispatched.toList = ops.operations ∧ ∀ e items,
          ops.toList = ops.operations.map .ok ++ .error e :: items →
            r'.log.entries = [e.asReported])) ∧
      (∀ (setup₂ : RunSetup ι) completion₂ metrics₂ log₂ s s',
        (fresh ops completion₂ metrics₂ log₂).Reaches setup₂ s → Stops setup₂ s s' →
        r'.log.hasErrors = false → s'.log.hasErrors = false →
          s'.dispatched = r'.dispatched) := by
  have h : Follows ops r :=
    hr.invariant (fun h hstep => h.step hstep) (follows_fresh ops completion metrics log)
  refine ⟨h.dispatched, fun hpast => ?_, fun r' hstops => ⟨h.toList_of_stops hstops,
    h.cases_of_stops hstops, fun setup₂ completion₂ metrics₂ log₂ s s' hs hstops₂ hlog hlog₂ => ?_⟩⟩
  · obtain ⟨s, s', hs, hstops, hs'⟩ := exists_stops (by simp [fresh, SchedulerPhase.held?]) hr hpast
    exact ⟨s, s', hs, hstops, hs', dispatched_of_reaches hstops.past.held? hs'⟩
  · -- Without errors each of the two runs has dispatched the whole sequence.
    have h₂ : Follows ops s :=
      hs.invariant (fun h hstep => h.step hstep) (follows_fresh ops completion₂ metrics₂ log₂)
    have hops := (Schedule.operations_of_toList (h.toList_of_stops hstops hlog)).2
    have hops₂ := (Schedule.operations_of_toList (h₂.toList_of_stops hstops₂ hlog₂)).2
    exact Array.toList_inj.mp (hops₂.symm.trans hops)

/-- Two operations, and an error after them. -/
def faultySequence : Schedule Unit :=
  .ofList [.ok ⟨.independent "first" soloSetup.start (), false⟩,
    .ok ⟨.independent "second" ⟨13, by decide⟩ (), false⟩, .error (.streamConstruction "gone")]

/-- The beginning of a run of them. -/
def faultyRun : Run Unit Unit :=
  fresh faultySequence (.ofPeers [])
    ⟨2, true, [], .receiving, Collector.fresh {} () false, false, none⟩ ErrorLog.empty

/-- Windows of a millisecond. -/
def windowedSetup : RunSetup Unit :=
  { soloSetup with config := { soloSetup.config with window := some (Duration.ofUnits .milli 1) } }

/-- Both operations are dispatched as one batch, and then the error is reported. -/
theorem dispatch_follows_windowed : ∃ r r' : Run Unit Unit,
    faultyRun.Reaches windowedSetup r ∧ Stops windowedSetup r r' ∧
    r'.dispatched.toList = faultySequence.operations ∧
    r'.log.entries = [(ReplayError.streamConstruction "gone").asReported] := by
  have hrun : (faultyRun.steps windowedSetup
      (List.replicate 9 (.schedule soloSetup.start false))).bind (fun r =>
        (r.step windowedSetup (.schedule soloSetup.start false)).map fun r' =>
        decide (r.phase.held?.isSome = true ∧ r.log.entries = [] ∧ r.finished.length = 0 ∧
          r'.phase.runnerState = .draining ∧ r'.dispatched.size = 2)) = some true := by
    decide +kernel
  obtain ⟨r, hr, hmore⟩ := Option.bind_eq_some_iff.mp hrun
  obtain ⟨r', hr', hfacts⟩ := Option.map_eq_some_iff.mp hmore
  obtain ⟨hheld, hlog, hfinished, hdraining, hsize⟩ := of_decide_eq_true hfacts
  have hphase : r'.phase = .draining := by
    cases hp : r'.phase <;> simp_all [SchedulerPhase.runnerState]
  have hstops : Stops windowedSetup r r' :=
    ⟨⟨_, hr'⟩, Option.isSome_iff_ne_none.mp hheld, .inl hphase⟩
  have hcalm : r.Calm := ⟨hlog, by simp [List.length_eq_zero_iff.mp hfinished]⟩
  have hreaches : faultyRun.Reaches windowedSetup r := ⟨_, hr⟩
  obtain ⟨-, hends, -⟩ := (dispatch_follows (ι := Unit) hreaches).2.2 r' hstops
  rcases hends hcalm with ⟨next, e, hnext, -⟩ | ⟨hall, hreported⟩
  · -- Nothing is left that could fail.
    rw [hsize] at hnext
    exact absurd hnext (by simp [faultySequence, LazyList.ofList, Schedule.operations])
  · exact ⟨r, r', hreaches, hstops, hall, hreported _ [] (by rfl)⟩

end Run

end WorkloadReplay
