import WorkloadReplay.Proofs.Run.Progress

/-!
# How handlers end

The handler of a dispatched operation ends once: with a good result, or with an error, and with its
record accepted by the metrics queue or not. `Run.ending?` is the ending that an event brings about,
and `Run.endings` lists those of a run.

What a run keeps account of is its dispatched operations, its handlers and their results, the
operations without a record, and the counts. Most steps are `Run.SameTally`: they leave this account
alone, and only add to the error log. `Run.Tally` lists what else an event can do to it, and
`tally_of_step` says that there is nothing more.
-/

namespace WorkloadReplay

variable {P κ : Type}

/-- The error of a result. -/
def ReplayError.ofResult? : Except ReplayError Unit → Option ReplayError
  | .ok () => none
  | .error e => some e

/-- How the handler of a dispatched operation ended. -/
structure Ending where
  /-- The number of the operation. -/
  number : Nat
  /-- The record of the operation, if the metrics queue has accepted it. -/
  record : Option MetricsRecord
  result : Except ReplayError Unit

namespace Ending

/-- The error with which a handler ended. -/
def error? (d : Ending) : Option ReplayError := ReplayError.ofResult? d.result

/-- The handler came to a good end. -/
def isGood (d : Ending) : Bool := d.error?.isNone

/-- The handler came to a good end, and its record is of an operation that the database refused. -/
def isFailure (d : Ending) : Bool := d.isGood && d.record.any (!·.success)

end Ending

/-- A record is one of an operation. -/
def MetricsRecord.Describes (record : MetricsRecord) (op : Operation P) : Prop :=
  record.operationType = op.operationType ∧ record.scheduledStart = op.scheduledStart

/-- The number of the handler that an event is about. -/
def RunEvent.handler? : RunEvent → Option Nat
  | .execute number _ => some number
  | .answer number _ _ => some number
  | .submit number => some number
  | _ => none

/-- The scheduler has come to the end of the run. -/
def SchedulerPhase.IsTerminated (phase : SchedulerPhase P) : Prop :=
  ∃ finish, phase = .terminated finish

namespace Run

/-- The record that the metrics queue accepts from the handler that an event is about. -/
def acceptedRecord? (r : Run P κ) : RunEvent → Option MetricsRecord
  | .submit number =>
    match r.handler? number with
    | some ⟨_, _, .submitting record⟩ =>
      match r.metrics.offer (.record record) with
      | .queued _ => some record
      | _ => none
    | _ => none
  | _ => none

/-- The ending that an event brings about: the event is about a handler, and there is a result more
after it. -/
def ending? (setup : RunSetup κ) (r : Run P κ) (e : RunEvent) : Option Ending := do
  let number ← e.handler?
  let r' ← r.step setup e
  let result ← r'.finished[r.finished.length]?
  return ⟨number, r.acceptedRecord? e, result⟩

/-- The endings that some events bring about, in order. -/
def endings (setup : RunSetup κ) : Run P κ → List RunEvent → List Ending
  | _, [] => []
  | r, e :: rest =>
    (r.ending? setup e).toList ++ (r.step setup e).elim [] fun r' => endings setup r' rest

/-! ## What a step does to the account of a run -/

/-- A step that leaves the account of a run alone, and perhaps adds to the error log. -/
structure SameTally (r r' : Run P κ) : Prop where
  dispatched : r'.dispatched = r.dispatched
  handlers : r'.handlers = r.handlers
  finished : r'.finished = r.finished
  unrecorded : r'.unrecorded = r.unrecorded
  completed : r'.completed = r.completed
  failed : r'.failed = r.failed
  abandoned : r'.abandoned = r.abandoned
  metrics : r'.metrics = r.metrics
  log : r.log.entries <+: r'.log.entries

/-- A step in which nothing changes leaves the account alone. -/
theorem SameTally.refl (r : Run P κ) : SameTally r r :=
  ⟨rfl, rfl, rfl, rfl, rfl, rfl, rfl, rfl, List.prefix_refl _⟩

/-- The scheduler moves on to a phase. -/
theorem sameTally_goTo (r : Run P κ) (phase : SchedulerPhase P) : SameTally r (r.goTo phase) :=
  ⟨rfl, rfl, rfl, rfl, rfl, rfl, rfl, rfl, List.prefix_refl _⟩

/-- The scheduler reports an error and moves on to a phase. -/
theorem sameTally_fail (r : Run P κ) (e : ReplayError) (phase : SchedulerPhase P) :
    SameTally r ((r.fail e).goTo phase) :=
  ⟨rfl, rfl, rfl, rfl, rfl, rfl, rfl, rfl, List.prefix_append _ _⟩

/-- An operation gets its handler whatever else has changed, and the scheduler moves on. -/
theorem sameTally_spawn {r s : Run P κ} (h : SameTally r s) (next : ScheduledOperation P)
    (phase : SchedulerPhase P) : SameTally (r.spawn next) ((s.spawn next).goTo phase) where
  dispatched := by simp only [spawn, goTo, h.dispatched]
  handlers := by simp only [spawn, goTo, h.handlers, h.dispatched]
  finished := h.finished
  unrecorded := by simp only [spawn, goTo, h.unrecorded, h.dispatched]
  completed := h.completed
  failed := h.failed
  abandoned := h.abandoned
  metrics := h.metrics
  log := h.log

/-- The run after a handler's record has been accepted: the operation has its record, and it is
counted if the handler comes to a good end. -/
def recorded (r : Run P κ) (metrics : MetricsPipeline κ) (number : Nat) (record : MetricsRecord)
    (result : Except ReplayError Unit) : Run P κ :=
  let d : Ending := ⟨number, some record, result⟩
  { r with
    metrics := metrics
    unrecorded := r.unrecorded.filter (·.1 ≠ number)
    completed := if d.isGood then r.completed + 1 else r.completed
    failed := if d.isFailure then r.failed + 1 else r.failed }

/-- What an event can do to the account of a run, with the ending that it brings about. -/
inductive Tally (setup : RunSetup κ) (r r' : Run P κ) : Option Ending → Prop where
  | same (h : SameTally r r') (hphase : r'.phase.IsTerminated ↔ r.phase.IsTerminated) :
      Tally setup r r' none
  /-- The consumer of the metrics pipeline takes a step. -/
  | consume {metrics : MetricsPipeline κ} {report : Option String}
      (hconsume : r.metrics.consume setup.sink = some (metrics, report))
      (h : SameTally { r with metrics := metrics } r') (hphase : r'.phase = r.phase) :
      Tally setup r r' none
  /-- The scheduler takes notice of the handlers that have ended. -/
  | reap (h : SameTally r.reap r') (hphase : ¬ r.phase.IsTerminated)
      (hphase' : ¬ r'.phase.IsTerminated) : Tally setup r r' none
  | spawn {next : ScheduledOperation P} (h : SameTally (r.spawn next) r')
      (hphase : ¬ r.phase.IsTerminated) (hphase' : ¬ r'.phase.IsTerminated) : Tally setup r r' none
  /-- A handler goes on; a record that it has is one of its operation. -/
  | move {x : Handler P} {phase : HandlerPhase} (hx : r.handler? x.number = some x)
      (hrecord : ∀ record, phase = .submitting record → record.Describes x.scheduled.operation)
      (h : SameTally (r.setPhase x.number phase) r') (hphase : r'.phase = r.phase) :
      Tally setup r r' none
  /-- A handler ends with an error before its record has been accepted. -/
  | fail {x : Handler P} {e : ReplayError} (hx : r.handler? x.number = some x)
      (h : SameTally (r.endHandler x.number (.error e)) r') (hphase : r'.phase = r.phase) :
      Tally setup r r' (some ⟨x.number, none, .error e⟩)
  /-- A handler's record is accepted, and the handler ends. -/
  | settle {x : Handler P} {record : MetricsRecord} {metrics : MetricsPipeline κ}
      {result : Except ReplayError Unit} (hx : r.handler? x.number = some x)
      (hrecord : x.phase = .submitting record)
      (hoffer : r.metrics.offer (.record record) = .queued metrics)
      (h : SameTally ((r.recorded metrics x.number record result).endHandler x.number result) r')
      (hphase : r'.phase = r.phase) :
      Tally setup r r' (some ⟨x.number, some record, result⟩)
  /-- The run ends when no handler is left. -/
  | finish (h : SameTally r.reap r') (hhandlers : r.handlers = [])
      (hphase : ¬ r.phase.IsTerminated) (hphase' : r'.phase.IsTerminated) : Tally setup r r' none
  /-- The time for draining runs out, and the handlers that are left are given up. -/
  | abandon (h : SameTally (r.reap.abandon setup) r') (hhandlers : r.handlers ≠ [])
      (hphase : ¬ r.phase.IsTerminated) (hphase' : r'.phase.IsTerminated) : Tally setup r r' none

/-! ## The scheduler -/

section Scheduler

variable {setup : RunSetup κ} {r r' : Run P κ}

/-- A step of the scheduler leaves the account alone and does not end the run. -/
def Passes (r r' : Run P κ) : Prop := SameTally r r' ∧ ¬ r'.phase.IsTerminated

/-- The scheduler moves on to a phase before the end. -/
theorem passes_goTo (r : Run P κ) {phase : SchedulerPhase P} (h : ¬ phase.IsTerminated) :
    Passes r (r.goTo phase) := ⟨sameTally_goTo r phase, h⟩

/-- Such a step, from a phase before the end. -/
theorem Tally.of_passes (h : Passes r r') (hphase : ¬ r.phase.IsTerminated) :
    Tally setup r r' none :=
  .same h.1 ⟨fun hover => absurd hover h.2, fun hover => absurd hover hphase⟩

/-- The beginning of the run proper leaves the account alone. -/
theorem passes_launch (r : Run P κ) :
    Passes r (r.launch setup) := by
  unfold launch
  split
  · exact ⟨sameTally_goTo r _, by simp [SchedulerPhase.IsTerminated, goTo]⟩
  · exact ⟨⟨rfl, rfl, rfl, rfl, rfl, rfl, rfl, rfl, List.prefix_refl _⟩,
      by simp [SchedulerPhase.IsTerminated]⟩

/-- The seeds of the tracker leave the account alone. -/
theorem passes_seed (r : Run P κ) (start : Instant) (t : CompletionTracker) :
    Passes r (r.seed start t) := by
  have hgone : ∀ (s : Run P κ) (e : ReplayError), SameTally r s →
      Passes r (s.goTo (.refused e)) :=
    fun s e h => ⟨⟨h.dispatched, h.handlers, h.finished, h.unrecorded, h.completed, h.failed,
      h.abandoned, h.metrics, h.log⟩, by simp [SchedulerPhase.IsTerminated, goTo]⟩
  have hcompletion : ∀ completion, SameTally r { r with completion := completion } :=
    fun _ => ⟨rfl, rfl, rfl, rfl, rfl, rfl, rfl, rfl, List.prefix_refl _⟩
  have hfail : ∀ completion e, SameTally r (fail { r with completion := completion } e) :=
    fun _ _ => ⟨rfl, rfl, rfl, rfl, rfl, rfl, rfl, rfl, List.prefix_append _ _⟩
  unfold seed
  split
  · exact hgone _ _ (SameTally.refl r)
  · split
    · exact hgone _ _ (hfail _ _)
    · dsimp only
      split
      · exact hgone _ _ (hcompletion _)
      · split
        · exact hgone _ _ (hfail _ _)
        · exact ⟨⟨rfl, rfl, rfl, rfl, rfl, rfl, rfl, rfl, List.prefix_refl _⟩,
            by simp [SchedulerPhase.IsTerminated]⟩

/-- The beginning of a run leaves the account alone. -/
theorem passes_begin (r : Run P κ) :
    Passes r (r.begin setup) := by
  unfold begin
  split_ifs
  · exact passes_launch r
  · split
    · exact ⟨sameTally_fail r _ _, by simp [SchedulerPhase.IsTerminated, goTo]⟩
    · rename_i slot completion hclaim
      obtain ⟨h, hphase⟩ :=
        passes_seed { r with completion := completion } setup.start (.ofSlot slot)
      exact ⟨⟨h.dispatched, h.handlers, h.finished, h.unrecorded, h.completed, h.failed,
        h.abandoned, h.metrics, h.log⟩, hphase⟩

/-- The look for the next batch takes notice of the handlers that have ended, unless there is no
batch. -/
theorem tally_pull (hphase : r.phase = .pulling) : Tally setup r (r.pull setup) none := by
  have hbefore : ¬ r.phase.IsTerminated := by simp [SchedulerPhase.IsTerminated, hphase]
  unfold pull
  split
  · exact .of_passes (passes_goTo r (by simp [SchedulerPhase.IsTerminated])) hbefore
  · split
    · exact .reap (sameTally_goTo r.reap _) hbefore (by simp [SchedulerPhase.IsTerminated, goTo])
    · dsimp only
      split_ifs
      · exact .reap (sameTally_goTo r.reap _) hbefore (by simp [SchedulerPhase.IsTerminated, goTo])
      · exact .reap (sameTally_fail r.reap _ _) hbefore
          (by simp [SchedulerPhase.IsTerminated, goTo])
    · dsimp only
      split_ifs
      all_goals
        exact .reap ⟨rfl, rfl, rfl, rfl, rfl, rfl, rfl, rfl, List.prefix_refl _⟩ hbefore
          (by simp [SchedulerPhase.IsTerminated, goTo])

/-- An operation gets its handler, or the scheduler reports an error. -/
theorem tally_dispatch {next : ScheduledOperation P} {batch : List (ScheduledOperation P)}
    (hphase : r.phase = .admitting next batch) (h : r.dispatch next batch = some r') :
    Tally setup r r' none := by
  have hbefore : ¬ r.phase.IsTerminated := by simp [SchedulerPhase.IsTerminated, hphase]
  unfold dispatch at h
  split at h
  · simp at h
  · obtain rfl := Option.some.inj h
    exact .of_passes ⟨sameTally_fail r _ _, by simp [SchedulerPhase.IsTerminated, goTo]⟩ hbefore
  · split at h
    · split at h
      · obtain rfl := Option.some.inj h
        exact .of_passes ⟨⟨rfl, rfl, rfl, rfl, rfl, rfl, rfl, rfl, List.prefix_append _ _⟩,
          by simp [SchedulerPhase.IsTerminated, goTo]⟩ hbefore
      · obtain rfl := Option.some.inj h
        refine .spawn (sameTally_spawn ?_ next _) hbefore
          (by simp [SchedulerPhase.IsTerminated, goTo])
        exact ⟨rfl, rfl, rfl, rfl, rfl, rfl, rfl, rfl, List.prefix_refl _⟩
    · obtain rfl := Option.some.inj h
      refine .spawn (sameTally_spawn ?_ next _) hbefore
        (by simp [SchedulerPhase.IsTerminated, goTo])
      exact ⟨rfl, rfl, rfl, rfl, rfl, rfl, rfl, rfl, List.prefix_refl _⟩

/-- While the scheduler drains, it takes notice of ended handlers, and ends the run when none is
left. -/
theorem tally_drain {now : Instant} (hphase : r.phase = .draining) (h : r.drain now = some r') :
    Tally setup r r' none := by
  have hbefore : ¬ r.phase.IsTerminated := by simp [SchedulerPhase.IsTerminated, hphase]
  unfold drain at h
  split at h
  · rename_i hfinished hhandlers
    obtain rfl := Option.some.inj h
    refine .finish ⟨rfl, rfl, ?_, rfl, rfl, rfl, rfl, rfl, ?_⟩ hhandlers hbefore ⟨now, rfl⟩
    · exact hfinished
    · rw [reap, hfinished]
      exact List.prefix_refl _
  · simp at h
  · obtain rfl := Option.some.inj h
    exact .reap (SameTally.refl _) hbefore hbefore

/-- When the time for draining is over, the run ends, and the handlers that are left are given
up. -/
theorem tally_expireDrain {now : Instant} (h : r.expireDrain setup now = some r') :
    Tally setup r r' none := by
  unfold expireDrain at h
  split at h
  · rename_i hphase
    have hbefore : ¬ r.phase.IsTerminated := by simp [SchedulerPhase.IsTerminated, hphase]
    obtain rfl := Option.some.inj h
    split_ifs with hempty
    · exact .finish ⟨rfl, rfl, rfl, rfl, rfl, rfl, rfl, rfl, List.prefix_refl _⟩
        (List.isEmpty_iff.mp hempty) hbefore ⟨now, rfl⟩
    · exact .abandon ⟨rfl, rfl, rfl, rfl, rfl, rfl, rfl, rfl, List.prefix_refl _⟩
        (fun hnil => hempty (List.isEmpty_iff.mpr hnil)) hbefore ⟨now, rfl⟩
  · simp at h

/-- The wait for the other peers leaves the account alone. -/
theorem passes_awaitPeers {expired : Bool} (h : r.awaitPeers setup expired = some r') :
    Passes r r' := by
  obtain ⟨reached, -, rfl⟩ := Option.map_eq_some_iff.mp h
  split_ifs
  · exact passes_launch r
  · exact ⟨sameTally_fail r _ _, by simp [SchedulerPhase.IsTerminated, goTo]⟩

/-- Waking up leaves the account alone. -/
theorem passes_wake {now : Instant} {first : ScheduledOperation P}
    {others : List (ScheduledOperation P)} (h : r.wake now first others = some r') :
    Passes r r' := by
  unfold wake at h
  split_ifs at h
  · obtain rfl := Option.some.inj h
    exact passes_goTo r (by simp [SchedulerPhase.IsTerminated])
  · obtain rfl := Option.some.inj h
    exact passes_goTo r (by simp [SchedulerPhase.IsTerminated])
  · split at h
    · obtain rfl := Option.some.inj h
      exact passes_goTo r (by simp [SchedulerPhase.IsTerminated])
    · simp at h

/-- The choice of the next operation of a batch leaves the account alone. -/
theorem passes_choose (r : Run P κ) (batch : List (ScheduledOperation P)) :
    Passes r (r.choose batch) := by
  unfold choose
  split
  · exact passes_goTo r (by simp [SchedulerPhase.IsTerminated])
  · split_ifs <;> exact passes_goTo r (by simp [SchedulerPhase.IsTerminated])

/-- A gate leaves the account alone. -/
theorem passes_gate {expired : Bool} {next : ScheduledOperation P}
    {batch : List (ScheduledOperation P)} (h : r.gate setup expired next batch = some r') :
    Passes r r' := by
  obtain ⟨reached, -, rfl⟩ := Option.map_eq_some_iff.mp h
  split_ifs
  · exact passes_goTo r (by simp [SchedulerPhase.IsTerminated])
  · exact ⟨sameTally_fail r _ _, by simp [SchedulerPhase.IsTerminated, goTo]⟩

/-- The check of a delay leaves the account alone; breaches are counted apart. -/
theorem passes_judge (r : Run P κ) (now : Instant) (next : ScheduledOperation P)
    (batch : List (ScheduledOperation P)) : Passes r (r.judge setup now next batch) := by
  unfold judge
  split
  · exact passes_goTo r (by simp [SchedulerPhase.IsTerminated])
  · exact ⟨⟨rfl, rfl, rfl, rfl, rfl, rfl, rfl, rfl, List.prefix_refl _⟩,
      by simp [SchedulerPhase.IsTerminated, goTo]⟩
  · exact ⟨⟨rfl, rfl, rfl, rfl, rfl, rfl, rfl, rfl, List.prefix_append _ _⟩,
      by simp [SchedulerPhase.IsTerminated, goTo]⟩

/-- What a step of the scheduler can do to the account. -/
theorem tally_scheduleStep {now : Instant} {expired : Bool}
    (h : r.scheduleStep setup now expired = some r') : Tally setup r r' none := by
  unfold scheduleStep at h
  split at h
  case h_1 hphase =>
    obtain rfl := Option.some.inj h
    exact .of_passes (passes_begin r) (by simp [SchedulerPhase.IsTerminated, hphase])
  case h_2 hphase =>
    exact .of_passes (passes_awaitPeers h) (by simp [SchedulerPhase.IsTerminated, hphase])
  case h_3 hphase =>
    obtain rfl := Option.some.inj h
    exact tally_pull hphase
  case h_4 first others hphase =>
    exact .of_passes (passes_wake h) (by simp [SchedulerPhase.IsTerminated, hphase])
  case h_5 batch hphase =>
    obtain rfl := Option.some.inj h
    exact .of_passes (passes_choose r batch) (by simp [SchedulerPhase.IsTerminated, hphase])
  case h_6 next batch hphase =>
    exact .of_passes (passes_gate h) (by simp [SchedulerPhase.IsTerminated, hphase])
  case h_7 next batch hphase =>
    obtain rfl := Option.some.inj h
    exact .of_passes (passes_judge r now next batch) (by simp [SchedulerPhase.IsTerminated, hphase])
  case h_8 next batch hphase => exact tally_dispatch hphase h
  case h_9 hphase => exact tally_drain hphase h
  all_goals simp at h

end Scheduler

/-! ## The handlers -/

section Handlers

variable {setup : RunSetup κ} {r r' : Run P κ}

/-- The handler of a number, found by the number that it has. -/
theorem handler?_number {number : Nat} {x : Handler P} (hx : r.handler? number = some x) :
    x.number = number ∧ r.handler? x.number = some x := by
  obtain ⟨-, rfl⟩ := handler?_eq_some hx
  exact ⟨rfl, hx⟩

/-- The result that a step adds, if it adds just this one. -/
theorem ending?_eq_some {e : RunEvent} {number : Nat} {result : Except ReplayError Unit}
    (he : e.handler? = some number) (h : r.step setup e = some r')
    (hfinished : r'.finished = r.finished ++ [result]) :
    r.ending? setup e = some ⟨number, r.acceptedRecord? e, result⟩ := by
  simp [ending?, he, h, hfinished]

/-- A step of a handler that adds no result is no ending. -/
theorem ending?_eq_none {e : RunEvent} (h : r.step setup e = some r')
    (hfinished : r'.finished = r.finished) : r.ending? setup e = none := by
  cases he : e.handler? <;> simp [ending?, he, h, hfinished]

/-- A handler gets a worker, or ends because there are none any more. -/
theorem tally_startCall {number : Nat} {now : Instant}
    (h : r.step setup (.execute number now) = some r') :
    Tally setup r r' (r.ending? setup (.execute number now)) := by
  have hstep := h
  simp only [step, startCall] at hstep
  split at hstep
  · rename_i n scheduled hhandler
    obtain ⟨rfl, hx⟩ := handler?_number hhandler
    split at hstep
    · obtain rfl := Option.some.inj hstep
      rw [ending?_eq_none h rfl]
      exact .move hx (by simp) ⟨rfl, rfl, rfl, rfl, rfl, rfl, rfl, rfl, List.prefix_refl _⟩ rfl
    · simp at hstep
    · obtain rfl := Option.some.inj hstep
      rw [ending?_eq_some rfl h rfl]
      exact .fail hx (SameTally.refl _) rfl
  · simp at hstep

/-- A handler takes up the answer of the database, or ends because the call broke down or records
are not accepted any more. -/
theorem tally_finishCall {number : Nat} {answer : CallAnswer} {elapsed : Duration}
    (h : r.step setup (.answer number answer elapsed) = some r') :
    Tally setup r r' (r.ending? setup (.answer number answer elapsed)) := by
  have hstep := h
  simp only [step, finishCall] at hstep
  split at hstep
  · rename_i n scheduled start hhandler
    obtain ⟨rfl, hx⟩ := handler?_number hhandler
    split at hstep
    · obtain rfl := Option.some.inj hstep
      rw [ending?_eq_some rfl h rfl]
      exact .fail hx ⟨rfl, rfl, rfl, rfl, rfl, rfl, rfl, rfl, List.prefix_refl _⟩ rfl
    · split_ifs at hstep
      · obtain rfl := Option.some.inj hstep
        rw [ending?_eq_none h rfl]
        refine .move hx (fun record hrecord => ?_)
          ⟨rfl, rfl, rfl, rfl, rfl, rfl, rfl, rfl, List.prefix_refl _⟩ rfl
        obtain rfl := HandlerPhase.submitting.inj hrecord
        exact ⟨rfl, rfl⟩
      · obtain rfl := Option.some.inj hstep
        rw [ending?_eq_some rfl h rfl]
        exact .fail hx ⟨rfl, rfl, rfl, rfl, rfl, rfl, rfl, rfl, List.prefix_refl _⟩ rfl
  · simp at hstep

/-- A handler whose record is in the queue ends, and its operation has its record. -/
theorem settleHandler_tally (r : Run P κ) (x : Handler P) (metrics : MetricsPipeline κ)
    (record : MetricsRecord) : ∃ result,
      ({ r with metrics := metrics }.settleHandler x record.success).finished =
        r.finished ++ [result] ∧
      SameTally ((r.recorded metrics x.number record result).endHandler x.number result)
        ({ r with metrics := metrics }.settleHandler x record.success) ∧
      ({ r with metrics := metrics }.settleHandler x record.success).phase = r.phase := by
  have hgood : ∀ tracker completion,
      SameTally ((r.recorded metrics x.number record (.ok ())).endHandler x.number (.ok ()))
        (endHandler { r with
          metrics := metrics
          unrecorded := r.unrecorded.filter (·.1 ≠ x.number)
          tracker := tracker
          completion := completion
          completed := r.completed + 1
          failed := if record.success then r.failed else r.failed + 1 } x.number (.ok ())) := by
    intro tracker completion
    refine ⟨rfl, rfl, rfl, rfl, rfl, ?_, rfl, rfl, List.prefix_refl _⟩
    cases hsuccess : record.success <;>
      simp [recorded, endHandler, Ending.isFailure, Ending.isGood, Ending.error?,
        ReplayError.ofResult?, hsuccess]
  unfold settleHandler
  dsimp only
  split
  · split
    · exact ⟨_, rfl, ⟨rfl, rfl, rfl, rfl, rfl, rfl, rfl, rfl, List.prefix_refl _⟩, rfl⟩
    · exact ⟨_, rfl, hgood _ _, rfl⟩
  · exact ⟨_, rfl, hgood _ _, rfl⟩

/-- A handler sends its record and ends, or ends because the queue is closed. -/
theorem tally_sendRecord {number : Nat} (h : r.step setup (.submit number) = some r') :
    Tally setup r r' (r.ending? setup (.submit number)) := by
  have hstep := h
  simp only [step, sendRecord] at hstep
  split at hstep
  · rename_i n scheduled record hhandler
    obtain ⟨rfl, hx⟩ := handler?_number hhandler
    split at hstep
    · simp at hstep
    · rename_i hoffer
      obtain rfl := Option.some.inj hstep
      have hnone : r.acceptedRecord? (.submit n) = none := by
        simp [acceptedRecord?, hhandler, hoffer]
      rw [ending?_eq_some rfl h rfl, hnone]
      exact .fail hx (SameTally.refl _) rfl
    · rename_i metrics hoffer
      obtain rfl := Option.some.inj hstep
      have hsome : r.acceptedRecord? (.submit n) = some record := by
        simp [acceptedRecord?, hhandler, hoffer]
      obtain ⟨result, hfinished, hsame, hphase⟩ :=
        settleHandler_tally r ⟨n, scheduled, .submitting record⟩ metrics record
      rw [ending?_eq_some rfl h hfinished, hsome]
      exact .settle hx rfl hoffer hsame hphase
  · simp at hstep

end Handlers

/-! ## All events -/

section Events

variable {setup : RunSetup κ} {r r' : Run P κ}

/-- What an event can do to the account, with the ending that it brings about. -/
theorem tally_of_step {e : RunEvent} (h : r.step setup e = some r') :
    Tally setup r r' (r.ending? setup e) := by
  have hcompletion : ∀ answer : Except ReplayError CompletionService,
      SameTally r (r.withCompletion answer) ∧ (r.withCompletion answer).phase = r.phase := by
    intro answer
    cases answer with
    | error e => exact ⟨SameTally.refl r, rfl⟩
    | ok s => exact ⟨⟨rfl, rfl, rfl, rfl, rfl, rfl, rfl, rfl, List.prefix_refl _⟩, rfl⟩
  cases e with
  | execute number now => exact tally_startCall h
  | answer number answer elapsed => exact tally_finishCall h
  | submit number => exact tally_sendRecord h
  | schedule now expired => exact tally_scheduleStep h
  | expire now => exact tally_expireDrain h
  | consume =>
    obtain ⟨⟨metrics, report⟩, hconsume, rfl⟩ := Option.map_eq_some_iff.mp h
    refine .consume hconsume ⟨rfl, rfl, rfl, rfl, rfl, rfl, rfl, rfl, ?_⟩ rfl
    cases report with
    | none => exact List.prefix_refl _
    | some text => exact List.prefix_append _ _
  | peerClaims =>
    obtain rfl := Option.some.inj h
    obtain ⟨hsame, hphase⟩ := hcompletion (r.completion.claim.map (·.2))
    exact .same hsame (by rw [hphase])
  | peerInitiated slot time =>
    simp only [step] at h
    split_ifs at h
    obtain rfl := Option.some.inj h
    obtain ⟨hsame, hphase⟩ := hcompletion (r.completion.reportInitiated slot time)
    exact .same hsame (by rw [hphase])
  | peerCompleted slot time =>
    simp only [step] at h
    split_ifs at h
    obtain rfl := Option.some.inj h
    obtain ⟨hsame, hphase⟩ := hcompletion (r.completion.reportCompleted slot time)
    exact .same hsame (by rw [hphase])
  | completionShutdown =>
    obtain rfl := Option.some.inj h
    exact .same ⟨rfl, rfl, rfl, rfl, rfl, rfl, rfl, rfl, List.prefix_refl _⟩ Iff.rfl
  | report source message =>
    obtain rfl := Option.some.inj h
    exact .same ⟨rfl, rfl, rfl, rfl, rfl, rfl, rfl, rfl, List.prefix_append _ _⟩ Iff.rfl

end Events

end Run

end WorkloadReplay
