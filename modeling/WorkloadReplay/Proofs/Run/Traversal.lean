import WorkloadReplay.Proofs.Run.Fates

/-!
# How far a run comes in its sequence

A run dispatches the operations of a merged sequence from the front. As long as it dispatches, the
operations that it has dispatched, those that the scheduler holds and the items that it has not
looked at are the whole sequence (`Run.itinerary?`), errors in place of operations included. The
scheduler turns to draining for one of two reasons: nothing is left of the sequence, or an error has
been reported. So where a run has ended and no error is reported, there is no error in the sequence
and all of it has been dispatched.

`Run.Advance` lists what an event can do to this; `Traverses.steps` is the invariant over a run.
-/

namespace WorkloadReplay

variable {P κ : Type}

/-- Reports are never taken back. -/
theorem ErrorLog.hasErrors_of_prefix {log log' : ErrorLog} (h : log.entries <+: log'.entries)
    (herrors : log.hasErrors = true) : log'.hasErrors = true := by
  obtain ⟨rest, hrest⟩ := h
  rw [hasErrors, Bool.not_eq_true', List.isEmpty_eq_false_iff] at herrors ⊢
  rw [← hrest]
  exact List.append_ne_nil_of_left_ne_nil herrors rest

/-- Taking the first operations off a sequence loses no item. -/
theorem takeBefore_toList (limit : Instant) (s : Schedule P) :
    (takeBefore limit s).1.map .ok ++ (takeBefore limit s).2.toList = s.toList := by
  induction s with
  | nil => rfl
  | cons item tail ih =>
    cases item with
    | error e => rfl
    | ok x =>
      unfold takeBefore
      split_ifs with hlt
      · exact congrArg (.ok x :: ·) (ih ())
      · rfl

/-- A batch and the rest are the whole sequence. -/
theorem nextBatch_toList {window : Option Duration} {s : Schedule P} {b : Batch P}
    (h : nextBatch window s = some (.ok b)) :
    b.operations.map .ok ++ b.rest.toList = s.toList := by
  unfold nextBatch at h
  split at h
  · simp at h
  · simp at h
  · rename_i x tail
    split at h
    · obtain rfl := Except.ok.inj (Option.some.inj h)
      rfl
    · obtain rfl := Except.ok.inj (Option.some.inj h)
      exact congrArg (.ok x :: ·) (takeBefore_toList _ _)

/-- There is no batch only at the end of the sequence. -/
theorem toList_of_nextBatch_none {window : Option Duration} {s : Schedule P}
    (h : nextBatch window s = none) : s.toList = [] := by
  unfold nextBatch at h
  split at h
  · rfl
  · simp at h
  · split at h <;> simp at h

namespace Run

/-- The whole sequence, as a run that still dispatches has it: what is dispatched, what the
scheduler holds, and what it has not looked at. -/
def itinerary? (r : Run P κ) : Option (List (Except ReplayError (ScheduledOperation P))) :=
  r.phase.held?.map fun held =>
    r.dispatched.toList.map .ok ++ (held.map .ok ++ r.operations.toList)

/-- The scheduler dispatches no more and has not broken down. -/
def IsPast (r : Run P κ) : Prop := r.phase = .draining ∨ r.phase.IsTerminated

/-- What an event can do to the way of a run through its sequence. -/
inductive Advance (r r' : Run P κ) : Prop where
  /-- The scheduler goes on with the same sequence. -/
  | onward (h : r'.itinerary? = r.itinerary?) (hheld : r'.phase.held? ≠ none)
  /-- Something else happens, or a run that drains ends. -/
  | aside (hphase : r'.phase = r.phase ∨ r.phase = .draining ∧ r'.phase.IsTerminated)
      (hdispatched : r'.dispatched = r.dispatched) (hoperations : r'.operations = r.operations)
      (hlog : r.log.entries <+: r'.log.entries)
  /-- The dispatching stops because of an error. -/
  | halt (hheld : r'.phase.held? = none) (herrors : r'.IsPast → r'.log.hasErrors = true)
  /-- The dispatching is done, for nothing is left of the sequence. -/
  | exhaust (h : r.itinerary? = some (r'.dispatched.toList.map .ok)) (hphase : r'.phase = .draining)

section Scheduler

variable {setup : RunSetup κ} {r r' : Run P κ}

/-- A run whose scheduler has broken down or could not begin is not past its dispatching. -/
theorem advance_halt {phase : SchedulerPhase P} (s : Run P κ) (hheld : phase.held? = none)
    (hphase : phase ≠ .draining) (hphase' : ¬ phase.IsTerminated) : Advance r (s.goTo phase) :=
  .halt hheld fun hpast => hpast.elim (absurd · hphase) (absurd · hphase')

/-- A run that reports an error and dispatches no more. -/
theorem advance_fail {phase : SchedulerPhase P} (s : Run P κ) (e : ReplayError)
    (hheld : phase.held? = none) : Advance r ((s.fail e).goTo phase) :=
  .halt hheld fun _ => ErrorLog.hasErrors_report _ _ _

/-- The beginning of the run proper is that of its sequence. -/
theorem advance_launch {s : Run P κ} (h : s.itinerary? = r.itinerary?)
    (hheld : s.phase.held? = some []) : Advance r (s.launch setup) := by
  unfold launch
  split
  · exact advance_halt s rfl (by simp) (by simp [SchedulerPhase.IsTerminated])
  · refine .onward ?_ (by simp [SchedulerPhase.held?])
    rw [← h]
    unfold itinerary?
    rw [hheld]
    rfl

/-- The seeds of the tracker have nothing to do with the sequence. -/
theorem advance_seed {s : Run P κ} {start : Instant} {t : CompletionTracker}
    (h : s.itinerary? = r.itinerary?) (hheld : s.phase.held? = some []) :
    Advance r (s.seed start t) := by
  have hgone : ∀ (s : Run P κ) (e : ReplayError), Advance r (s.goTo (.refused e)) :=
    fun s e => advance_halt s rfl (by simp) (by simp [SchedulerPhase.IsTerminated])
  unfold seed
  split
  · exact hgone _ _
  · split
    · exact hgone _ _
    · dsimp only
      split
      · exact hgone _ _
      · split
        · exact hgone _ _
        · refine .onward ?_ (by simp [SchedulerPhase.held?])
          rw [← h]
          unfold itinerary?
          rw [hheld]
          rfl

/-- The beginning of a run is that of its sequence. -/
theorem advance_begin (hphase : r.phase = .idle) : Advance r (r.begin setup) := by
  have hheld : r.phase.held? = some [] := by rw [hphase]; rfl
  unfold begin
  split_ifs
  · exact advance_launch rfl hheld
  · split
    · exact advance_fail r _ rfl
    · exact advance_seed rfl hheld

/-- After the wait for the other peers the run proper begins, or the run is refused. -/
theorem advance_awaitPeers {expired : Bool} (hphase : r.phase = .awaitingPeers)
    (h : r.awaitPeers setup expired = some r') : Advance r r' := by
  obtain ⟨reached, -, rfl⟩ := Option.map_eq_some_iff.mp h
  split_ifs
  · exact advance_launch rfl (by rw [hphase]; rfl)
  · exact advance_fail r _ rfl

/-- The next batch comes from the front of the sequence. An error that stands there is reported,
unless there is one already. -/
theorem advance_pull (hphase : r.phase = .pulling) : Advance r (r.pull setup) := by
  have hitinerary : r.itinerary? = some (r.dispatched.toList.map .ok ++ r.operations.toList) := by
    simp [itinerary?, hphase, SchedulerPhase.held?]
  unfold pull
  split
  · rename_i hnone
    refine .exhaust ?_ rfl
    rw [hitinerary, toList_of_nextBatch_none hnone, List.append_nil]
    rfl
  · rename_i batch hbatch
    split
    · exact advance_halt r.reap rfl (by simp) (by simp [SchedulerPhase.IsTerminated])
    · dsimp only
      split_ifs with herrors
      · exact .halt rfl fun _ => herrors
      · exact advance_fail r.reap _ rfl
    · rename_i b
      have htaken := nextBatch_toList hbatch
      dsimp only
      split_ifs with herrors
      · exact .halt rfl fun _ => herrors
      · refine .onward ?_ (by simp [goTo, SchedulerPhase.held?])
        rw [hitinerary, ← htaken]
        rfl
      · refine .onward ?_ (by simp [goTo, SchedulerPhase.held?])
        rw [hitinerary, ← htaken]
        rfl

/-- A scheduler that wakes up goes on with its batch, unless an error has been reported. -/
theorem advance_wake {now : Instant} {first : ScheduledOperation P}
    {others : List (ScheduledOperation P)} (hphase : r.phase = .sleeping first others)
    (h : r.wake now first others = some r') : Advance r r' := by
  unfold wake at h
  split_ifs at h with herrors
  · obtain rfl := Option.some.inj h
    exact .halt rfl fun _ => herrors
  · obtain rfl := Option.some.inj h
    refine .onward ?_ (by simp [goTo, SchedulerPhase.held?])
    simp [itinerary?, hphase, goTo, SchedulerPhase.held?]
  · split at h
    · obtain rfl := Option.some.inj h
      exact advance_halt r rfl (by simp) (by simp [SchedulerPhase.IsTerminated])
    · simp at h

/-- The choice of the next operation holds on to all of the batch. -/
theorem advance_choose {batch : List (ScheduledOperation P)}
    (hphase : r.phase = .dispatching batch) : Advance r (r.choose batch) := by
  unfold choose
  split
  · refine .onward ?_ (by simp [goTo, SchedulerPhase.held?])
    simp [itinerary?, hphase, goTo, SchedulerPhase.held?]
  · split_ifs with herrors
    · exact .halt rfl fun _ => herrors
    all_goals
      refine .onward ?_ (by simp [goTo, SchedulerPhase.held?])
      simp [itinerary?, hphase, goTo, SchedulerPhase.held?]

/-- An operation passes its gate, or an error is reported. -/
theorem advance_gate {expired : Bool} {next : ScheduledOperation P}
    {batch : List (ScheduledOperation P)} (hphase : r.phase = .gating next batch)
    (h : r.gate setup expired next batch = some r') : Advance r r' := by
  obtain ⟨reached, -, rfl⟩ := Option.map_eq_some_iff.mp h
  split_ifs
  · refine .onward ?_ (by simp [goTo, SchedulerPhase.held?])
    simp [itinerary?, hphase, goTo, SchedulerPhase.held?]
  · exact advance_fail r _ rfl

/-- An operation is early enough, or late and let through, or an error is reported. -/
theorem advance_judge {now : Instant} {next : ScheduledOperation P}
    {batch : List (ScheduledOperation P)} (hphase : r.phase = .judging next batch) :
    Advance r (r.judge setup now next batch) := by
  unfold judge
  split
  · refine .onward ?_ (by simp [goTo, SchedulerPhase.held?])
    simp [itinerary?, hphase, goTo, SchedulerPhase.held?]
  · refine .onward ?_ (by simp [goTo, SchedulerPhase.held?])
    simp [itinerary?, hphase, goTo, SchedulerPhase.held?]
  · exact advance_fail _ _ rfl

/-- An operation that is dispatched goes from those that are held to those that are dispatched. -/
theorem advance_dispatch {next : ScheduledOperation P} {batch : List (ScheduledOperation P)}
    (hphase : r.phase = .admitting next batch) (h : r.dispatch next batch = some r') :
    Advance r r' := by
  have hspawned : ∀ s : Run P κ, s.dispatched = r.dispatched → s.operations = r.operations →
      Advance r ((s.spawn next).goTo (.dispatching batch)) := by
    intro s hdispatched hoperations
    refine .onward ?_ (by simp [goTo, SchedulerPhase.held?])
    simp [itinerary?, hphase, goTo, spawn, SchedulerPhase.held?, hdispatched, hoperations]
  unfold dispatch at h
  split at h
  · simp at h
  · obtain rfl := Option.some.inj h
    exact advance_fail r _ rfl
  · split at h
    · split at h
      · obtain rfl := Option.some.inj h
        exact advance_fail _ _ rfl
      · obtain rfl := Option.some.inj h
        exact hspawned _ rfl rfl
    · obtain rfl := Option.some.inj h
      exact hspawned _ rfl rfl

/-- While it drains, the scheduler reports the errors of handlers, until the run ends. -/
theorem advance_drain {now : Instant} (hphase : r.phase = .draining) (h : r.drain now = some r') :
    Advance r r' := by
  unfold drain at h
  split at h
  · obtain rfl := Option.some.inj h
    exact .aside (.inr ⟨hphase, now, rfl⟩) rfl rfl (List.prefix_refl _)
  · simp at h
  · obtain rfl := Option.some.inj h
    refine .aside (.inl rfl) rfl rfl ?_
    rw [entries_reap]
    exact List.prefix_append _ _

/-- When the time for draining is over, the run ends. -/
theorem advance_expireDrain {now : Instant} (h : r.expireDrain setup now = some r') :
    Advance r r' := by
  unfold expireDrain at h
  split at h
  · rename_i hphase
    have hlog : r.log.entries <+: r.reap.log.entries := by
      rw [entries_reap]
      exact List.prefix_append _ _
    obtain rfl := Option.some.inj h
    split_ifs
    · exact .aside (.inr ⟨hphase, now, rfl⟩) rfl rfl hlog
    · refine .aside (.inr ⟨hphase, now, rfl⟩) rfl rfl (hlog.trans ?_)
      have habandoned := entries_abandon setup r.reap
      exact habandoned ▸ List.prefix_append _ _
  · simp at h

/-- What a step of the scheduler can do. -/
theorem advance_of_scheduleStep {now : Instant} {expired : Bool}
    (h : r.scheduleStep setup now expired = some r') : Advance r r' := by
  unfold scheduleStep at h
  split at h
  case h_1 hphase =>
    obtain rfl := Option.some.inj h
    exact advance_begin hphase
  case h_2 hphase => exact advance_awaitPeers hphase h
  case h_3 hphase =>
    obtain rfl := Option.some.inj h
    exact advance_pull hphase
  case h_4 first others hphase => exact advance_wake hphase h
  case h_5 batch hphase =>
    obtain rfl := Option.some.inj h
    exact advance_choose hphase
  case h_6 next batch hphase => exact advance_gate hphase h
  case h_7 next batch hphase =>
    obtain rfl := Option.some.inj h
    exact advance_judge hphase
  case h_8 next batch hphase => exact advance_dispatch hphase h
  case h_9 hphase => exact advance_drain hphase h
  all_goals simp at h

end Scheduler

section Events

variable {setup : RunSetup κ} {r r' : Run P κ}

/-- An event that leaves the scheduler and the error log alone. -/
theorem advance_frame (hphase : r'.phase = r.phase) (hdispatched : r'.dispatched = r.dispatched)
    (hoperations : r'.operations = r.operations) (hlog : r'.log = r.log) : Advance r r' :=
  .aside (.inl hphase) hdispatched hoperations (hlog ▸ List.prefix_refl _)

/-- A handler calls the database. -/
theorem advance_startCall {number : Nat} {now : Instant} (h : r.startCall number now = some r') :
    Advance r r' := by
  unfold startCall at h
  split at h
  · split at h
    · obtain rfl := Option.some.inj h
      exact advance_frame rfl rfl rfl rfl
    · simp at h
    · obtain rfl := Option.some.inj h
      exact advance_frame rfl rfl rfl rfl
  · simp at h

/-- A call of the database comes back. -/
theorem advance_finishCall {number : Nat} {answer : CallAnswer} {elapsed : Duration}
    (h : r.finishCall number answer elapsed = some r') : Advance r r' := by
  simp only [finishCall] at h
  split at h
  · split at h
    · obtain rfl := Option.some.inj h
      exact advance_frame rfl rfl rfl rfl
    · split_ifs at h
      all_goals
        obtain rfl := Option.some.inj h
        exact advance_frame rfl rfl rfl rfl
  · simp at h

/-- A handler with its record accepted comes to its end, good or not. Its error is not reported
before the scheduler absorbs it. -/
theorem advance_settleHandler (r : Run P κ) (metrics : MetricsPipeline κ) (x : Handler P)
    (success : Bool) : Advance r ({ r with metrics := metrics }.settleHandler x success) := by
  unfold settleHandler
  dsimp only
  split
  · split <;> exact advance_frame rfl rfl rfl rfl
  · exact advance_frame rfl rfl rfl rfl

/-- A handler sends its record. -/
theorem advance_sendRecord {number : Nat} (h : r.sendRecord number = some r') : Advance r r' := by
  unfold sendRecord at h
  split at h
  · split at h
    · simp at h
    · obtain rfl := Option.some.inj h
      exact advance_frame rfl rfl rfl rfl
    · obtain rfl := Option.some.inj h
      exact advance_settleHandler r _ _ _
  · simp at h

/-- The steps of handlers, of the consumer of the metrics pipeline and of other peers have nothing
to do with the sequence. -/
theorem advance_of_step {e : RunEvent} (h : r.step setup e = some r') : Advance r r' := by
  have hcompletion : ∀ answer : Except ReplayError CompletionService,
      Advance r (r.withCompletion answer) := by
    intro answer
    cases answer <;> exact advance_frame rfl rfl rfl rfl
  cases e with
  | schedule now expired => exact advance_of_scheduleStep h
  | expire now => exact advance_expireDrain h
  | execute number now => exact advance_startCall h
  | answer number answer elapsed => exact advance_finishCall h
  | submit number => exact advance_sendRecord h
  | consume =>
    obtain ⟨⟨metrics, report⟩, -, rfl⟩ := Option.map_eq_some_iff.mp h
    refine .aside (.inl rfl) rfl rfl ?_
    cases report with
    | none => exact List.prefix_refl _
    | some text => exact List.prefix_append _ _
  | peerClaims =>
    obtain rfl := Option.some.inj h
    exact hcompletion _
  | peerInitiated slot time =>
    simp only [step] at h
    split_ifs at h
    obtain rfl := Option.some.inj h
    exact hcompletion _
  | peerCompleted slot time =>
    simp only [step] at h
    split_ifs at h
    obtain rfl := Option.some.inj h
    exact hcompletion _
  | completionShutdown =>
    obtain rfl := Option.some.inj h
    exact advance_frame rfl rfl rfl rfl
  | report source message =>
    obtain rfl := Option.some.inj h
    exact .aside (.inl rfl) rfl rfl (List.prefix_append _ _)

/-- How far a run has come in a sequence: as long as it dispatches, the sequence is the one that it
has; after that, an error has been reported or all of the sequence has been dispatched. -/
structure Traverses (items : List (Except ReplayError (ScheduledOperation P))) (r : Run P κ) :
    Prop where
  ahead : ∀ sequence, r.itinerary? = some sequence → sequence = items
  past : r.IsPast → r.log.hasErrors = true ∨ items = r.dispatched.toList.map .ok

variable {items : List (Except ReplayError (ScheduledOperation P))}

/-- A run begins with all of its sequence ahead. -/
theorem traverses_fresh (operations : Schedule P) (completion : CompletionService)
    (metrics : MetricsPipeline κ) (log : ErrorLog) :
    Traverses operations.toList (fresh operations completion metrics log) where
  ahead sequence h := (Option.some.inj h).symm
  past h := by simp [IsPast, fresh, SchedulerPhase.IsTerminated] at h

/-- A run past its dispatching holds no operations. -/
theorem IsPast.held? (h : r.IsPast) : r.phase.held? = none := by
  rcases h with h | ⟨finish, h⟩ <;> rw [h] <;> rfl

/-- Every event takes a run on its way. -/
theorem Traverses.advance (h : Traverses items r) (ha : Advance r r') : Traverses items r' := by
  have hover : r'.phase.held? = none → ∀ sequence, r'.itinerary? = some sequence →
      sequence = items := by
    intro hheld sequence hsequence
    simp [itinerary?, hheld] at hsequence
  cases ha with
  | onward hsame hheld =>
    exact ⟨fun sequence hsequence => h.ahead sequence (hsame ▸ hsequence),
      fun hpast => absurd hpast.held? hheld⟩
  | aside hphase hdispatched hoperations hlog =>
    have hpast : r.IsPast → r'.log.hasErrors = true ∨ items = r'.dispatched.toList.map .ok := by
      intro hpast
      rw [hdispatched]
      exact (h.past hpast).imp_left (ErrorLog.hasErrors_of_prefix hlog)
    rcases hphase with hphase | ⟨hdraining, hterminated⟩
    · refine ⟨fun sequence hsequence => h.ahead sequence ?_, fun hpast' => hpast ?_⟩
      · unfold itinerary? at hsequence ⊢
        rwa [hphase, hdispatched, hoperations] at hsequence
      · unfold IsPast at hpast' ⊢
        rwa [hphase] at hpast'
    · exact ⟨hover (IsPast.held? (.inr hterminated)), fun _ => hpast (.inl hdraining)⟩
  | halt hheld herrors => exact ⟨hover hheld, fun hpast => .inl (herrors hpast)⟩
  | exhaust hsequence hphase =>
    exact ⟨hover (by rw [hphase]; rfl), fun _ => .inr (h.ahead _ hsequence).symm⟩

/-- Any events take a run on its way. -/
theorem Traverses.steps (h : Traverses items r) {events : List RunEvent}
    (hs : r.steps setup events = some r') : Traverses items r' := by
  induction events generalizing r with
  | nil => exact Option.some.inj hs ▸ h
  | cons e rest ih =>
    obtain ⟨s, hstep, hrest⟩ := Option.bind_eq_some_iff.mp hs
    exact ih (h.advance (advance_of_step hstep)) hrest

end Events

end Run

end WorkloadReplay
