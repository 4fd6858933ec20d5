import WorkloadReplay.Proofs.Completion.Watermark
import WorkloadReplay.Proofs.Run.Phases
import WorkloadReplay.Proofs.Stream.Lanes

/-!
# How a run goes through its operations

The scheduler of a run takes operations off a merged sequence, holds them while it sleeps, waits and
judges, and dispatches them one by one. `Run.remaining` lists the operations that are still to come
in a state, whether the scheduler holds them already or not.

Most steps of a run are `Run.Quiet`: they dispatch nothing, let the completion time service and the
tracker alone, and leave the remaining operations as they are, unless they end the dispatching.
There is one lemma for each function of the scheduler and of the handlers. The steps that are not
quiet are the beginning, the dispatching of an operation, the end of a handler whose record is in
the queue, and what other peers do. `Run.Turn` lists them, and `turn_of_step` says that there are no
others.
-/

namespace WorkloadReplay

variable {P κ : Type}

/-! ## Batches -/

/-- Taking the first operations off a sequence loses none. -/
theorem takeBefore_append (limit : Instant) (s : Schedule P) :
    (takeBefore limit s).1 ++ (takeBefore limit s).2.operations = s.operations := by
  induction s with
  | nil => rfl
  | cons item tail ih =>
    cases item with
    | error e => rfl
    | ok x =>
      unfold takeBefore
      split_ifs with hlt
      · exact congrArg (x :: ·) (ih ())
      · rfl

/-- A batch and the rest are the operations of the sequence. -/
theorem nextBatch_append {window : Option Duration} {s : Schedule P} {b : Batch P}
    (h : nextBatch window s = some (.ok b)) : b.operations ++ b.rest.operations = s.operations := by
  unfold nextBatch at h
  split at h
  · simp at h
  · simp at h
  · rename_i x tail
    split at h
    · obtain rfl := Except.ok.inj (Option.some.inj h)
      rfl
    · rename_i w
      obtain rfl := Except.ok.inj (Option.some.inj h)
      exact congrArg (x :: ·) (takeBefore_append _ _)

/-! ## The operations that remain -/

namespace SchedulerPhase

/-- The operations that the scheduler has taken off the sequence and not dispatched; `none` when it
dispatches no more. -/
def held? : SchedulerPhase P → Option (List (ScheduledOperation P))
  | .idle => some []
  | .awaitingPeers => some []
  | .pulling => some []
  | .sleeping first others => some (first :: others)
  | .dispatching batch => some batch
  | .gating next batch => some (next :: batch)
  | .judging next batch => some (next :: batch)
  | .admitting next batch => some (next :: batch)
  | .draining => none
  | .terminated _ => none
  | .refused _ => none
  | .broken _ => none

/-- The operation that has passed its gate and is to be dispatched next. -/
def admitted? : SchedulerPhase P → Option (ScheduledOperation P)
  | .judging next _ => some next
  | .admitting next _ => some next
  | _ => none

/-- Where nothing is dispatched any more, nothing is to be dispatched next. -/
theorem admitted?_eq_none {phase : SchedulerPhase P} (h : phase.held? = none) :
    phase.admitted? = none := by
  cases phase <;> simp_all [held?, admitted?]

end SchedulerPhase

/-- The operation of a handler with its number. -/
def Handler.job (h : Handler P) : ScheduledOperation P × Nat := (h.scheduled, h.number)

namespace Run

/-- The operations that a run has not dispatched and may still dispatch, in order. -/
def remaining (r : Run P κ) : List (ScheduledOperation P) :=
  r.phase.held?.elim [] (· ++ r.operations.operations)

/-- What most steps of a run do not do. -/
structure Quiet (r r' : Run P κ) : Prop where
  completion : r'.completion = r.completion
  tracker : r'.tracker = r.tracker
  dispatched : r'.dispatched = r.dispatched
  /-- No handler is new. -/
  jobs : ∀ h' ∈ r'.handlers, ∃ h ∈ r.handlers, h'.job = h.job
  /-- The dispatching ends, or the same operations remain. -/
  phase : r'.phase.held? = none ∨
    r.phase.held? ≠ none ∧ (r'.phase = .idle ↔ r.phase = .idle) ∧ r'.remaining = r.remaining
  /-- An operation that waits at its gate passes it only if its dependency time is reached. -/
  gate : ∀ next, r'.phase.admitted? = some next → r.phase.admitted? = some next ∨
    (next.operation.isGated = true →
      r.completion.hasReached next.operation.dependencyTime = true)

/-- A step of a handler is quiet if it leaves the service and the tracker alone. -/
theorem Quiet.of_phase {r r' : Run P κ} (hcompletion : r'.completion = r.completion)
    (htracker : r'.tracker = r.tracker) (hdispatched : r'.dispatched = r.dispatched)
    (hjobs : ∀ h' ∈ r'.handlers, ∃ h ∈ r.handlers, h'.job = h.job)
    (hphase : r'.phase = r.phase) (hoperations : r'.operations = r.operations) : Quiet r r' where
  completion := hcompletion
  tracker := htracker
  dispatched := hdispatched
  jobs := hjobs
  phase := by
    unfold remaining
    rw [hphase, hoperations]
    by_cases h : r.phase.held? = none
    · exact .inl h
    · exact .inr ⟨h, Iff.rfl, rfl⟩
  gate next hnext := .inl (hphase ▸ hnext)

/-- A step that ends the dispatching is quiet if it leaves the service and the tracker alone. -/
theorem Quiet.of_over {r r' : Run P κ} (hcompletion : r'.completion = r.completion)
    (htracker : r'.tracker = r.tracker) (hdispatched : r'.dispatched = r.dispatched)
    (hjobs : ∀ h' ∈ r'.handlers, ∃ h ∈ r.handlers, h'.job = h.job)
    (hover : r'.phase.held? = none) : Quiet r r' where
  completion := hcompletion
  tracker := htracker
  dispatched := hdispatched
  jobs := hjobs
  phase := .inl hover
  gate next hnext := by
    rw [SchedulerPhase.admitted?_eq_none hover] at hnext
    simp at hnext

/-- A step of the scheduler that goes on is quiet if the same operations remain. -/
theorem Quiet.of_remaining {r r' : Run P κ} (hcompletion : r'.completion = r.completion)
    (htracker : r'.tracker = r.tracker) (hdispatched : r'.dispatched = r.dispatched)
    (hhandlers : r'.handlers = r.handlers) (hheld : r.phase.held? ≠ none)
    (hidle : r'.phase ≠ .idle) (hidle' : r.phase ≠ .idle) (hremaining : r'.remaining = r.remaining)
    (hgate : ∀ next, r'.phase.admitted? = some next → r.phase.admitted? = some next ∨
      (next.operation.isGated = true →
        r.completion.hasReached next.operation.dependencyTime = true)) : Quiet r r' where
  completion := hcompletion
  tracker := htracker
  dispatched := hdispatched
  jobs h hh := ⟨h, hhandlers ▸ hh, rfl⟩
  phase := .inr ⟨hheld, by simp [hidle, hidle'], hremaining⟩
  gate := hgate

/-! ## The scheduler -/

section Scheduler

variable {setup : RunSetup κ} {r r' : Run P κ}

/-- A run that breaks down or ends its dispatching in the same state otherwise is quiet. -/
theorem quiet_goTo {phase : SchedulerPhase P} (h : phase.held? = none) : Quiet r (r.goTo phase) :=
  Quiet.of_over rfl rfl rfl (fun h hh => ⟨h, hh, rfl⟩) h

/-- A run that fails and ends its dispatching is quiet. -/
theorem quiet_fail {phase : SchedulerPhase P} {e : ReplayError} (h : phase.held? = none) :
    Quiet r ((r.fail e).goTo phase) :=
  Quiet.of_over rfl rfl rfl (fun h hh => ⟨h, hh, rfl⟩) h

/-- The wait for the other peers is quiet. -/
theorem quiet_awaitPeers {expired : Bool} (hp : r.phase = .awaitingPeers)
    (h : r.awaitPeers setup expired = some r') : Quiet r r' := by
  obtain ⟨reached, -, rfl⟩ := Option.map_eq_some_iff.mp h
  split_ifs
  · unfold launch
    split
    · exact quiet_goTo rfl
    · refine Quiet.of_remaining rfl rfl rfl rfl ?_ ?_ ?_ ?_ ?_ <;>
        simp [hp, SchedulerPhase.held?, remaining, SchedulerPhase.admitted?]
  · exact quiet_fail rfl

/-- The look for the next batch is quiet. -/
theorem quiet_pull (hp : r.phase = .pulling) : Quiet r (r.pull setup) := by
  unfold pull
  split
  · exact quiet_goTo rfl
  · rename_i batch hbatch
    split
    · exact Quiet.of_over rfl rfl rfl (fun h hh => ⟨h, hh, rfl⟩) rfl
    · dsimp only
      split_ifs <;> exact Quiet.of_over rfl rfl rfl (fun h hh => ⟨h, hh, rfl⟩) rfl
    · rename_i b
      have happend := nextBatch_append hbatch
      dsimp only
      split_ifs
      · exact Quiet.of_over rfl rfl rfl (fun h hh => ⟨h, hh, rfl⟩) rfl
      · refine Quiet.of_remaining rfl rfl rfl rfl ?_ ?_ ?_ ?_ ?_ <;>
          simp [hp, SchedulerPhase.held?, remaining, SchedulerPhase.admitted?, goTo, happend]
      · refine Quiet.of_remaining rfl rfl rfl rfl ?_ ?_ ?_ ?_ ?_ <;>
          simp [hp, SchedulerPhase.held?, remaining, SchedulerPhase.admitted?, goTo, ← happend,
            Batch.operations]

/-- Waking up is quiet. -/
theorem quiet_wake {now : Instant} {first : ScheduledOperation P}
    {others : List (ScheduledOperation P)} (hp : r.phase = .sleeping first others)
    (h : r.wake now first others = some r') : Quiet r r' := by
  unfold wake at h
  split_ifs at h
  · obtain rfl := Option.some.inj h
    exact quiet_goTo rfl
  · obtain rfl := Option.some.inj h
    refine Quiet.of_remaining rfl rfl rfl rfl ?_ ?_ ?_ ?_ ?_ <;>
      simp [hp, SchedulerPhase.held?, remaining, SchedulerPhase.admitted?, goTo]
  · split at h
    · obtain rfl := Option.some.inj h
      exact quiet_goTo rfl
    · simp at h

/-- The choice of the next operation of a batch is quiet; one that is not gated has no gate. -/
theorem quiet_choose {batch : List (ScheduledOperation P)} (hp : r.phase = .dispatching batch) :
    Quiet r (r.choose batch) := by
  unfold choose
  split
  · refine Quiet.of_remaining rfl rfl rfl rfl ?_ ?_ ?_ ?_ ?_ <;>
      simp [hp, SchedulerPhase.held?, remaining, SchedulerPhase.admitted?, goTo]
  · split_ifs with herrors hgated
    · exact quiet_goTo rfl
    · refine Quiet.of_remaining rfl rfl rfl rfl ?_ ?_ ?_ ?_ ?_ <;>
        simp [hp, SchedulerPhase.held?, remaining, SchedulerPhase.admitted?, goTo]
    · refine Quiet.of_remaining rfl rfl rfl rfl ?_ ?_ ?_ ?_ ?_ <;>
        simp [hp, SchedulerPhase.held?, remaining, SchedulerPhase.admitted?, goTo, hgated]

/-- A gate is quiet, and lets an operation pass only if its dependency time is reached. -/
theorem quiet_gate {expired : Bool} {next : ScheduledOperation P}
    {batch : List (ScheduledOperation P)} (hp : r.phase = .gating next batch)
    (h : r.gate setup expired next batch = some r') : Quiet r r' := by
  obtain ⟨reached, hawaited, rfl⟩ := Option.map_eq_some_iff.mp h
  split_ifs with hreached
  · have hdep : r.completion.hasReached next.operation.dependencyTime = true := by
      unfold awaited at hawaited
      split_ifs at hawaited with hdep
      · exact hdep
      · simp_all
    refine Quiet.of_remaining rfl rfl rfl rfl ?_ ?_ ?_ ?_ ?_ <;>
      simp [hp, SchedulerPhase.held?, remaining, SchedulerPhase.admitted?, goTo, hdep]
  · exact quiet_fail rfl

/-- The check of a delay is quiet. -/
theorem quiet_judge {now : Instant} {next : ScheduledOperation P}
    {batch : List (ScheduledOperation P)} (hp : r.phase = .judging next batch) :
    Quiet r (r.judge setup now next batch) := by
  unfold judge
  split
  · refine Quiet.of_remaining rfl rfl rfl rfl ?_ ?_ ?_ ?_ ?_ <;>
      simp [hp, SchedulerPhase.held?, remaining, SchedulerPhase.admitted?, goTo]
  · refine Quiet.of_remaining rfl rfl rfl rfl ?_ ?_ ?_ ?_ ?_ <;>
      simp [hp, SchedulerPhase.held?, remaining, SchedulerPhase.admitted?, goTo]
  · exact Quiet.of_over rfl rfl rfl (fun h hh => ⟨h, hh, rfl⟩) rfl

/-- The wait for the last handlers is quiet. -/
theorem quiet_drain {now : Instant} (hp : r.phase = .draining) (h : r.drain now = some r') :
    Quiet r r' := by
  unfold drain at h
  split at h
  · obtain rfl := Option.some.inj h
    exact Quiet.of_over rfl rfl rfl (fun h hh => ⟨h, hh, rfl⟩) rfl
  · simp at h
  · obtain rfl := Option.some.inj h
    exact Quiet.of_over rfl rfl rfl (fun h hh => ⟨h, hh, rfl⟩) (by rw [reap, hp]; rfl)

/-- The end of the time for draining is quiet. -/
theorem quiet_expireDrain {now : Instant} (h : r.expireDrain setup now = some r') :
    Quiet r r' := by
  unfold expireDrain at h
  split at h
  · obtain rfl := Option.some.inj h
    split_ifs
    · exact Quiet.of_over rfl rfl rfl (fun h hh => ⟨h, hh, rfl⟩) rfl
    · refine Quiet.of_over rfl rfl rfl (fun h hh => ?_) rfl
      simp [terminate, abandon] at hh
  · simp at h

/-- What the dispatching of an operation does: a tracked one is initiated, if there is a tracker. -/
structure Dispatches (r r' : Run P κ) (next : ScheduledOperation P)
    (batch : List (ScheduledOperation P)) : Prop where
  dispatched : r'.dispatched = r.dispatched.push next
  phase : r'.phase = .dispatching batch
  operations : r'.operations = r.operations
  handlers : r'.handlers = r.handlers ++ [⟨r.dispatched.size, next, .waiting⟩]
  tracker : ∀ t, r.tracker = some t → next.tracked = true → ∃ t', r'.tracker = some t' ∧
    t.initiate r.completion next.operation.scheduledStart = (.ok (), t', r'.completion)
  untracked : r.tracker = none ∨ next.tracked = false →
    r'.tracker = r.tracker ∧ r'.completion = r.completion

/-- An admitted operation is dispatched, or the dispatching ends. -/
theorem dispatch_cases {next : ScheduledOperation P} {batch : List (ScheduledOperation P)}
    (h : r.dispatch next batch = some r') : Quiet r r' ∨ Dispatches r r' next batch := by
  unfold dispatch at h
  split at h
  · simp at h
  · obtain rfl := Option.some.inj h
    exact .inl (quiet_fail rfl)
  · split at h
    · rename_i t htracked htracker
      rcases t.initiate_cases r.completion next.operation.scheduledStart with
        ⟨e, he⟩ | ⟨service, -, he⟩
      · rw [he] at h
        obtain rfl := Option.some.inj h
        exact .inl (Quiet.of_over rfl htracker.symm rfl (fun h hh => ⟨h, hh, rfl⟩) rfl)
      · rw [he] at h
        obtain rfl := Option.some.inj h
        refine .inr ⟨rfl, rfl, rfl, rfl, fun u hu _ => ?_, fun hu => ?_⟩
        · rw [htracker] at hu
          obtain rfl := Option.some.inj hu
          exact ⟨_, rfl, he⟩
        · rw [htracker, htracked] at hu
          simp at hu
    · rename_i hnot
      obtain rfl := Option.some.inj h
      refine .inr ⟨rfl, rfl, rfl, rfl, fun t ht htracked => ?_, fun _ => ⟨rfl, rfl⟩⟩
      exact absurd ht (hnot t htracked)

end Scheduler

/-! ## The handlers -/

section Handlers

variable {setup : RunSetup κ} {r r' : Run P κ}

/-- The handler of a number is one of the handlers, and has that number. -/
theorem handler?_eq_some {number : Nat} {h : Handler P} (hh : r.handler? number = some h) :
    h ∈ r.handlers ∧ h.number = number :=
  ⟨List.mem_of_find?_eq_some hh, by simpa using List.find?_some hh⟩

/-- A handler that ends is quiet, whatever else changes beside the service and the tracker. -/
theorem quiet_endHandler {s : Run P κ} {number : Nat} {result : Except ReplayError Unit}
    (hcompletion : s.completion = r.completion) (htracker : s.tracker = r.tracker)
    (hdispatched : s.dispatched = r.dispatched) (hhandlers : s.handlers = r.handlers)
    (hphase : s.phase = r.phase) (hoperations : s.operations = r.operations) :
    Quiet r (s.endHandler number result) :=
  Quiet.of_phase hcompletion htracker hdispatched
    (fun h hh => ⟨h, hhandlers ▸ List.mem_of_mem_filter hh, rfl⟩) hphase hoperations

/-- A handler that moves on to a phase is quiet, whatever else changes beside the service and the
tracker. -/
theorem quiet_setPhase {s : Run P κ} {number : Nat} {phase : HandlerPhase}
    (hcompletion : s.completion = r.completion) (htracker : s.tracker = r.tracker)
    (hdispatched : s.dispatched = r.dispatched) (hhandlers : s.handlers = r.handlers)
    (hphase : s.phase = r.phase) (hoperations : s.operations = r.operations) :
    Quiet r (s.setPhase number phase) := by
  refine Quiet.of_phase hcompletion htracker hdispatched (fun h' hh' => ?_) hphase hoperations
  obtain ⟨h, hh, rfl⟩ := List.mem_map.mp hh'
  refine ⟨h, hhandlers ▸ hh, ?_⟩
  split_ifs <;> rfl

/-- A handler that gets a worker is quiet. -/
theorem quiet_startCall {number : Nat} {now : Instant} (h : r.startCall number now = some r') :
    Quiet r r' := by
  unfold startCall at h
  split at h
  · split at h
    · obtain rfl := Option.some.inj h
      exact quiet_setPhase rfl rfl rfl rfl rfl rfl
    · simp at h
    · obtain rfl := Option.some.inj h
      exact quiet_endHandler rfl rfl rfl rfl rfl rfl
  · simp at h

/-- A handler that gets an answer is quiet. -/
theorem quiet_finishCall {number : Nat} {answer : CallAnswer} {elapsed : Duration}
    (h : r.finishCall number answer elapsed = some r') : Quiet r r' := by
  unfold finishCall at h
  split at h
  · dsimp only at h
    split at h
    · obtain rfl := Option.some.inj h
      exact quiet_endHandler rfl rfl rfl rfl rfl rfl
    · split_ifs at h
      · obtain rfl := Option.some.inj h
        exact quiet_setPhase rfl rfl rfl rfl rfl rfl
      · obtain rfl := Option.some.inj h
        exact quiet_endHandler rfl rfl rfl rfl rfl rfl
  · simp at h

/-- The operation that an event completes in the tracker, with its number: a handler sends its
record, there is room for it, and the operation is a tracked one that is pending. -/
def completion? (r : Run P κ) : RunEvent → Option (ScheduledOperation P × Nat)
  | .submit number =>
    match r.handler? number, r.tracker with
    | some ⟨n, scheduled, .submitting record⟩, some t =>
      match r.metrics.offer (.record record) with
      | .queued _ =>
        if scheduled.tracked = true ∧ scheduled.operation.scheduledStart ∈ t.pending
        then some (scheduled, n) else none
      | _ => none
    | _, _ => none
  | _ => none

/-- What a handler does that completes its operation in the tracker. -/
structure Completes (r r' : Run P κ) (h : Handler P) (t : CompletionTracker) : Prop where
  mem : h ∈ r.handlers
  tracked : h.scheduled.tracked = true
  tracker : r.tracker = some t
  call : ∃ answer t', r'.tracker = some t' ∧
    t.complete r.completion h.scheduled.operation.scheduledStart = (answer, t', r'.completion)
  /-- What the tracker answers is the result of the handler. -/
  finished : r'.finished =
    r.finished ++ [(t.complete r.completion h.scheduled.operation.scheduledStart).1]
  dispatched : r'.dispatched = r.dispatched
  phase : r'.phase = r.phase
  operations : r'.operations = r.operations
  /-- The handler ends. -/
  handlers : ∀ h' ∈ r'.handlers, h' ∈ r.handlers ∧ h'.number ≠ h.number

/-- A handler whose record is in the queue completes a tracked operation in the tracker. -/
theorem completes_settleHandler {h : Handler P} {t : CompletionTracker}
    {metrics : MetricsPipeline κ} {success : Bool} (hmem : h ∈ r.handlers)
    (htracked : h.scheduled.tracked = true) (htracker : r.tracker = some t) :
    Completes r ({ r with metrics := metrics }.settleHandler h success) h t := by
  have hfilter : ∀ h' ∈ r.handlers.filter (·.number ≠ h.number),
      h' ∈ r.handlers ∧ h'.number ≠ h.number := fun h' hh' => by
    obtain ⟨hh', hne⟩ := List.mem_filter.mp hh'
    exact ⟨hh', by simpa using hne⟩
  unfold settleHandler
  simp only [htracked, htracker]
  generalize hcall : t.complete r.completion h.scheduled.operation.scheduledStart = call
  obtain ⟨answer, t', service⟩ := call
  cases answer with
  | error e =>
    exact ⟨hmem, htracked, htracker, ⟨_, t', rfl, hcall⟩, by rw [hcall]; rfl, rfl, rfl, rfl,
      hfilter⟩
  | ok _ =>
    exact ⟨hmem, htracked, htracker, ⟨_, t', rfl, hcall⟩, by rw [hcall]; rfl, rfl, rfl, rfl,
      hfilter⟩

/-- A handler whose record is in the queue is quiet if its operation is not tracked, or if there is
no tracker. -/
theorem quiet_settleHandler {h : Handler P} {metrics : MetricsPipeline κ} {success : Bool}
    (hnone : h.scheduled.tracked = false ∨ r.tracker = none) :
    Quiet r ({ r with metrics := metrics }.settleHandler h success) := by
  unfold settleHandler
  rcases hnone with hnone | hnone
  · simp only [hnone]
    exact quiet_endHandler rfl rfl rfl rfl rfl rfl
  · cases htracked : h.scheduled.tracked <;> simp only [hnone] <;>
      exact quiet_endHandler rfl hnone.symm rfl rfl rfl rfl

/-- A handler that sends its record is quiet, or completes its operation in the tracker. -/
theorem sendRecord_cases {number : Nat} (h : r.sendRecord number = some r') :
    Quiet r r' ∧ r.completion? (.submit number) = none ∨
    ∃ h t, Completes r r' h t ∧ r.completion? (.submit number) =
      if h.scheduled.operation.scheduledStart ∈ t.pending then some h.job else none := by
  unfold sendRecord at h
  split at h
  · rename_i n scheduled record hhandler
    obtain ⟨hmem, hnumber⟩ := handler?_eq_some hhandler
    split at h
    · simp at h
    · rename_i hoffer
      obtain rfl := Option.some.inj h
      refine .inl ⟨quiet_endHandler rfl rfl rfl rfl rfl rfl, ?_⟩
      cases htracker : r.tracker <;> simp [completion?, hhandler, htracker, hoffer]
    · rename_i metrics hoffer
      obtain rfl := Option.some.inj h
      cases htracked : scheduled.tracked with
      | false =>
        refine .inl ⟨quiet_settleHandler (.inl htracked), ?_⟩
        cases htracker : r.tracker <;> simp [completion?, hhandler, htracker, hoffer, htracked]
      | true =>
        rcases Option.eq_none_or_eq_some r.tracker with htracker | ⟨t, htracker⟩
        · refine .inl ⟨quiet_settleHandler (.inr htracker), ?_⟩
          simp [completion?, hhandler, htracker]
        · refine .inr ⟨_, t, completes_settleHandler hmem htracked htracker, ?_⟩
          simp [completion?, hhandler, htracker, hoffer, htracked, Handler.job]
  · simp at h

/-- A step of the consumer of the metrics pipeline is quiet. -/
theorem quiet_consumeStep (h : r.consumeStep setup = some r') : Quiet r r' := by
  obtain ⟨⟨metrics, report⟩, -, rfl⟩ := Option.map_eq_some_iff.mp h
  exact Quiet.of_phase rfl rfl rfl (fun h hh => ⟨h, hh, rfl⟩) rfl rfl

end Handlers

/-! ## All events -/

section Events

variable {setup : RunSetup κ} {r r' : Run P κ}

/-- Another peer's slot is claimed, and it is not the slot of the tracker. -/
theorem isForeign_iff {k : Nat} : r.isForeign k = true ↔
    (∃ slot, r.completion.slots[k]? = some slot ∧ slot.claimed = true) ∧
      ∀ t, r.tracker = some t → k ≠ t.slot := by
  unfold isForeign
  rw [Bool.and_eq_true, Option.any_eq_true, Option.all_eq_true]
  refine and_congr Iff.rfl (forall_congr' fun t => imp_congr Iff.rfl ?_)
  rw [bne_iff_ne, ne_comm]

/-- What an event can do to a run, with the operation that it completes in the tracker. -/
inductive Turn (setup : RunSetup κ) (r : Run P κ) :
    Run P κ → Option (ScheduledOperation P × Nat) → Prop where
  | quiet {r' : Run P κ} (h : Quiet r r') : Turn setup r r' none
  | begin (h : r.phase = .idle) : Turn setup r (r.begin setup) none
  | dispatch {r' : Run P κ} {next : ScheduledOperation P} {batch : List (ScheduledOperation P)}
      (h : r.phase = .admitting next batch) (hd : Dispatches r r' next batch) : Turn setup r r' none
  /-- A handler completes its operation, if that is pending in the tracker. -/
  | complete {r' : Run P κ} {x : Handler P} {t : CompletionTracker} (h : Completes r r' x t) :
      Turn setup r r'
        (if x.scheduled.operation.scheduledStart ∈ t.pending then some x.job else none)
  /-- Another peer claims a slot. -/
  | claim {k : Nat} {s : CompletionService} (h : r.completion.claim = .ok (k, s)) :
      Turn setup r { r with completion := s } none
  /-- Another peer reports an initiated time. -/
  | initiated {k : Nat} {time : Instant} {s : CompletionService} (hforeign : r.isForeign k = true)
      (h : r.completion.reportInitiated k time = .ok s) :
      Turn setup r { r with completion := s } none
  /-- Another peer reports a completed time. -/
  | completed {k : Nat} {time : Instant} {s : CompletionService} (hforeign : r.isForeign k = true)
      (h : r.completion.reportCompleted k time = .ok s) :
      Turn setup r { r with completion := s } none
  | shutdown : Turn setup r { r with completion := r.completion.shutdown } none

/-- A step in which nothing changes is quiet. -/
theorem Quiet.refl (r : Run P κ) : Quiet r r :=
  Quiet.of_phase rfl rfl rfl (fun h hh => ⟨h, hh, rfl⟩) rfl rfl

/-- What a step of the scheduler can do. -/
theorem turn_of_scheduleStep {now : Instant} {expired : Bool}
    (hs : r.scheduleStep setup now expired = some r') : Turn setup r r' none := by
  unfold scheduleStep at hs
  split at hs
  case h_1 hphase =>
    obtain rfl := Option.some.inj hs
    exact .begin hphase
  case h_2 hphase => exact .quiet (quiet_awaitPeers hphase hs)
  case h_3 hphase =>
    obtain rfl := Option.some.inj hs
    exact .quiet (quiet_pull hphase)
  case h_4 first others hphase => exact .quiet (quiet_wake hphase hs)
  case h_5 batch hphase =>
    obtain rfl := Option.some.inj hs
    exact .quiet (quiet_choose hphase)
  case h_6 next batch hphase => exact .quiet (quiet_gate hphase hs)
  case h_7 next batch hphase =>
    obtain rfl := Option.some.inj hs
    exact .quiet (quiet_judge hphase)
  case h_8 next batch hphase => exact (dispatch_cases hs).elim .quiet (.dispatch hphase)
  case h_9 hphase => exact .quiet (quiet_drain hphase hs)
  all_goals simp at hs

/-- What an event can do. -/
theorem turn_of_step {e : RunEvent} (hs : r.step setup e = some r') :
    Turn setup r r' (r.completion? e) := by
  cases e with
  | schedule now expired => exact turn_of_scheduleStep hs
  | execute number now => exact .quiet (quiet_startCall hs)
  | answer number answer elapsed => exact .quiet (quiet_finishCall hs)
  | submit number =>
    rcases sendRecord_cases hs with ⟨hquiet, hc⟩ | ⟨x, t, hcompletes, hc⟩
    · rw [hc]
      exact .quiet hquiet
    · rw [hc]
      exact .complete hcompletes
  | consume => exact .quiet (quiet_consumeStep hs)
  | expire now => exact .quiet (quiet_expireDrain hs)
  | peerClaims =>
    obtain rfl := Option.some.inj hs
    -- A call that the service refuses leaves all as it is.
    cases hclaim : r.completion.claim with
    | error e => exact .quiet (Quiet.refl r)
    | ok claimed => exact .claim hclaim
  | peerInitiated k time =>
    simp only [step] at hs
    split_ifs at hs with hforeign
    obtain rfl := Option.some.inj hs
    cases hreport : r.completion.reportInitiated k time with
    | error e => exact .quiet (Quiet.refl r)
    | ok s => exact .initiated hforeign hreport
  | peerCompleted k time =>
    simp only [step] at hs
    split_ifs at hs with hforeign
    obtain rfl := Option.some.inj hs
    cases hreport : r.completion.reportCompleted k time with
    | error e => exact .quiet (Quiet.refl r)
    | ok s => exact .completed hforeign hreport
  | completionShutdown =>
    obtain rfl := Option.some.inj hs
    exact .shutdown
  | report source message =>
    obtain rfl := Option.some.inj hs
    exact .quiet (Quiet.of_phase rfl rfl rfl (fun h hh => ⟨h, hh, rfl⟩) rfl rfl)

/-- The beginning dispatches nothing. -/
theorem begin_dispatched (r : Run P κ) : (r.begin setup).dispatched = r.dispatched := by
  unfold begin launch seed
  dsimp only
  split_ifs
  · split <;> rfl
  · split
    · rfl
    · split
      · rfl
      · split
        · rfl
        · split
          · rfl
          · split <;> rfl

/-- What every event keeps holds in every state that events lead to. -/
theorem Reaches.invariant {motive : Run P κ → Prop}
    (hstep : ∀ {s s' : Run P κ} {e : RunEvent}, motive s → s.step setup e = some s' → motive s')
    (hr : r.Reaches setup r') (h : motive r) : motive r' := by
  obtain ⟨events, hs⟩ := hr
  induction events generalizing r with
  | nil => exact Option.some.inj hs ▸ h
  | cons e rest ih =>
    obtain ⟨s, he, hrest⟩ := Option.bind_eq_some_iff.mp hs
    exact ih (hstep h he) hrest

/-- Only an operation that is admitted is dispatched. -/
theorem Turn.admitting {c : Option (ScheduledOperation P × Nat)} {next : ScheduledOperation P}
    (h : Turn setup r r' c) (hpush : r'.dispatched = r.dispatched.push next) :
    ∃ batch, r.phase = .admitting next batch := by
  -- All turns but a dispatch leave what has been dispatched as it is.
  have hsame : r'.dispatched ≠ r.dispatched := fun heq => by
    have hsize := congrArg Array.size (hpush.symm.trans heq)
    rw [Array.size_push] at hsize
    omega
  cases h with
  | quiet hq => exact absurd hq.dispatched hsame
  | begin hphase => exact absurd (begin_dispatched r) hsame
  | dispatch hphase hd =>
    rename_i next' batch
    have heq := hd.dispatched.symm.trans hpush
    rw [Array.push_eq_push] at heq
    exact ⟨batch, heq.1 ▸ hphase⟩
  | complete hc => exact absurd hc.dispatched hsame
  | claim => exact absurd rfl hsame
  | initiated => exact absurd rfl hsame
  | completed => exact absurd rfl hsame
  | shutdown => exact absurd rfl hsame

end Events

end Run

end WorkloadReplay
