import WorkloadReplay.Proofs.Run.Breakdowns
import WorkloadReplay.Proofs.Run.Dispatching
import WorkloadReplay.Proofs.Run.Permits
import WorkloadReplay.Run.Aborting

/-!
# The bounds of a run whose handlers are aborted one by one

A permit belongs to a handler, and a handler that is dropped gives its permits back. So the sums of
permits stay the same during the abort as well (`AbortingRun.Bounded`): no more handlers are alive
than may be, and all permits are free when the handlers are gone.

A call of the database outlives its handler, though, while its permit to be executed is free. The
handlers go one by one, and one that still waits for a worker can take that permit and call the
database beside the call that has been left behind. So more calls can go on than operations may be
executed at once (`calls_exceed_workers`). `permits_conserved` says when they do: when permits of
dropped handlers are taken again while the calls of these handlers go on.

Where everything happens on one thread, nothing comes between the first and the last drop. Runs with
such an abort are among these runs (`steps_of_run`), and no more calls go on in them than may be
executed at once (`callsInProgress_le_of_run`).
-/

namespace WorkloadReplay

variable {P κ : Type}

/-- Once the scheduler has stopped, no operation gets a handler any more. -/
theorem Run.handlers_le_of_step {setup : RunSetup κ} {r r' : Run P κ}
    (hstopped : r.phase.held? = none) {e : RunEvent} (hs : r.step setup e = some r') :
    r'.handlers.length ≤ r.handlers.length := by
  have hdispatched : r'.dispatched = r.dispatched :=
    (dispatched_of_step hs).resolve_right fun hheld => hheld.1 hstopped
  rcases numbers_of_tally (tally_of_step hs) with ⟨-, hsublist⟩ | ⟨hsize, -⟩
  · simpa using hsublist.length_le
  · rw [hdispatched] at hsize
    omega

namespace AbortingRun

/-! ## What an event does -/

section Steps

variable {setup : RunSetup κ} {a a' : AbortingRun P κ}

/-- An event that is not the work of the abort is one of the run, and no step of the scheduler while
handlers are aborted; or the abort begins, or the run ends without one. -/
theorem step_event {e : RunEvent} (hs : a.step setup (.event e) = some a') :
    (∃ r, a.run.step setup e = some r ∧ a' = { a with run := r } ∧
      (∀ now, e ≠ .expire now) ∧ (a.aborting = true → ∀ now expired, e ≠ .schedule now expired)) ∨
    ∃ now, e = .expire now ∧ a.aborting = false ∧ a.run.phase = .draining ∧
      (a' = ⟨a.run.reap.terminate now, false⟩ ∨ a' = ⟨a.run.reap, true⟩) := by
  cases e with
  | expire now =>
    simp only [step] at hs
    split_ifs at hs with haborting
    have hnot : a.aborting = false := Bool.eq_false_iff.mpr haborting
    unfold expire at hs
    split at hs
    · rename_i hdraining
      refine .inr ⟨now, rfl, hnot, hdraining, ?_⟩
      obtain rfl := Option.some.inj hs
      split_ifs
      · exact .inl (by rw [hnot])
      · exact .inr rfl
    · simp at hs
  | schedule now expired =>
    simp only [step] at hs
    split_ifs at hs with haborting
    obtain ⟨r, hr, rfl⟩ := Option.map_eq_some_iff.mp hs
    exact .inl ⟨r, hr, rfl, by simp, fun hover => absurd hover haborting⟩
  | _ =>
    simp only [step] at hs
    obtain ⟨r, hr, rfl⟩ := Option.map_eq_some_iff.mp hs
    exact .inl ⟨r, hr, rfl, by simp, by simp⟩

/-- A handler is dropped while handlers are aborted, and its permits are free again. -/
theorem step_drop {number : Nat} (hs : a.step setup (.drop number) = some a') :
    a.aborting = true ∧ ∃ r, a.run.dropHandler number = some r ∧ a' = { a with run := r } := by
  simp only [step] at hs
  split_ifs at hs with haborting
  obtain ⟨r, hr, rfl⟩ := Option.map_eq_some_iff.mp hs
  exact ⟨haborting, r, hr, rfl⟩

/-- A call comes back whose handler is gone. -/
theorem step_orphanReturns (hs : a.step setup .orphanReturns = some a') :
    a' = { a with run := { a.run with orphanedCalls := a.run.orphanedCalls - 1 } } := by
  obtain ⟨r, hr, rfl⟩ := Option.map_eq_some_iff.mp hs
  unfold Run.orphanReturns at hr
  split_ifs at hr
  rw [← Option.some.inj hr]

/-- The scheduler is done with the abort. -/
theorem step_conclude {now : Instant} (hs : a.step setup (.conclude now) = some a') :
    a.aborting = true ∧ a.run.phase = .draining ∧
      a' = { a with run := (a.run.listAbandoned setup).terminate now } := by
  simp only [step, conclude] at hs
  split_ifs at hs with haborting
  split at hs
  · rename_i hdraining
    exact ⟨haborting, hdraining, (Option.some.inj hs).symm⟩
  · simp at hs

end Steps

/-! ## All permits -/

/-- The permits of a run whose pools were made as `flow`, and the calls whose handlers are gone.
There are some only once handlers are aborted, when no operation gets a handler any more. -/
structure Bounded (flow : FlowControl) (a : AbortingRun P κ) : Prop where
  balanced : a.run.Balanced flow
  orphans : a.aborting = false → a.run.orphanedCalls = 0
  stopped : a.aborting = true → a.run.phase.held? = none
  left : a.run.handlers.length + a.run.orphanedCalls ≤ flow.inFlight.free

/-- The permits of a run in any state. -/
def HoldsPermits (setup : RunSetup κ) (a : AbortingRun P κ) : Prop :=
  a.aborting = false ∧ a.run.Unpooled setup ∨
    ∃ flow, setup.config.flowControl = .ok flow ∧ Bounded flow a

/-- There is a free permit for each call whose handler is gone. -/
def Covered (a : AbortingRun P κ) : Prop := a.run.orphanedCalls ≤ a.run.flow.workers.free

section Invariant

variable {setup : RunSetup κ} {a a' : AbortingRun P κ} {flow : FlowControl}

/-- No calls have lost their handlers before handlers are aborted. -/
theorem HoldsPermits.orphans (h : HoldsPermits setup a) (hnot : a.aborting = false) :
    a.run.orphanedCalls = 0 := by
  rcases h with ⟨-, hunpooled⟩ | ⟨flow, -, hbounded⟩
  · exact hunpooled.orphans
  · exact hbounded.orphans hnot

/-- Pools that have just been made. -/
theorem Bounded.of_balanced {r : Run P κ} (h : r.Balanced flow) (horphans : r.orphanedCalls = 0) :
    Bounded flow ⟨r, false⟩ := by
  have halive := h.alive
  refine ⟨h, fun _ => horphans, by simp, ?_⟩
  show r.handlers.length + r.orphanedCalls ≤ flow.inFlight.free
  omega

/-- An event that is not the work of the abort leaves calls without handlers alone. It brings about
a handler only where there are no such calls. -/
theorem Bounded.event (h : Bounded flow a) {e : RunEvent} {r : Run P κ}
    (hnot : ∀ now, e ≠ .expire now) (hs : a.run.step setup e = some r) :
    Bounded flow { a with run := r } := by
  have hbalanced := h.balanced.step hnot hs
  have hconserves := Run.conserves_of_step h.balanced.begun h.balanced.numbered.nodup hnot hs
  refine ⟨hbalanced, fun hquiet => hconserves.orphans.trans (h.orphans hquiet),
    fun haborting => Run.over_of_step (h.stopped haborting) hs, ?_⟩
  have hleft := h.left
  have halive := hbalanced.alive
  have horphans := hconserves.orphans
  show r.handlers.length + r.orphanedCalls ≤ flow.inFlight.free
  cases haborting : a.aborting with
  | false =>
    have hnone := h.orphans haborting
    omega
  | true =>
    have hfewer := Run.handlers_le_of_step (h.stopped haborting) hs
    omega

/-- A handler that is dropped gives its permits back; its call, if there is one, takes its place. -/
theorem Bounded.drop (h : Bounded flow a) (haborting : a.aborting = true) {number : Nat}
    {r : Run P κ} (hs : a.run.dropHandler number = some r) : Bounded flow { a with run := r } := by
  obtain ⟨x, hhandler, rfl⟩ := Option.map_eq_some_iff.mp hs
  obtain ⟨rfl, hx⟩ := Run.handler?_number hhandler
  have hnodup := h.balanced.numbered.nodup
  have hlength := (Run.cons_filter_perm hnodup (Run.handler?_eq_some hx).1).length_eq
  have hcount :=
    (Run.cons_filter_perm hnodup (Run.handler?_eq_some hx).1).countP_eq Handler.isExecuting
  rw [List.length_cons] at hlength
  rw [List.countP_cons] at hcount
  have halive := h.balanced.alive
  have hexecuting := h.balanced.executing
  have hleft := h.left
  refine ⟨⟨h.balanced.begun, ?_, ?_, ?_⟩, fun hquiet => ?_, h.stopped, ?_⟩
  · exact h.balanced.numbered.of_sublist rfl (List.filter_sublist.map _)
  · simp only [FlowControl.releaseAll, PermitPool.releaseAll]
    omega
  · simp only [FlowControl.releaseAll, PermitPool.releaseAll]
    omega
  · simp [haborting] at hquiet
  · dsimp only
    split_ifs <;> omega

/-- When the time for draining is over, no permit has changed hands. -/
theorem Bounded.expire (h : Bounded flow a) (hnot : a.aborting = false)
    (hdraining : a.run.phase = .draining) (now : Instant) :
    Bounded flow ⟨a.run.reap.terminate now, false⟩ ∧ Bounded flow ⟨a.run.reap, true⟩ := by
  obtain ⟨⟨hbegun, hnumbered, halive, hexecuting⟩, horphans, -, hleft⟩ := h
  constructor
  · exact ⟨⟨trivial, hnumbered, halive, hexecuting⟩, fun _ => horphans hnot, by simp, hleft⟩
  · refine ⟨⟨hbegun, hnumbered, halive, hexecuting⟩, by simp, fun _ => ?_, hleft⟩
    show a.run.phase.held? = none
    rw [hdraining, SchedulerPhase.held?]

/-- A call that comes back without a handler has no permit. -/
theorem Bounded.orphanReturns (h : Bounded flow a) :
    Bounded flow { a with run := { a.run with orphanedCalls := a.run.orphanedCalls - 1 } } := by
  obtain ⟨⟨hbegun, hnumbered, halive, hexecuting⟩, horphans, hstopped, hleft⟩ := h
  refine ⟨⟨hbegun, hnumbered, halive, hexecuting⟩, fun hquiet => ?_, hstopped, ?_⟩
  · show a.run.orphanedCalls - 1 = 0
    rw [horphans hquiet]
  · show a.run.handlers.length + (a.run.orphanedCalls - 1) ≤ flow.inFlight.free
    omega

/-- The end of the abort closes the pools, with the permits that they have. -/
theorem Bounded.conclude (h : Bounded flow a) (now : Instant) :
    Bounded flow { a with run := (a.run.listAbandoned setup).terminate now } := by
  obtain ⟨⟨-, hnumbered, halive, hexecuting⟩, horphans, -, hleft⟩ := h
  exact ⟨⟨trivial, hnumbered, halive, hexecuting⟩, horphans, fun _ => rfl, hleft⟩

/-- Every event keeps the permits bounded. -/
theorem HoldsPermits.step (h : HoldsPermits setup a) {e : AbortingEvent}
    (hs : a.step setup e = some a') : HoldsPermits setup a' := by
  rcases h with ⟨hquiet, hunpooled⟩ | ⟨flow, hflow, hbounded⟩
  · -- Where there are no pools, there is nothing to abort.
    cases e with
    | event e =>
      rcases step_event hs with ⟨r, hr, rfl, -, -⟩ | ⟨now, -, -, hdraining, -⟩
      · rcases hunpooled.step hr with hstays | ⟨flow, hflow, hbalanced, horphans⟩
        · exact .inl ⟨hquiet, hstays⟩
        · exact .inr ⟨flow, hflow, hquiet ▸ .of_balanced hbalanced horphans⟩
      · have hphase := hunpooled.phase
        simp [Run.HasBegun, hdraining] at hphase
    | drop number => exact absurd (hquiet.symm.trans (step_drop hs).1) Bool.false_ne_true
    | orphanReturns =>
      obtain rfl := step_orphanReturns hs
      refine .inl ⟨hquiet, hunpooled.handlers, ?_, hunpooled.phase⟩
      show a.run.orphanedCalls - 1 = 0
      rw [hunpooled.orphans]
    | conclude now => exact absurd (hquiet.symm.trans (step_conclude hs).1) Bool.false_ne_true
  · refine .inr ⟨flow, hflow, ?_⟩
    cases e with
    | event e =>
      rcases step_event hs with ⟨r, hr, rfl, hnot, -⟩ | ⟨now, -, hnot, hdraining, rfl | rfl⟩
      · exact hbounded.event hnot hr
      · exact (hbounded.expire hnot hdraining now).1
      · exact (hbounded.expire hnot hdraining now).2
    | drop number =>
      obtain ⟨haborting, r, hr, rfl⟩ := step_drop hs
      exact hbounded.drop haborting hr
    | orphanReturns => exact step_orphanReturns hs ▸ hbounded.orphanReturns
    | conclude now =>
      obtain ⟨-, -, rfl⟩ := step_conclude hs
      exact hbounded.conclude now

/-- The permits of a run that has had some events. -/
theorem HoldsPermits.steps (h : HoldsPermits setup a) {events : List AbortingEvent}
    (hs : a.steps setup events = some a') : HoldsPermits setup a' := by
  induction events generalizing a with
  | nil => exact Option.some.inj hs ▸ h
  | cons e rest ih =>
    obtain ⟨s, hstep, hrest⟩ := Option.bind_eq_some_iff.mp hs
    exact ih (h.step hstep) hrest

/-! ## The calls of dropped handlers -/

/-- An event that is not the work of the abort leaves calls without handlers alone. -/
theorem HoldsPermits.orphanedCalls_of_event (h : HoldsPermits setup a) {e : RunEvent} {r : Run P κ}
    (hnot : ∀ now, e ≠ .expire now) (hs : a.run.step setup e = some r) :
    r.orphanedCalls = a.run.orphanedCalls := by
  rcases h with ⟨-, hunpooled⟩ | ⟨flow, -, hbounded⟩
  · rw [hunpooled.orphans]
    rcases hunpooled.step hs with hstays | ⟨flow, -, -, horphans⟩
    · exact hstays.orphans
    · exact horphans
  · have hbalanced := hbounded.balanced
    exact (Run.conserves_of_step hbalanced.begun hbalanced.numbered.nodup hnot hs).orphans

/-- The permits of dropped handlers stay free, unless a handler asks for a worker. -/
theorem Covered.step (h : Covered a) (hpermits : HoldsPermits setup a) {e : AbortingEvent}
    (hs : a.step setup e = some a')
    (hquiet : a.run.orphanedCalls = 0 ∨ e.startsCall = false) : Covered a' := by
  unfold Covered at h ⊢
  cases e with
  | event e =>
    rcases step_event hs with ⟨r, hr, rfl, hnot, hschedule⟩ | ⟨now, rfl, hnot, -, ha'⟩
    · have horphans := hpermits.orphanedCalls_of_event hnot hr
      show r.orphanedCalls ≤ r.flow.workers.free
      rcases hquiet with hnone | hnocall
      · omega
      · cases haborting : a.aborting with
        | false =>
          have hnone := hpermits.orphans haborting
          omega
        | true =>
          have hworkers := Run.workers_le_of_step (hschedule haborting) hnot
            (fun number now he => by simp [he, AbortingEvent.startsCall] at hnocall) hr
          omega
    · have hnone := hpermits.orphans hnot
      have hsame : a'.run.orphanedCalls = a.run.orphanedCalls := by
        rcases ha' with rfl | rfl <;> rfl
      omega
  | drop number =>
    obtain ⟨-, r, hr, rfl⟩ := step_drop hs
    obtain ⟨x, -, rfl⟩ := Option.map_eq_some_iff.mp hr
    -- The permit and the call are counted together.
    simp only [FlowControl.releaseAll, PermitPool.releaseAll]
    omega
  | orphanReturns =>
    obtain rfl := step_orphanReturns hs
    show a.run.orphanedCalls - 1 ≤ a.run.flow.workers.free
    omega
  | conclude now =>
    obtain ⟨-, -, rfl⟩ := step_conclude hs
    exact h

/-- Only the drop of a handler leaves a call without one. -/
theorem HoldsPermits.orphanedCalls_le (hpermits : HoldsPermits setup a) {e : AbortingEvent}
    (hdrop : e.isDrop = false) (hs : a.step setup e = some a') :
    a'.run.orphanedCalls ≤ a.run.orphanedCalls := by
  cases e with
  | event e =>
    rcases step_event hs with ⟨r, hr, rfl, hnot, -⟩ | ⟨now, -, -, -, rfl | rfl⟩
    · exact (hpermits.orphanedCalls_of_event hnot hr).le
    · exact le_refl a.run.orphanedCalls
    · exact le_refl a.run.orphanedCalls
  | drop number => simp [AbortingEvent.isDrop] at hdrop
  | orphanReturns =>
    obtain rfl := step_orphanReturns hs
    exact Nat.sub_le _ _
  | conclude now =>
    obtain ⟨-, -, rfl⟩ := step_conclude hs
    exact le_refl a.run.orphanedCalls

/-- The permits of dropped handlers stay free if no handler asks for a worker after a drop. -/
theorem Covered.steps (h : Covered a) (hpermits : HoldsPermits setup a)
    {events : List AbortingEvent}
    (hquiet : a.run.orphanedCalls = 0 ∨ ∀ e ∈ events, e.startsCall = false)
    (hpairs : events.Pairwise fun e e' => e.isDrop = true → e'.startsCall = false)
    (hs : a.steps setup events = some a') : Covered a' := by
  induction events generalizing a with
  | nil => exact Option.some.inj hs ▸ h
  | cons e rest ih =>
    obtain ⟨s, hstep, hrest⟩ := Option.bind_eq_some_iff.mp hs
    obtain ⟨hafter, hpairs⟩ := List.pairwise_cons.mp hpairs
    refine ih (h.step hpermits hstep ?_) (hpermits.step hstep) ?_ hpairs hrest
    · exact hquiet.imp_right fun hnocall => hnocall e List.mem_cons_self
    · cases hdrop : e.isDrop with
      | true => exact .inr fun e' he' => hafter e' he' hdrop
      | false =>
        refine hquiet.imp (fun hnone => ?_) fun hnocall e' he' =>
          hnocall e' (List.mem_cons_of_mem _ he')
        exact Nat.le_zero.mp (hnone ▸ hpermits.orphanedCalls_le hdrop hstep)

/-- There are no more calls than may be executed at once exactly if there is a free permit for each
call that has been left behind. -/
theorem HoldsPermits.callsInProgress_le_iff (h : HoldsPermits setup a) :
    a.run.callsInProgress ≤ max 1 setup.config.threadCount ↔ Covered a := by
  unfold Run.callsInProgress Covered
  rcases h with ⟨-, hunpooled⟩ | ⟨flow, hflow, hbounded⟩
  · simp [hunpooled.handlers, hunpooled.orphans]
  · have hexecuting := hbounded.balanced.executing
    rw [(RunnerConfig.free_of_flowControl hflow).2] at hexecuting
    omega

end Invariant

section Fresh

variable (setup : RunSetup κ) (operations : Schedule P) (completion : CompletionService)
  (metrics : MetricsPipeline κ) (log : ErrorLog)

/-- The permits of a run before it begins: there are none. -/
theorem holdsPermits_fresh : HoldsPermits setup (fresh operations completion metrics log) :=
  .inl ⟨rfl, rfl, rfl, .inl not_false⟩

/-- No more calls go on than may be executed at once if no handler asks for a worker after a
drop. -/
theorem callsInProgress_le {events : List AbortingEvent} {a : AbortingRun P κ}
    (hpairs : events.Pairwise fun e e' => e.isDrop = true → e'.startsCall = false)
    (hs : (fresh operations completion metrics log).steps setup events = some a) :
    a.run.callsInProgress ≤ max 1 setup.config.threadCount := by
  have hfresh := holdsPermits_fresh setup operations completion metrics log
  have hcovered : Covered (fresh operations completion metrics log) := Nat.zero_le _
  exact (hfresh.steps hs).callsInProgress_le_iff.mpr (hcovered.steps hfresh (.inl rfl) hpairs hs)

/-- The bounds of a run whose handlers are aborted one by one, and its permits, in every state. No
more handlers are alive than may be, even with the calls that dropped handlers have left behind, and
no more handlers are executing than may be. No more calls go on than may be executed at once exactly
if there is a free permit for each call that has been left behind, and so always if no handler asks
for a worker after a drop. And whenever the run proper has begun with pools as large as they are
asked to be, and the handlers of all operations dispatched so far are gone, in whatever ways, all
permits of both pools are free. -/
theorem permits_conserved (events : List AbortingEvent) (a : AbortingRun P κ)
    (hs : (fresh operations completion metrics log).steps setup events = some a) :
    a.run.handlers.length + a.run.orphanedCalls ≤ max 1 setup.config.maxInFlight ∧
    a.run.handlers.countP Handler.isExecuting ≤ max 1 setup.config.threadCount ∧
    (a.run.callsInProgress ≤ max 1 setup.config.threadCount ↔
      a.run.orphanedCalls ≤ a.run.flow.workers.free) ∧
    (events.Pairwise (fun e e' => e.isDrop = true → e'.startsCall = false) →
      a.run.callsInProgress ≤ max 1 setup.config.threadCount) ∧
    (¬ setup.config.Overasks → a.run.HasBegun → a.run.handlers = [] →
      a.run.flow.inFlight.free = max 1 setup.config.maxInFlight ∧
      a.run.flow.workers.free = max 1 setup.config.threadCount) := by
  have hpermits := (holdsPermits_fresh setup operations completion metrics log).steps hs
  have hiff := hpermits.callsInProgress_le_iff
  have hcalls := fun hpairs => callsInProgress_le setup operations completion metrics log hpairs hs
  rcases hpermits with ⟨-, hunpooled⟩ | ⟨flow, hflow, hbounded⟩
  · -- Without pools there are no handlers and no calls.
    refine ⟨by simp [hunpooled.handlers, hunpooled.orphans], by simp [hunpooled.handlers], hiff,
      hcalls, fun hpools hbegun _ => ?_⟩
    rcases hunpooled.phase with hnot | ⟨⟨text, herror⟩, -⟩
    · exact absurd hbegun hnot
    · exact absurd (RunnerConfig.flowControl_eq_error.mp herror).1 hpools
  · obtain ⟨hinFlight, hworkers⟩ := RunnerConfig.free_of_flowControl hflow
    have halive := hbounded.balanced.alive
    have hexecuting := hbounded.balanced.executing
    rw [hinFlight] at halive
    rw [hworkers] at hexecuting
    refine ⟨hinFlight ▸ hbounded.left, by omega, hiff, hcalls, fun _ _ hnone => ?_⟩
    rw [hnone, List.length_nil] at halive
    rw [hnone, List.countP_nil] at hexecuting
    exact ⟨halive, hexecuting⟩

end Fresh

/-- One worker, and no other peers. -/
def narrowSetup : RunSetup Unit :=
  { Run.soloSetup with config := { threadCount := 1, ignoreScheduledStarts := true } }

/-- Two operations are dispatched, and the database executes the first one when the time for
draining is over. The first handler is dropped before the second one. -/
def untilDrop (afterwards : List AbortingEvent) : List AbortingEvent :=
  List.replicate 12 (.event (.schedule narrowSetup.start false)) ++
    [.event (.execute 0 narrowSetup.start), .event Run.expiry, .drop 0] ++ afterwards

/-- Where both handlers are dropped one after the other, one call goes on and all permits are
free. -/
theorem permits_conserved_dropped :
    ∃ a, (⟨Run.soloRun, false⟩ : AbortingRun Unit Unit).steps narrowSetup (untilDrop [.drop 1]) =
        some a ∧
      a.run.dispatched.size = 2 ∧ a.run.orphanedCalls = 1 ∧ a.run.callsInProgress ≤ 1 ∧
      a.run.flow.inFlight.free = 100 ∧ a.run.flow.workers.free = 1 := by
  have hrun : ((⟨Run.soloRun, false⟩ : AbortingRun Unit Unit).steps narrowSetup
      (untilDrop [.drop 1])).map (fun a => decide (a.run.dispatched.size = 2 ∧
        a.run.orphanedCalls = 1 ∧ a.run.handlers.isEmpty = true ∧
        a.run.phase.runnerState = .draining)) = some true := by
    decide +kernel
  have hpairs : (untilDrop [.drop 1]).Pairwise
      fun e e' => e.isDrop = true → e'.startsCall = false := by
    decide +kernel
  obtain ⟨a, ha, hfacts⟩ := Option.map_eq_some_iff.mp hrun
  obtain ⟨hsize, horphans, hempty, hdraining⟩ := of_decide_eq_true hfacts
  have hbegun : a.run.HasBegun := by
    unfold Run.HasBegun
    cases hphase : a.run.phase <;> simp_all [SchedulerPhase.runnerState]
  obtain ⟨-, -, -, hcalls, hfree⟩ :=
    permits_conserved narrowSetup _ _ _ _ (untilDrop [.drop 1]) a ha
  exact ⟨a, ha, hsize, horphans, hcalls hpairs,
    hfree (by decide) hbegun (List.isEmpty_iff.mp hempty)⟩

/-- Where the second handler gets the worker of the first one before it is dropped itself, two calls
go on, although only one operation may be executed at once. And where more operations may be alive
than a pool has permits, there are no pools to bound them. -/
theorem calls_exceed_workers :
    (∃ a, (⟨Run.soloRun, false⟩ : AbortingRun Unit Unit).steps narrowSetup
        (untilDrop [.event (.execute 1 narrowSetup.start)]) = some a ∧
      a.run.callsInProgress = 2 ∧ max 1 narrowSetup.config.threadCount = 1) ∧
    ∃ text, ({ maxInFlight := 0x2000000000000000 } : RunnerConfig).flowControl = .error text := by
  have hrun : ((⟨Run.soloRun, false⟩ : AbortingRun Unit Unit).steps narrowSetup
      (untilDrop [.event (.execute 1 narrowSetup.start)])).map (fun a =>
        decide (a.run.callsInProgress = 2)) = some true := by
    decide +kernel
  obtain ⟨a, ha, hcalls⟩ := Option.map_eq_some_iff.mp hrun
  exact ⟨⟨a, ha, of_decide_eq_true hcalls, rfl⟩,
    _, RunnerConfig.flowControl_eq_error.mpr ⟨by decide, rfl⟩⟩

/-! ## Runs whose abort is one step -/

section Refinement

variable {setup : RunSetup κ}

/-- Events one after another. -/
theorem steps_append (a : AbortingRun P κ) (first second : List AbortingEvent) :
    a.steps setup (first ++ second) = (a.steps setup first).bind fun a => a.steps setup second := by
  induction first generalizing a with
  | nil => rfl
  | cons e rest ih =>
    simp only [List.cons_append, steps, Option.bind_assoc]
    exact congrArg _ (funext fun a => ih a)

/-- All handlers that are left, dropped in the order of their dispatch. -/
theorem steps_drop {r : Run P κ} (hnodup : (r.handlers.map (·.number)).Nodup) :
    (⟨r, true⟩ : AbortingRun P κ).steps setup (r.handlers.map fun h => .drop h.number) =
      some ⟨{ r with
        handlers := []
        flow := r.flow.releaseAll r.handlers.length (r.handlers.countP Handler.isExecuting)
        orphanedCalls := r.callsInProgress }, true⟩ := by
  unfold Run.callsInProgress
  generalize hhandlers : r.handlers = handlers at hnodup
  induction handlers generalizing r with
  | nil =>
    obtain ⟨⟩ := r
    simp_all [steps, FlowControl.releaseAll, PermitPool.releaseAll]
  | cons x rest ih =>
    rw [List.map_cons, List.nodup_cons] at hnodup
    obtain ⟨hnot, hrest⟩ := hnodup
    have hothers : r.handlers.filter (·.number ≠ x.number) = rest := by
      rw [hhandlers, List.filter_cons_of_neg (by simp)]
      refine List.filter_eq_self.mpr fun y hy => ?_
      have hne : y.number ≠ x.number := fun heq => hnot (heq ▸ List.mem_map_of_mem hy)
      simpa using hne
    have hfirst : r.handler? x.number = some x := by
      unfold Run.handler?
      rw [hhandlers, List.find?_cons_of_pos (by simp)]
    -- The permits of the first handler and those of the others are the permits of all.
    have hstep : (⟨r, true⟩ : AbortingRun P κ).step setup (.drop x.number) = some ⟨{ r with
        handlers := rest
        flow := r.flow.releaseAll 1 (if x.isExecuting then 1 else 0)
        orphanedCalls := r.orphanedCalls + if x.isExecuting then 1 else 0 }, true⟩ := by
      simp only [step, Run.dropHandler, hfirst, hothers, Option.map_some, if_true]
    rw [List.map_cons, steps, hstep, Option.bind_some, ih rfl hrest]
    simp only [FlowControl.releaseAll, PermitPool.releaseAll, List.length_cons, List.countP_cons,
      Nat.add_assoc, Nat.add_comm, Nat.add_left_comm]

/-- An event of a run that has nothing to do with the end of draining. -/
theorem step_event_eq {r r' : Run P κ} {aborting : Bool} {e : RunEvent}
    (hexpire : ∀ now, e ≠ .expire now)
    (hschedule : aborting = true → ∀ now expired, e ≠ .schedule now expired)
    (hs : r.step setup e = some r') :
    (⟨r, aborting⟩ : AbortingRun P κ).step setup (.event e) = some ⟨r', aborting⟩ := by
  cases e with
  | expire now => exact absurd rfl (hexpire now)
  | schedule now expired =>
    have hnot : aborting = false :=
      Bool.eq_false_iff.mpr fun haborting => hschedule haborting now expired rfl
    simp [step, hs, hnot]
  | _ => simp [step, hs]

/-- What the events of a run with such an abort are like: no handler asks for a worker after a drop,
and none does at all once handlers are aborted. -/
structure Undisturbed (aborting : Bool) (events : List AbortingEvent) (aborting' : Bool) :
    Prop where
  pairs : events.Pairwise fun e e' => e.isDrop = true → e'.startsCall = false
  quiet : aborting = true → ∀ e ∈ events, e.startsCall = false
  undropped : aborting' = false → ∀ e ∈ events, e.isDrop = false
  stays : aborting = true → aborting' = true

/-- Such events one after another. -/
theorem Undisturbed.append {aborting aborting₁ aborting' : Bool}
    {first second : List AbortingEvent} (h : Undisturbed aborting first aborting₁)
    (h' : Undisturbed aborting₁ second aborting') :
    Undisturbed aborting (first ++ second) aborting' where
  pairs := by
    refine List.pairwise_append.mpr ⟨h.pairs, h'.pairs, fun e he e' he' hdrop => ?_⟩
    refine h'.quiet (Bool.eq_true_of_not_eq_false fun hnot => ?_) e' he'
    exact absurd hdrop (by simp [h.undropped hnot e he])
  quiet haborting e he := (List.mem_append.mp he).elim (h.quiet haborting e)
    (h'.quiet (h.stays haborting) e)
  undropped hnot e he := by
    have hnot₁ : aborting₁ = false :=
      Bool.eq_false_iff.mpr fun haborting => by simp [h'.stays haborting] at hnot
    exact (List.mem_append.mp he).elim (h.undropped hnot₁ e) (h'.undropped hnot e)
  stays haborting := h'.stays (h.stays haborting)

/-- The end of draining in one step: all handlers that are left are dropped with nothing between the
first and the last of them. -/
theorem steps_expireDrain {r r' : Run P κ} (hnumbered : r.Numbered) {now : Instant}
    (hs : r.expireDrain setup now = some r') : ∃ events aborting,
      (⟨r, false⟩ : AbortingRun P κ).steps setup events = some ⟨r', aborting⟩ ∧
      Undisturbed false events aborting ∧
      (aborting = true → r'.phase.IsTerminated ∧ r'.handlers = []) := by
  unfold Run.expireDrain at hs
  split at hs
  · rename_i hdraining
    obtain rfl := Option.some.inj hs
    split_ifs with hempty
    · refine ⟨[.event (.expire now)], false, ?_, ?_, by simp⟩
      · simp [steps, step, expire, hdraining, hempty]
      · exact ⟨List.pairwise_singleton _ _, by simp, by simp [AbortingEvent.isDrop], by simp⟩
    · have hexpire : (⟨r, false⟩ : AbortingRun P κ).step setup (.event (.expire now)) =
          some ⟨r.reap, true⟩ := by
        simp [step, expire, hdraining, hempty]
      have hphase : r.reap.phase = .draining := hdraining
      refine ⟨.event (.expire now) ::
        (r.reap.handlers.map (fun h => .drop h.number) ++ [.conclude now]), true, ?_, ?_,
        fun _ => ⟨⟨now, rfl⟩, rfl⟩⟩
      · rw [steps, hexpire, Option.bind_some, steps_append,
          steps_drop (r := r.reap) hnumbered.nodup, Option.bind_some]
        simp only [steps, step, conclude, hphase, if_true, Option.bind_some]
        rfl
      · refine ⟨List.pairwise_of_forall_mem_list fun e _ e' he' _ => ?_, by simp, by simp, by simp⟩
        have hcases : e' = .event (.expire now) ∨ (∃ h ∈ r.reap.handlers, .drop h.number = e') ∨
            e' = .conclude now := by
          simpa using he'
        rcases hcases with rfl | ⟨h, -, rfl⟩ | rfl <;> rfl
  · simp at hs

/-- A step of a run whose abort is one step. -/
theorem steps_of_step {r r' : Run P κ} {aborting : Bool} (hnumbered : r.Numbered)
    (hover : aborting = true → r.phase.IsTerminated ∧ r.handlers = []) {e : RunEvent}
    (hs : r.step setup e = some r') : ∃ events aborting',
      (⟨r, aborting⟩ : AbortingRun P κ).steps setup events = some ⟨r', aborting'⟩ ∧
      Undisturbed aborting events aborting' ∧
      (aborting' = true → r'.phase.IsTerminated ∧ r'.handlers = []) := by
  by_cases hexpire : ∃ now, e = .expire now
  · obtain ⟨now, rfl⟩ := hexpire
    -- Only a scheduler that drains has come to the end of the time for it.
    have hnot : aborting = false := by
      refine Bool.eq_false_iff.mpr fun haborting => ?_
      obtain ⟨⟨finish, hphase⟩, -⟩ := hover haborting
      simp [Run.step, Run.expireDrain, hphase] at hs
    subst hnot
    exact steps_expireDrain hnumbered hs
  · have hschedule : aborting = true → ∀ now expired, e ≠ .schedule now expired := by
      rintro haborting now expired rfl
      obtain ⟨⟨finish, hphase⟩, -⟩ := hover haborting
      simp [Run.step, Run.scheduleStep, hphase] at hs
    have hstep := step_event_eq (fun now he => hexpire ⟨now, he⟩) hschedule hs
    refine ⟨[.event e], aborting, by rw [steps, hstep]; rfl, ?_, fun haborting => ?_⟩
    · refine ⟨List.pairwise_singleton _ _, fun haborting => ?_, by simp [AbortingEvent.isDrop], id⟩
      -- There is no handler any more that could ask for a worker.
      rw [List.forall_mem_singleton]
      cases e with
      | execute number now =>
        simp [Run.step, Run.startCall, Run.handler?, (hover haborting).2] at hs
      | _ => rfl
    · obtain ⟨⟨finish, hphase⟩, hnone⟩ := hover haborting
      have hfewer := Run.handlers_le_of_step (by rw [hphase]; rfl) hs
      rw [hnone, List.length_nil] at hfewer
      refine ⟨?_, List.length_eq_zero_iff.mp (Nat.le_zero.mp hfewer)⟩
      rcases Run.phase_of_step hs (hschedule haborting) with hsame | ⟨hdraining, -⟩
      · exact ⟨finish, hsame.trans hphase⟩
      · simp [hphase] at hdraining

/-- Every state of a run whose abort is one step is one of a run whose handlers are aborted one by
one. -/
theorem steps_of_run {r r' : Run P κ} {aborting : Bool} (hnumbered : r.Numbered)
    (hover : aborting = true → r.phase.IsTerminated ∧ r.handlers = []) {events : List RunEvent}
    (hr : r.steps setup events = some r') : ∃ events' aborting',
      (⟨r, aborting⟩ : AbortingRun P κ).steps setup events' = some ⟨r', aborting'⟩ ∧
      Undisturbed aborting events' aborting' := by
  induction events generalizing r aborting with
  | nil =>
    obtain rfl := Option.some.inj hr
    exact ⟨[], aborting, rfl, List.Pairwise.nil, by simp, by simp, id⟩
  | cons e rest ih =>
    obtain ⟨s, hstep, hrest⟩ := Option.bind_eq_some_iff.mp hr
    obtain ⟨first, aborting₁, hfirst, hundisturbed, hover₁⟩ := steps_of_step hnumbered hover hstep
    obtain ⟨others, aborting', hothers, hundisturbed'⟩ := ih (hnumbered.step hstep) hover₁ hrest
    refine ⟨first ++ others, aborting', ?_, hundisturbed.append hundisturbed'⟩
    rw [steps_append, hfirst, Option.bind_some, hothers]

/-- So no more calls go on in a run whose abort is one step than may be executed at once, with those
whose handlers have been given up. -/
theorem callsInProgress_le_of_run (operations : Schedule P) (completion : CompletionService)
    (metrics : MetricsPipeline κ) (log : ErrorLog) {events : List RunEvent} {r : Run P κ}
    (hr : (Run.fresh operations completion metrics log).steps setup events = some r) :
    r.callsInProgress ≤ max 1 setup.config.threadCount := by
  have hnumbered : (Run.fresh operations completion metrics log : Run P κ).Numbered :=
    List.nil_sublist _
  obtain ⟨events', aborting, hsteps, hundisturbed⟩ :=
    steps_of_run hnumbered (fun haborting => absurd haborting Bool.false_ne_true) hr
  exact callsInProgress_le setup operations completion metrics log hundisturbed.pairs hsteps

end Refinement

end AbortingRun

end WorkloadReplay
