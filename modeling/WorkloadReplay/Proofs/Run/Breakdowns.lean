import WorkloadReplay.Proofs.Run.Dispatching
import WorkloadReplay.Proofs.Stream.Breakdowns

/-!
# When the scheduler breaks down

Where the sequence of a run does not break down itself, there are two ways left in which the
scheduler can (`Run.BreaksDown`). The run proper begins with pools that are asked to hold more
permits than a pool can, or the scheduler, while it sleeps, finds the clock so far before the start
it sleeps for that no duration is as long. `Follows.phase_eq_broken_iff` says that a run has broken
down exactly if it has come to one of them.

No run comes to the second one if the clock never goes back (`IsPunctual.not_lagsBehind`): the first
operation is a duration after the beginning, and once it is due, the clock has reached a time from
which all other operations are a duration away.
-/

namespace WorkloadReplay

variable {P κ : Type}

/-- One of the two pools is asked to hold more permits than it can. -/
def RunnerConfig.Overasks (c : RunnerConfig) : Prop :=
  PermitPool.maxPermits < c.maxInFlight ∨ PermitPool.maxPermits < c.threadCount

instance (c : RunnerConfig) : Decidable c.Overasks := inferInstanceAs (Decidable (_ ∨ _))

/-- Then, and only then, there are no pools. -/
theorem RunnerConfig.flowControl_eq_error {c : RunnerConfig} {text : String} :
    c.flowControl = .error text ↔ c.Overasks ∧ text = MetricsPipeline.capacityText := by
  have hpool : ∀ count, PermitPool.ofCount count =
      if PermitPool.maxPermits < count then .error MetricsPipeline.capacityText
      else .ok ⟨max count 1, false⟩ := fun _ => rfl
  unfold flowControl FlowControl.ofCounts Overasks
  rw [hpool, hpool]
  by_cases hinFlight : PermitPool.maxPermits < c.maxInFlight
  · simp [hinFlight, bind, Except.bind, eq_comm]
  · by_cases hworkers : PermitPool.maxPermits < c.threadCount
    · simp [hinFlight, hworkers, bind, Except.bind, eq_comm]
    · simp [hinFlight, hworkers, bind, Except.bind, pure, Except.pure]

/-- There is no duration between two instants exactly if the nanoseconds between them do not fit. -/
theorem Instant.since_eq_error {t u : Instant} {e : TimeOverflow} :
    t.since u = .error e ↔ ¬ FitsNanos (t.nanos - u.nanos) ∧ e = .subtractingInstants := by
  unfold since since? Duration.ofNanos?
  by_cases hfits : FitsNanos (t.nanos - u.nanos)
  · simp [hfits]
  · simp [hfits, eq_comm]

namespace Run

variable {setup : RunSetup κ} {r r' : Run P κ}

/-- The run proper begins with the next step of the scheduler: there are no peers, or all of them
have reached the start. -/
def IsLaunched (setup : RunSetup κ) (r : Run P κ) : Prop :=
  r.phase = .idle ∧ r.completion.slotCount = 0 ∨
    r.phase = .awaitingPeers ∧
      r.completion.hasReached ((readyTime? setup.start).getD setup.start) = true

/-- The scheduler sleeps, nothing has been reported that would wake it, and no duration is as long
as the time that is left when the clock says `now`. -/
def LagsBehind (r : Run P κ) (now : Instant) : Prop :=
  ∃ first others, r.phase = .sleeping first others ∧ r.log.hasErrors = false ∧
    now < first.start ∧ ¬ FitsNanos (first.start.nanos - now.nanos)

/-- While the scheduler sleeps, this is about the batch that it sleeps for. -/
theorem lagsBehind_iff_of_sleeping {first : ScheduledOperation P}
    {others : List (ScheduledOperation P)} (hphase : r.phase = .sleeping first others)
    (now : Instant) : r.LagsBehind now ↔ r.log.hasErrors = false ∧ now < first.start ∧
      ¬ FitsNanos (first.start.nanos - now.nanos) := by
  constructor
  · rintro ⟨first', others', hphase', h⟩
    obtain ⟨rfl, rfl⟩ := SchedulerPhase.sleeping.inj (hphase.symm.trans hphase')
    exact h
  · exact fun h => ⟨first, others, hphase, h⟩

instance (r : Run P κ) (now : Instant) : Decidable (r.LagsBehind now) :=
  match hphase : r.phase with
  | .sleeping first others =>
    decidable_of_iff' _ (lagsBehind_iff_of_sleeping hphase now)
  | .idle | .awaitingPeers | .pulling | .dispatching _ | .gating _ _ | .judging _ _
  | .admitting _ _ | .draining | .terminated _ | .refused _ | .broken _ =>
    isFalse fun ⟨first, others, hphase', _⟩ => by simp [hphase] at hphase'

/-- The scheduler breaks down with its next step, at which the clock says `now`. -/
inductive BreaksDown (setup : RunSetup κ) (r : Run P κ) (now : Instant) : String → Prop where
  /-- The pools are asked for too much. -/
  | pools (hlaunched : r.IsLaunched setup) (hpools : setup.config.Overasks) :
    BreaksDown setup r now MetricsPipeline.capacityText
  /-- The clock is too far behind. -/
  | clock (hlags : r.LagsBehind now) :
    BreaksDown setup r now TimeOverflow.subtractingInstants.message

/-- The run has broken down. -/
def IsBroken (r : Run P κ) : Prop := ∃ text, r.phase = .broken text

/-! ## Steps -/

section Steps

variable {now : Instant} {expired : Bool} {text : String}

/-- The run proper begins with a breakdown exactly if the pools are asked for too much. -/
theorem launch_phase_eq_broken :
    (r.launch setup).phase = .broken text ↔
      setup.config.Overasks ∧ text = MetricsPipeline.capacityText := by
  rw [← RunnerConfig.flowControl_eq_error]
  unfold launch
  cases setup.config.flowControl with
  | error text' => simp [goTo]
  | ok flow => simp

/-- The first step of a run breaks down only with the pools. -/
theorem begin_phase_eq_broken :
    (r.begin setup).phase = .broken text ↔ r.completion.slotCount = 0 ∧
      setup.config.Overasks ∧ text = MetricsPipeline.capacityText := by
  obtain ⟨hpeers, hlaunch⟩ | ⟨hpeers, hwaits | ⟨e, hrefused⟩⟩ := begin_cases setup r
  · rw [hlaunch, launch_phase_eq_broken, and_iff_right hpeers]
  · simp [hwaits, hpeers]
  · simp [hrefused, hpeers]

/-- So does the end of the wait for the other peers. -/
theorem awaitPeers_phase_eq_broken (h : r.awaitPeers setup expired = some r') :
    r'.phase = .broken text ↔
      r.completion.hasReached ((readyTime? setup.start).getD setup.start) = true ∧
        setup.config.Overasks ∧ text = MetricsPipeline.capacityText := by
  obtain ⟨hreached, rfl⟩ | ⟨hreached, e, hrefused⟩ := awaitPeers_cases h
  · rw [launch_phase_eq_broken, and_iff_right hreached]
  · simp [hrefused, hreached]

/-- The look at the next batch, if the sequence does not break down at this place. -/
theorem pull_phase_ne_broken
    (hfine : ∀ text items, r.operations.toList ≠ .error (.panicked text) :: items) :
    (r.pull setup).phase ≠ .broken text := by
  unfold pull
  split
  · simp [goTo]
  · split
    · rename_i text' hbatch
      obtain ⟨items, hitems⟩ := toList_of_nextBatch_error hbatch
      exact absurd hitems (hfine text' items)
    · dsimp only
      split <;> simp [goTo]
    · dsimp only
      split_ifs <;> simp [goTo]

/-- A look at the clock while the scheduler sleeps. -/
theorem wake_phase_eq_broken {first : ScheduledOperation P} {others : List (ScheduledOperation P)}
    (hphase : r.phase = .sleeping first others) (h : r.wake now first others = some r') :
    r'.phase = .broken text ↔
      r.LagsBehind now ∧ text = TimeOverflow.subtractingInstants.message := by
  rw [lagsBehind_iff_of_sleeping hphase]
  unfold wake at h
  split_ifs at h with herrors hdue
  · obtain rfl := Option.some.inj h
    exact iff_of_false (by simp [goTo]) fun h => by simp [herrors] at h
  · obtain rfl := Option.some.inj h
    exact iff_of_false (by simp [goTo]) fun h => not_lt_of_ge hdue h.1.2.1
  · split at h
    · rename_i e hsince
      obtain rfl := Option.some.inj h
      obtain ⟨hfar, rfl⟩ := Instant.since_eq_error.mp hsince
      have hright : r.log.hasErrors = false ∧ now < first.start ∧
          ¬ FitsNanos (first.start.nanos - now.nanos) :=
        ⟨by simpa using herrors, not_le.mp hdue, hfar⟩
      rw [and_iff_right hright]
      simp [goTo, eq_comm]
    · simp at h

/-- A gate does not break down. -/
theorem gate_phase_ne_broken {next : ScheduledOperation P} {batch : List (ScheduledOperation P)}
    (h : r.gate setup expired next batch = some r') : r'.phase ≠ .broken text := by
  obtain ⟨reached, -, rfl⟩ := Option.map_eq_some_iff.mp h
  split_ifs <;> simp [goTo]

/-- Nor does the check of a delay. -/
theorem judge_phase_ne_broken (next : ScheduledOperation P) (batch : List (ScheduledOperation P)) :
    (r.judge setup now next batch).phase ≠ .broken text := by
  unfold judge
  split <;> simp [goTo]

/-- Nor does the dispatching of an operation. -/
theorem dispatch_phase_ne_broken {next : ScheduledOperation P}
    {batch : List (ScheduledOperation P)} (h : r.dispatch next batch = some r') :
    r'.phase ≠ .broken text := by
  unfold dispatch at h
  split at h
  · simp at h
  · exact Option.some.inj h ▸ by simp [goTo]
  · split at h
    · split at h <;> exact Option.some.inj h ▸ by simp [goTo]
    · exact Option.some.inj h ▸ by simp [goTo]

/-- Nor does the end of a run. -/
theorem drain_phase_ne_broken (hphase : r.phase = .draining) (h : r.drain now = some r') :
    r'.phase ≠ .broken text := by
  unfold drain at h
  split at h
  · exact Option.some.inj h ▸ by simp [terminate]
  · simp at h
  · exact Option.some.inj h ▸ by simp [reap, hphase]

/-- The ways to break down, with the phases in which they occur. -/
theorem breaksDown_iff : r.BreaksDown setup now text ↔
    r.phase = .idle ∧ r.completion.slotCount = 0 ∧
      setup.config.Overasks ∧ text = MetricsPipeline.capacityText ∨
    r.phase = .awaitingPeers ∧
      r.completion.hasReached ((readyTime? setup.start).getD setup.start) = true ∧
      setup.config.Overasks ∧ text = MetricsPipeline.capacityText ∨
    r.LagsBehind now ∧ text = TimeOverflow.subtractingInstants.message := by
  constructor
  · rintro (⟨⟨hphase, hpeers⟩ | ⟨hphase, hreached⟩, hpools⟩ | hlags)
    · exact .inl ⟨hphase, hpeers, hpools, rfl⟩
    · exact .inr (.inl ⟨hphase, hreached, hpools, rfl⟩)
    · exact .inr (.inr ⟨hlags, rfl⟩)
  · rintro (⟨hphase, hpeers, hpools, rfl⟩ | ⟨hphase, hreached, hpools, rfl⟩ | ⟨hlags, rfl⟩)
    · exact .pools (.inl ⟨hphase, hpeers⟩) hpools
    · exact .pools (.inr ⟨hphase, hreached⟩) hpools
    · exact .clock hlags

/-- A step of the scheduler leads to a breakdown exactly in these ways. -/
theorem scheduleStep_phase_eq_broken
    (hfine : r.phase = .pulling →
      ∀ text items, r.operations.toList ≠ .error (.panicked text) :: items)
    (h : r.scheduleStep setup now expired = some r') :
    r'.phase = .broken text ↔ r.BreaksDown setup now text := by
  rw [breaksDown_iff]
  unfold scheduleStep at h
  split at h
  case h_1 hphase =>
    obtain rfl := Option.some.inj h
    rw [begin_phase_eq_broken]
    simp [LagsBehind, hphase]
  case h_2 hphase =>
    rw [awaitPeers_phase_eq_broken h]
    simp [LagsBehind, hphase]
  case h_3 hphase =>
    obtain rfl := Option.some.inj h
    exact iff_of_false (pull_phase_ne_broken (hfine hphase)) (by simp [LagsBehind, hphase])
  case h_4 hphase =>
    rw [wake_phase_eq_broken hphase h]
    simp [hphase]
  case h_5 batch hphase =>
    obtain rfl := Option.some.inj h
    refine iff_of_false ?_ (by simp [LagsBehind, hphase])
    unfold choose
    split
    · simp [goTo]
    · split_ifs <;> simp [goTo]
  case h_6 hphase => exact iff_of_false (gate_phase_ne_broken h) (by simp [LagsBehind, hphase])
  case h_7 hphase =>
    obtain rfl := Option.some.inj h
    exact iff_of_false (judge_phase_ne_broken _ _) (by simp [LagsBehind, hphase])
  case h_8 hphase => exact iff_of_false (dispatch_phase_ne_broken h) (by simp [LagsBehind, hphase])
  case h_9 hphase =>
    exact iff_of_false (drain_phase_ne_broken hphase h) (by simp [LagsBehind, hphase])
  all_goals simp at h

/-- A run that has broken down stays so. -/
theorem phase_of_broken (hphase : r.phase = .broken text) {e : RunEvent}
    (h : r.step setup e = some r') : r'.phase = .broken text := by
  by_cases he : ∃ now expired, e = .schedule now expired
  · obtain ⟨now, expired, rfl⟩ := he
    simp [Run.step, scheduleStep, hphase] at h
  · rcases phase_of_step h fun now expired heq => he ⟨now, expired, heq⟩ with hsame | ⟨hdraining, -⟩
    · exact hsame.trans hphase
    · rw [hphase] at hdraining
      simp at hdraining

/-- An event breaks a run down exactly if it is a step of the scheduler that does. -/
theorem step_phase_eq_broken (hnot : ¬ r.IsBroken)
    (hfine : r.phase = .pulling →
      ∀ text items, r.operations.toList ≠ .error (.panicked text) :: items)
    {e : RunEvent} (h : r.step setup e = some r') : r'.phase = .broken text ↔
      ∃ now expired, e = .schedule now expired ∧ r.BreaksDown setup now text := by
  by_cases he : ∃ now expired, e = .schedule now expired
  · obtain ⟨now, expired, rfl⟩ := he
    rw [scheduleStep_phase_eq_broken hfine h]
    constructor
    · exact fun hbreaks => ⟨now, expired, rfl, hbreaks⟩
    · rintro ⟨now', expired', heq, hbreaks⟩
      obtain ⟨rfl, -⟩ := RunEvent.schedule.inj heq
      exact hbreaks
  · refine iff_of_false (fun hphase => ?_) fun ⟨now, expired, heq, _⟩ => he ⟨now, expired, heq⟩
    rcases phase_of_step h fun now expired heq => he ⟨now, expired, heq⟩ with
      hsame | ⟨-, finish, hend⟩
    · exact hnot ⟨text, hsame ▸ hphase⟩
    · rw [hphase] at hend
      simp at hend

end Steps

/-! ## Runs -/

section Runs

variable {ops : Schedule P} {text : String}

/-- Among some events is a step of the scheduler with which it breaks down. -/
def BreaksDownAmong (setup : RunSetup κ) (r : Run P κ) (events : List RunEvent) (text : String) :
    Prop :=
  ∃ before now expired after r₁, events = before ++ .schedule now expired :: after ∧
    r.steps setup before = some r₁ ∧ r₁.BreaksDown setup now text

/-- It is the first event, or it is among the others. -/
theorem breaksDownAmong_cons {e : RunEvent} {rest : List RunEvent}
    (h : r.step setup e = some r') : r.BreaksDownAmong setup (e :: rest) text ↔
      (∃ now expired, e = .schedule now expired ∧ r.BreaksDown setup now text) ∨
        r'.BreaksDownAmong setup rest text := by
  constructor
  · rintro ⟨before, now, expired, after, r₁, hevents, hsteps, hbreaks⟩
    cases before with
    | nil =>
      obtain rfl := Option.some.inj hsteps
      exact .inl ⟨now, expired, (List.cons.inj hevents).1, hbreaks⟩
    | cons e' before =>
      obtain ⟨rfl, hrest⟩ := List.cons.inj hevents
      have hsteps' : (r.step setup e).bind (fun r => r.steps setup before) = some r₁ := hsteps
      rw [h, Option.bind_some] at hsteps'
      exact .inr ⟨before, now, expired, after, r₁, hrest, hsteps', hbreaks⟩
  · rintro (⟨now, expired, rfl, hbreaks⟩ |
      ⟨before, now, expired, after, r₁, rfl, hsteps, hbreaks⟩)
    · exact ⟨[], now, expired, rest, r, rfl, rfl, hbreaks⟩
    · refine ⟨e :: before, now, expired, after, r₁, rfl, ?_, hbreaks⟩
      change (r.step setup e).bind (fun r => r.steps setup before) = some r₁
      rw [h, Option.bind_some, hsteps]

/-- The scheduler breaks down only once. -/
theorem BreaksDown.not_isBroken {now : Instant} (h : r.BreaksDown setup now text) :
    ¬ r.IsBroken := by
  rintro ⟨text', hphase⟩
  rw [breaksDown_iff] at h
  simp [LagsBehind, hphase] at h

/-- It stays so whatever happens. -/
theorem phase_of_broken_steps (hphase : r.phase = .broken text) {events : List RunEvent}
    (hs : r.steps setup events = some r') : r'.phase = .broken text :=
  Reaches.invariant (motive := fun s => s.phase = .broken text)
    (fun hphase hstep => phase_of_broken hphase hstep) ⟨events, hs⟩ hphase

/-- No item at which the scheduler looks next stands for a breakdown of the workload. -/
theorem Follows.fine (h : Follows ops r) (hops : ops.NeverBreaks) (hphase : r.phase = .pulling)
    (text : String) (items : List (Except ReplayError (ScheduledOperation P))) :
    r.operations.toList ≠ .error (.panicked text) :: items := by
  intro hitems
  have hheld : r.phase.held? = some [] := by rw [hphase]; rfl
  have htoList := h.toList hheld
  rw [hitems] at htoList
  exact hops text (htoList ▸ List.mem_append_right _ List.mem_cons_self)

/-- A run on its way through a sequence that does not break down has broken down after some events
exactly if the scheduler did so in one of the ways there are. -/
theorem Follows.phase_eq_broken_iff (h : Follows ops r) (hops : ops.NeverBreaks)
    (hnot : ¬ r.IsBroken) {events : List RunEvent} (hs : r.steps setup events = some r') :
    r'.phase = .broken text ↔ r.BreaksDownAmong setup events text := by
  induction events generalizing r with
  | nil =>
    obtain rfl := Option.some.inj hs
    refine iff_of_false (fun hphase => hnot ⟨text, hphase⟩) ?_
    rintro ⟨before, now, expired, after, r₁, hevents, -⟩
    simp at hevents
  | cons e rest ih =>
    obtain ⟨r₁, hstep, hrest⟩ := Option.bind_eq_some_iff.mp hs
    have hhead : r₁.phase = .broken text ↔ _ := step_phase_eq_broken hnot (h.fine hops) hstep
    rw [breaksDownAmong_cons hstep, ← hhead]
    by_cases hbroken : r₁.IsBroken
    · -- The run breaks down with this event, and that is the end of it.
      obtain ⟨text', hphase⟩ := hbroken
      rw [phase_of_broken_steps hphase hrest, hphase, or_iff_left]
      rintro ⟨before, now, expired, after, r₂, -, hsteps, hbreaks⟩
      exact hbreaks.not_isBroken ⟨text', phase_of_broken_steps hphase hsteps⟩
    · rw [ih (h.step hstep) hbroken hrest, or_iff_right]
      exact fun hphase => hbroken ⟨text, hphase⟩

end Runs

/-- A run with a sequence that does not break down has broken down exactly if its scheduler has. -/
theorem fresh_phase_eq_broken_iff (hops : ops.NeverBreaks) {completion : CompletionService}
    {metrics : MetricsPipeline κ} {log : ErrorLog} {events : List RunEvent}
    (hs : (fresh ops completion metrics log).steps setup events = some r) :
    r.phase = .broken text ↔ (fresh ops completion metrics log).BreaksDownAmong setup events text :=
  (follows_fresh ops completion metrics log).phase_eq_broken_iff hops
    (by simp [IsBroken, fresh]) hs

/-- The run proper has not begun, or the run is over without that. -/
def IsUnlaunched (r : Run P κ) : Prop :=
  r.phase = .idle ∨ r.phase = .awaitingPeers ∨ (∃ e, r.phase = .refused e) ∨ r.IsBroken

/-- With pools that are asked for too much, the run proper does not begin. -/
theorem IsUnlaunched.step (hpools : setup.config.Overasks) (h : r.IsUnlaunched) {e : RunEvent}
    (hstep : r.step setup e = some r') : r'.IsUnlaunched := by
  have hlaunch : ∀ s : Run P κ, (s.launch setup).IsUnlaunched := fun s =>
    .inr (.inr (.inr ⟨_, launch_phase_eq_broken.mpr ⟨hpools, rfl⟩⟩))
  by_cases he : ∃ now expired, e = .schedule now expired
  · obtain ⟨now, expired, rfl⟩ := he
    rcases h with hphase | hphase | ⟨e, hphase⟩ | ⟨text, hphase⟩ <;>
      simp only [Run.step, scheduleStep, hphase] at hstep
    · obtain rfl := Option.some.inj hstep
      obtain ⟨-, heq⟩ | ⟨-, hwaits | hrefused⟩ := begin_cases setup r
      · exact heq ▸ hlaunch r
      · exact .inr (.inl hwaits)
      · exact .inr (.inr (.inl hrefused))
    · obtain ⟨-, rfl⟩ | ⟨-, hrefused⟩ := awaitPeers_cases hstep
      · exact hlaunch r
      · exact .inr (.inr (.inl hrefused))
    all_goals simp at hstep
  · rcases phase_of_step hstep fun now expired heq => he ⟨now, expired, heq⟩ with
      hsame | ⟨hdraining, -⟩
    · unfold IsUnlaunched IsBroken at *
      rwa [hsame]
    · simp [IsUnlaunched, IsBroken, hdraining] at h

/-! ## Clocks that do not go back -/

section Clocks

variable {ops : Schedule P} {start time now : Instant}

/-- The times that the scheduler reads from the clock. -/
def readings : List RunEvent → List Instant
  | [] => []
  | .schedule now _ :: rest => now :: readings rest
  | _ :: rest => readings rest

/-- Nothing is due yet: the run has not begun, or the scheduler looks for the first batch or sleeps
before it. -/
def IsEarly (r : Run P κ) : Prop :=
  r.dispatched = #[] ∧ (r.phase = .idle ∨ r.phase = .awaitingPeers ∨ r.phase = .pulling ∨
    ∃ first others, r.phase = .sleeping first others)

/-- The scheduler never sleeps in this run, and does not do so now. -/
def IsHurried (setup : RunSetup κ) (r : Run P κ) : Prop :=
  setup.config.ignoreScheduledStarts = true ∧ ∀ first others, r.phase ≠ .sleeping first others

/-- While the scheduler dispatches, the clock has come to the start of the run by `time`, unless
nothing is due yet or starts are ignored. -/
def IsPunctual (setup : RunSetup κ) (time : Instant) (r : Run P κ) : Prop :=
  r.phase.held? ≠ none → setup.start ≤ time ∨ r.IsEarly ∨ r.IsHurried setup

/-- A run that has not begun is punctual. -/
theorem isPunctual_fresh (completion : CompletionService) (metrics : MetricsPipeline κ)
    (log : ErrorLog) : (fresh ops completion metrics log).IsPunctual setup time :=
  fun _ => .inr (.inl ⟨rfl, .inl rfl⟩)

/-- A look at the sequence leads to a batch, which is dispatched at once if starts are ignored, and
slept for otherwise. -/
theorem pull_cases (setup : RunSetup κ) (r : Run P κ) : (r.pull setup).phase.held? = none ∨
    setup.config.ignoreScheduledStarts = true ∧
      (∃ batch, (r.pull setup).phase = .dispatching batch) ∨
    setup.config.ignoreScheduledStarts = false ∧
      ∃ first others, (r.pull setup).phase = .sleeping first others := by
  unfold pull
  split
  · exact .inl rfl
  · split
    · exact .inl rfl
    · dsimp only
      split_ifs <;> exact .inl rfl
    · dsimp only
      split_ifs with herrors hignored
      · exact .inl rfl
      · exact .inr (.inl ⟨hignored, _, rfl⟩)
      · exact .inr (.inr ⟨by simpa using hignored, _, _, rfl⟩)

/-- A scheduler that wakes up has slept until its batch is due. -/
theorem wake_cases {first : ScheduledOperation P} {others : List (ScheduledOperation P)}
    (h : r.wake now first others = some r') : r'.phase.held? = none ∨
      r'.phase = .dispatching (first :: others) ∧ first.start ≤ now := by
  unfold wake at h
  split_ifs at h with herrors hdue
  · exact Option.some.inj h ▸ .inl rfl
  · exact Option.some.inj h ▸ .inr ⟨rfl, hdue⟩
  · split at h
    · exact Option.some.inj h ▸ .inl rfl
    · simp at h

/-- The opening of a run leaves it before its first batch. -/
theorem isEarly_of_opening (hdispatched : r.dispatched = #[]) (hopening : r.phase.IsOpening)
    (hheld : r.phase.held? ≠ none) : r.IsEarly := by
  refine ⟨hdispatched, ?_⟩
  cases hphase : r.phase with
  | awaitingPeers => simp
  | pulling => simp
  | refused e => simp [hphase, SchedulerPhase.held?] at hheld
  | broken text => simp [hphase, SchedulerPhase.held?] at hheld
  | _ => simp [hphase, SchedulerPhase.IsOpening] at hopening

/-- A step of the scheduler at which the clock says `now` leaves it punctual. -/
theorem IsPunctual.scheduleStep (h : r.IsPunctual setup time) (hfollows : Follows ops r)
    (hstart : ∀ x ∈ ops.operations, setup.start ≤ x.start) (htime : time ≤ now) {expired : Bool}
    (hstep : r.step setup (.schedule now expired) = some r') : r'.IsPunctual setup now := by
  intro hheld'
  have hheld : r.phase.held? ≠ none := fun hover => hheld' (over_of_step hover hstep)
  rcases h hheld with hreached | ⟨hdispatched, hphase⟩ | ⟨hignored, hawake⟩
  · exact .inl (le_trans hreached htime)
  · have hdispatched' : r'.dispatched = #[] := by
      rcases dispatched_cases hstep with hsame | ⟨next, batch, hadmitting, -⟩
      · exact hsame.trans hdispatched
      · simp [hadmitting] at hphase
    rcases hphase with hphase | hphase | hphase | ⟨first, others, hphase⟩ <;>
      simp only [Run.step, Run.scheduleStep, hphase] at hstep
    · obtain rfl := Option.some.inj hstep
      exact .inr (.inl (isEarly_of_opening hdispatched' (opening_begin r) hheld'))
    · exact .inr (.inl (isEarly_of_opening hdispatched' (opening_awaitPeers hstep) hheld'))
    · obtain rfl := Option.some.inj hstep
      rcases pull_cases setup r with
        hover | ⟨hignored, batch, hbatch⟩ | ⟨-, first, others, hsleeping⟩
      · exact absurd hover hheld'
      · exact .inr (.inr ⟨hignored, by simp [hbatch]⟩)
      · exact .inr (.inl ⟨hdispatched', by simp [hsleeping]⟩)
    · -- The first operation of the batch is due, and none starts before the run.
      obtain hover | ⟨-, hdue⟩ := wake_cases hstep
      · exact absurd hover hheld'
      · have hheld : r.phase.held? = some (first :: others) := by rw [hphase]; rfl
        obtain ⟨later, hlater⟩ := Schedule.prefix_operations (hfollows.toList hheld)
        have hmem : first ∈ ops.operations := by simp [← hlater]
        exact .inl (le_trans (hstart first hmem) hdue)
  · refine .inr (.inr ⟨hignored, fun first others hsleeping => ?_⟩)
    have hgoes := goesTo_of_scheduleStep hstep
    rw [hsleeping] at hgoes
    generalize hphase : r.phase = phase at hgoes
    cases hgoes with
    | opens _ hopening => simp [SchedulerPhase.IsOpening] at hopening
    | sleeps =>
      simp only [Run.step, Run.scheduleStep, hphase] at hstep
      obtain rfl := Option.some.inj hstep
      rcases pull_cases setup r with hover | ⟨-, batch, hbatch⟩ | ⟨hheeded, -⟩
      · exact hheld' hover
      · simp [hsleeping] at hbatch
      · simp [hignored] at hheeded

/-- So does everything else that happens, at no time of the clock. -/
theorem IsPunctual.step (h : r.IsPunctual setup time) {e : RunEvent}
    (hstep : r.step setup e = some r') (he : ∀ now expired, e ≠ .schedule now expired) :
    r'.IsPunctual setup time := by
  intro hheld'
  rcases phase_of_step hstep he with hsame | ⟨-, finish, hend⟩
  · rw [hsame] at hheld'
    unfold IsEarly IsHurried at *
    rw [hsame]
    refine (h hheld').imp_right (.imp_left fun ⟨hdispatched, hphase⟩ => ⟨?_, hphase⟩)
    rcases dispatched_cases hstep with hkept | ⟨next, batch, hadmitting, -⟩
    · exact hkept.trans hdispatched
    · simp [hadmitting] at hphase
  · simp [hend, SchedulerPhase.held?] at hheld'

/-- A scheduler that is punctual never lags behind a clock that does not go back, where the first
operation of its sequence starts with the run, a duration after the beginning, and the others
a duration after that. -/
theorem IsPunctual.not_lagsBehind (h : r.IsPunctual setup time) (hfollows : Follows ops r)
    (hops : Stream.BeginsAt setup.start ops.operations) {first : Instant}
    (hfirst : FitsNanos (setup.start.nanos - first.nanos)) (hle : first ≤ time)
    {before after : List RunEvent} {expired : Bool} {r₁ : Run P κ}
    (hs : r.steps setup before = some r₁)
    (hordered : (time :: readings (before ++ .schedule now expired :: after)).Pairwise (· ≤ ·)) :
    ¬ r₁.LagsBehind now := by
  induction before generalizing r time with
  | nil =>
    obtain rfl := Option.some.inj hs
    have htime : time ≤ now := (List.pairwise_cons.mp hordered).1 now List.mem_cons_self
    rintro ⟨next, others, hphase, -, hearly, hfar⟩
    have hheld : r.phase.held? = some (next :: others) := by rw [hphase]; rfl
    obtain ⟨later, hlater⟩ := Schedule.prefix_operations (hfollows.toList hheld)
    have hmem : next ∈ ops.operations := by simp [← hlater]
    have hfits : ∀ {n m : Int}, FitsNanos m → 0 ≤ n → n ≤ m → FitsNanos n := by
      intro n m hm hn hle
      simp only [FitsNanos, leastNanos, greatestNanos] at hm ⊢
      omega
    rw [Instant.lt_iff] at hearly
    rw [Instant.le_iff] at htime hle
    rcases h (by simp [hphase, SchedulerPhase.held?]) with
      hreached | ⟨hdispatched, -⟩ | ⟨-, hawake⟩
    · -- From the start on, every operation is a duration away.
      rw [Instant.le_iff] at hreached
      exact hfar (hfits (hops.near next hmem) (by omega) (by omega))
    · -- The operation is the first one, which starts with the run.
      have hhead : ops.operations.head? = some next := by simp [← hlater, hdispatched]
      rw [hops.first next hhead] at hearly hfar
      exact hfar (hfits hfirst (by omega) (by omega))
    · exact hawake next others hphase
  | cons e before ih =>
    obtain ⟨r₂, hstep, hrest⟩ := Option.bind_eq_some_iff.mp hs
    have hfollows₂ := hfollows.step hstep
    by_cases he : ∃ now expired, e = .schedule now expired
    · obtain ⟨now', expired', rfl⟩ := he
      obtain ⟨hlater, hordered⟩ := List.pairwise_cons.mp hordered
      have htime := hlater now' List.mem_cons_self
      exact ih (h.scheduleStep hfollows hops.later htime hstep) hfollows₂ (le_trans hle htime)
        hrest hordered
    · have he : ∀ now expired, e ≠ .schedule now expired := fun now expired heq =>
        he ⟨now, expired, heq⟩
      refine ih (h.step hstep he) hfollows₂ hle hrest ?_
      cases e with
      | schedule now expired => exact absurd rfl (he now expired)
      | _ => exact hordered

end Clocks

end Run

end WorkloadReplay
