import Mathlib.Tactic.SplitIfs
import WorkloadReplay.Run.Step

/-!
# The phases of a scheduler

The scheduler of a run goes from phase to phase as `SchedulerPhase.GoesTo` says. Only its own steps
move it (`phase_of_step`), but for the end of the time for draining, so every event leaves it where
it is or lets it go on (`goesTo_of_step`).
-/

namespace WorkloadReplay

variable {P κ : Type}

namespace SchedulerPhase

/-- The operation at whose gate the scheduler stands. -/
def gated? : SchedulerPhase P → Option (ScheduledOperation P)
  | .gating next _ => some next
  | _ => none

/-- There is one while the scheduler waits at a gate. -/
theorem gated?_eq_some {phase : SchedulerPhase P} {next : ScheduledOperation P} :
    phase.gated? = some next ↔ ∃ batch, phase = .gating next batch := by
  cases phase <;> simp [gated?]

/-- The operation that is dispatched with the next step. -/
def due? : SchedulerPhase P → Option (ScheduledOperation P)
  | .admitting next _ => some next
  | _ => none

/-- There is one once nothing holds it back any more. -/
theorem due?_eq_some {phase : SchedulerPhase P} {next : ScheduledOperation P} :
    phase.due? = some next ↔ ∃ batch, phase = .admitting next batch := by
  cases phase <;> simp [due?]

/-- A phase to which the beginning of a run leads. -/
def IsOpening : SchedulerPhase P → Prop
  | .awaitingPeers => True
  | .pulling => True
  | .refused _ => True
  | .broken _ => True
  | _ => False

/-- How a scheduler goes on from phase to phase. -/
inductive GoesTo : SchedulerPhase P → SchedulerPhase P → Prop where
  /-- The run begins, waits for the other peers, or cannot begin. -/
  | opens {phase phase' : SchedulerPhase P} (h : phase = .idle ∨ phase = .awaitingPeers)
      (h' : phase'.IsOpening) : GoesTo phase phase'
  | sleeps {first : ScheduledOperation P} {others : List (ScheduledOperation P)} :
      GoesTo .pulling (.sleeping first others)
  /-- Scheduled starts are ignored. -/
  | hurries {batch : List (ScheduledOperation P)} : GoesTo .pulling (.dispatching batch)
  | wakes {first : ScheduledOperation P} {others : List (ScheduledOperation P)} :
      GoesTo (.sleeping first others) (.dispatching (first :: others))
  | finishes : GoesTo (.dispatching []) .pulling
  | gates {next : ScheduledOperation P} {batch : List (ScheduledOperation P)}
      (hgated : next.operation.isGated = true) :
      GoesTo (.dispatching (next :: batch)) (.gating next batch)
  | judges {next : ScheduledOperation P} {batch : List (ScheduledOperation P)}
      (hgated : next.operation.isGated = false) :
      GoesTo (.dispatching (next :: batch)) (.judging next batch)
  | opensGate {next : ScheduledOperation P} {batch : List (ScheduledOperation P)} :
      GoesTo (.gating next batch) (.judging next batch)
  | admits {next : ScheduledOperation P} {batch : List (ScheduledOperation P)} :
      GoesTo (.judging next batch) (.admitting next batch)
  | dispatches {next : ScheduledOperation P} {batch : List (ScheduledOperation P)} :
      GoesTo (.admitting next batch) (.dispatching batch)
  /-- Nothing is left to dispatch, or something has failed. -/
  | stops {phase : SchedulerPhase P} (h : ¬ (phase = .idle ∨ phase = .awaitingPeers)) :
      GoesTo phase .draining
  | breaks {phase : SchedulerPhase P} {text : String}
      (h : ¬ (phase = .idle ∨ phase = .awaitingPeers)) : GoesTo phase (.broken text)
  | ends {finish : Instant} : GoesTo .draining (.terminated finish)

end SchedulerPhase

namespace Run

variable {setup : RunSetup κ} {r r' : Run P κ}

/-! ## The beginning -/

/-- The run proper begins with the first batch, unless the pools ask for too much. -/
theorem opening_launch (r : Run P κ) : (r.launch setup).phase.IsOpening := by
  unfold launch
  split <;> trivial

/-- Once the seeds are reported the scheduler waits for the other peers; otherwise the run is
refused. -/
theorem seed_phase (r : Run P κ) (start : Instant) (t : CompletionTracker) :
    (r.seed start t).phase = .awaitingPeers ∨ ∃ e, (r.seed start t).phase = .refused e := by
  unfold seed
  split
  · exact .inr ⟨_, rfl⟩
  · split
    · exact .inr ⟨_, rfl⟩
    · dsimp only
      split
      · exact .inr ⟨_, rfl⟩
      · split
        · exact .inr ⟨_, rfl⟩
        · exact .inl rfl

/-- Where there are no peers, the run proper begins with the first step of a run. -/
theorem begin_cases (setup : RunSetup κ) (r : Run P κ) :
    r.completion.slotCount = 0 ∧ r.begin setup = r.launch setup ∨
      r.completion.slotCount ≠ 0 ∧ ((r.begin setup).phase = .awaitingPeers ∨
        ∃ e, (r.begin setup).phase = .refused e) := by
  unfold begin
  split_ifs with hpeers
  · exact .inl ⟨hpeers, rfl⟩
  · refine .inr ⟨hpeers, ?_⟩
    split
    · exact .inr ⟨_, rfl⟩
    · exact seed_phase _ _ _

/-- Where there are, it begins when all of them have reached the start. -/
theorem awaitPeers_cases {expired : Bool} (h : r.awaitPeers setup expired = some r') :
    r.completion.hasReached ((readyTime? setup.start).getD setup.start) = true ∧
        r' = r.launch setup ∨
      r.completion.hasReached ((readyTime? setup.start).getD setup.start) ≠ true ∧
        ∃ e, r'.phase = .refused e := by
  obtain ⟨reached, hawaited, rfl⟩ := Option.map_eq_some_iff.mp h
  unfold awaited at hawaited
  split_ifs at hawaited with hreached hvain
  · obtain rfl := Option.some.inj hawaited
    exact .inl ⟨hreached, rfl⟩
  · obtain rfl := Option.some.inj hawaited
    exact .inr ⟨hreached, _, rfl⟩

/-- The first step of a run is an opening. -/
theorem opening_begin (r : Run P κ) : (r.begin setup).phase.IsOpening := by
  obtain ⟨-, hlaunch⟩ | ⟨-, hwaits | ⟨e, hrefused⟩⟩ := begin_cases setup r
  · exact hlaunch ▸ opening_launch r
  · exact hwaits ▸ trivial
  · exact hrefused ▸ trivial

/-- So is the end of the wait for the other peers. -/
theorem opening_awaitPeers {expired : Bool} (h : r.awaitPeers setup expired = some r') :
    r'.phase.IsOpening := by
  obtain ⟨-, rfl⟩ | ⟨-, e, hrefused⟩ := awaitPeers_cases h
  · exact opening_launch r
  · exact hrefused ▸ trivial

/-! ## All steps -/

/-- A step of the scheduler goes on from its phase. -/
theorem goesTo_of_scheduleStep {now : Instant} {expired : Bool}
    (hs : r.scheduleStep setup now expired = some r') : r.phase.GoesTo r'.phase := by
  unfold scheduleStep at hs
  split at hs
  case h_1 hphase =>
    obtain rfl := Option.some.inj hs
    exact .opens (.inl hphase) (opening_begin r)
  case h_2 hphase => exact .opens (.inr hphase) (opening_awaitPeers hs)
  case h_3 hphase =>
    obtain rfl := Option.some.inj hs
    rw [hphase]
    unfold pull
    split
    · exact .stops (by simp)
    · split
      · exact .breaks (by simp)
      · dsimp only
        split <;> exact .stops (by simp)
      · dsimp only
        split_ifs
        · exact .stops (by simp)
        · exact .hurries
        · exact .sleeps
  case h_4 first others hphase =>
    rw [hphase]
    unfold wake at hs
    split_ifs at hs
    · exact Option.some.inj hs ▸ .stops (by simp)
    · exact Option.some.inj hs ▸ .wakes
    · split at hs
      · exact Option.some.inj hs ▸ .breaks (by simp)
      · simp at hs
  case h_5 batch hphase =>
    obtain rfl := Option.some.inj hs
    rw [hphase]
    cases batch with
    | nil => exact .finishes
    | cons next batch =>
      simp only [choose]
      split_ifs with herrors hgated
      · exact .stops (by simp)
      · exact .gates hgated
      · exact .judges (by simpa using hgated)
  case h_6 next batch hphase =>
    obtain ⟨reached, -, rfl⟩ := Option.map_eq_some_iff.mp hs
    rw [hphase]
    split_ifs
    · exact .opensGate
    · exact .stops (by simp)
  case h_7 next batch hphase =>
    obtain rfl := Option.some.inj hs
    rw [hphase]
    unfold judge
    split
    · exact .admits
    · exact .admits
    · exact .stops (by simp)
  case h_8 next batch hphase =>
    rw [hphase]
    unfold dispatch at hs
    split at hs
    · simp at hs
    · exact Option.some.inj hs ▸ .stops (by simp)
    · split at hs
      · split at hs
        · exact Option.some.inj hs ▸ .stops (by simp)
        · exact Option.some.inj hs ▸ .dispatches
      · exact Option.some.inj hs ▸ .dispatches
  case h_9 hphase =>
    unfold drain at hs
    split at hs
    · obtain rfl := Option.some.inj hs
      rw [hphase]
      exact .ends
    · simp at hs
    · -- A handler has ended, and the scheduler looks again.
      obtain rfl := Option.some.inj hs
      have hreap : r.reap.phase = .draining := hphase
      rw [hreap, hphase]
      exact .stops (by simp)
  all_goals simp at hs

/-- A handler that settles leaves the scheduler where it is. -/
theorem phase_settleHandler (r : Run P κ) (x : Handler P) (success : Bool) :
    (r.settleHandler x success).phase = r.phase := by
  unfold settleHandler
  dsimp only
  split
  · split <;> rfl
  · rfl

/-- Only the scheduler's own steps move the scheduler, but for the end of the time for draining. -/
theorem phase_of_step {e : RunEvent} (hs : r.step setup e = some r')
    (he : ∀ now expired, e ≠ .schedule now expired) :
    r'.phase = r.phase ∨ r.phase = .draining ∧ ∃ finish, r'.phase = .terminated finish := by
  have hservice : ∀ answer : Except ReplayError CompletionService,
      (r.withCompletion answer).phase = r.phase := by
    intro answer
    cases answer <;> rfl
  cases e with
  | schedule now expired => exact absurd rfl (he now expired)
  | execute number now =>
    simp only [step, startCall] at hs
    split at hs
    · split at hs
      · exact .inl (Option.some.inj hs ▸ rfl)
      · simp at hs
      · exact .inl (Option.some.inj hs ▸ rfl)
    · simp at hs
  | answer number answer elapsed =>
    simp only [step, finishCall] at hs
    split at hs
    · split at hs
      · exact .inl (Option.some.inj hs ▸ rfl)
      · split_ifs at hs <;> exact .inl (Option.some.inj hs ▸ rfl)
    · simp at hs
  | submit number =>
    simp only [step, sendRecord] at hs
    split at hs
    · split at hs
      · simp at hs
      · exact .inl (Option.some.inj hs ▸ rfl)
      · exact .inl (Option.some.inj hs ▸ phase_settleHandler _ _ _)
    · simp at hs
  | consume =>
    obtain ⟨consumed, -, rfl⟩ := Option.map_eq_some_iff.mp hs
    exact .inl rfl
  | expire now =>
    simp only [step, expireDrain] at hs
    split at hs
    · rename_i hphase
      exact .inr ⟨hphase, now, Option.some.inj hs ▸ rfl⟩
    · simp at hs
  | peerClaims => exact .inl (Option.some.inj hs ▸ hservice _)
  | peerInitiated k time =>
    simp only [step] at hs
    split_ifs at hs
    exact .inl (Option.some.inj hs ▸ hservice _)
  | peerCompleted k time =>
    simp only [step] at hs
    split_ifs at hs
    exact .inl (Option.some.inj hs ▸ hservice _)
  | completionShutdown => exact .inl (Option.some.inj hs ▸ rfl)
  | report source message => exact .inl (Option.some.inj hs ▸ rfl)

/-- An event leaves the scheduler where it is, or the scheduler goes on. -/
theorem goesTo_of_step {e : RunEvent} (hs : r.step setup e = some r') :
    r'.phase = r.phase ∨ r.phase.GoesTo r'.phase := by
  by_cases he : ∃ now expired, e = .schedule now expired
  · obtain ⟨now, expired, rfl⟩ := he
    exact .inr (goesTo_of_scheduleStep hs)
  · rcases phase_of_step hs fun now expired h => he ⟨now, expired, h⟩ with
      hsame | ⟨hdraining, finish, hterminated⟩
    · exact .inl hsame
    · rw [hdraining, hterminated]
      exact .inr .ends

end Run

end WorkloadReplay
