import WorkloadReplay.Proofs.Run.Dispatching

/-!
# How a run winds up after an error

Whoever reports the first error, and whatever the scheduler is waiting for at that moment, it does
not choose another operation afterwards: it looks at the error log before it sleeps, whenever it
wakes up, and before each operation of a batch. What may still be dispatched is the operation that
it has chosen already (`SchedulerPhase.chosen?`) and whose gate, delay or permit it is busy with.

`SchedulerPhase.WindsUp` lists what a scheduler can do once an error has been reported. From it
follow both halves of the main result (`dispatched_after_report`): nothing but the chosen operation
is dispatched any more, and after five steps of its own the scheduler has stopped.
-/

namespace WorkloadReplay

variable {P κ : Type}

/-- Every report stays in the log of a run. -/
theorem Run.log_of_step {setup : RunSetup κ} {r r' : Run P κ} {e : RunEvent}
    (hstep : r.step setup e = some r') : r.log.entries <+: r'.log.entries := by
  have hreap : r.log.entries <+: r.reap.log.entries := by
    rw [entries_reap]
    exact List.prefix_append _ _
  have habandon : r.log.entries <+: (r.reap.abandon setup).log.entries := by
    rw [entries_abandon]
    exact hreap.trans (List.prefix_append _ _)
  have htally := tally_of_step hstep
  generalize r.ending? setup e = d at htally
  cases htally with
  | same h => exact h.log
  | consume _ h => exact h.log
  | reap h => exact hreap.trans h.log
  | spawn h => exact h.log
  | move _ _ h => exact h.log
  | fail _ h => exact h.log
  | settle _ _ _ h => exact h.log
  | finish h => exact hreap.trans h.log
  | abandon h => exact habandon.trans h.log

/-- The scheduler goes on with an event. -/
def RunEvent.isSchedule : RunEvent → Bool
  | .schedule .. => true
  | _ => false

namespace SchedulerPhase

/-- The operation that the scheduler has chosen and not dispatched yet. It does not look at the
error log again before it dispatches it. -/
def chosen? : SchedulerPhase P → Option (ScheduledOperation P)
  | .gating next _ => some next
  | .judging next _ => some next
  | .admitting next _ => some next
  | _ => none

/-- How many steps a scheduler takes at most until it has stopped, once an error has been
reported. -/
def stepsLeft : SchedulerPhase P → Nat
  | .gating .. => 5
  | .judging .. => 4
  | .admitting .. => 3
  | .idle => 3
  | .awaitingPeers => 2
  | .dispatching _ => 2
  | .pulling => 1
  | .sleeping .. => 1
  | .draining => 0
  | .terminated _ => 0
  | .refused _ => 0
  | .broken _ => 0

/-- How a scheduler goes on once an error has been reported. -/
inductive WindsUp : SchedulerPhase P → SchedulerPhase P → Prop where
  | begins : WindsUp .idle .awaitingPeers
  | launches {phase : SchedulerPhase P} (h : phase = .idle ∨ phase = .awaitingPeers) :
      WindsUp phase .pulling
  | finishes : WindsUp (.dispatching []) .pulling
  | opensGate {next : ScheduledOperation P} {batch : List (ScheduledOperation P)} :
      WindsUp (.gating next batch) (.judging next batch)
  | admits {next : ScheduledOperation P} {batch : List (ScheduledOperation P)} :
      WindsUp (.judging next batch) (.admitting next batch)
  | dispatches {next : ScheduledOperation P} {batch : List (ScheduledOperation P)} :
      WindsUp (.admitting next batch) (.dispatching batch)
  | stops {phase phase' : SchedulerPhase P} (h : phase'.held? = none) : WindsUp phase phase'

variable {phase phase' : SchedulerPhase P}

/-- No operation is chosen any more; the one that has been chosen stays so or is not any more. -/
theorem WindsUp.chosen? (h : WindsUp phase phase') :
    phase'.chosen? = none ∨ phase'.chosen? = phase.chosen? := by
  cases h with
  | stops h => exact .inl (by cases phase' <;> simp_all [held?, SchedulerPhase.chosen?])
  | opensGate => exact .inr rfl
  | admits => exact .inr rfl
  | _ => exact .inl rfl

/-- With every step there are fewer left, until the scheduler has stopped. -/
theorem WindsUp.stepsLeft_lt (h : WindsUp phase phase') (hheld' : phase'.held? ≠ none) :
    phase'.stepsLeft < phase.stepsLeft := by
  cases h with
  | launches h => rcases h with rfl | rfl <;> simp [stepsLeft]
  | stops h => exact absurd h hheld'
  | begins => exact Nat.lt_succ_self 2
  | finishes => exact Nat.lt_succ_self 1
  | opensGate => exact Nat.lt_succ_self 4
  | admits => exact Nat.lt_succ_self 3
  | dispatches => exact Nat.lt_succ_self 2

/-- A scheduler that has chosen an operation goes on with it, or stops. -/
theorem GoesTo.windsUp (h : phase.GoesTo phase') (hchosen : phase.chosen? ≠ none) :
    phase.WindsUp phase' := by
  cases h with
  | opens h => rcases h with rfl | rfl <;> exact absurd rfl hchosen
  | opensGate => exact .opensGate
  | admits => exact .admits
  | dispatches => exact .dispatches
  | stops => exact .stops rfl
  | breaks => exact .stops rfl
  | _ => exact absurd rfl hchosen

/-- A scheduler that drains dispatches no more. -/
theorem GoesTo.held?_of_draining (h : GoesTo (.draining : SchedulerPhase P) phase') :
    phase'.held? = none := by
  cases h with
  | opens h => simp at h
  | _ => rfl

/-- A scheduler that has not stopped has a step left. -/
theorem stepsLeft_pos (h : phase.held? ≠ none) : 0 < phase.stepsLeft := by
  cases phase <;> simp_all [held?, stepsLeft]

end SchedulerPhase

namespace Run

section Scheduler

variable {setup : RunSetup κ} {r r' : Run P κ}

/-- The run proper begins with the first batch, unless the pools ask for too much. -/
theorem windsUp_launch (hphase : r.phase = .idle ∨ r.phase = .awaitingPeers) :
    r.phase.WindsUp (r.launch setup).phase := by
  unfold launch
  split
  · exact .stops rfl
  · exact .launches hphase

/-- A scheduler that looks for the next batch stops if there is an error when it has taken notice of
the handlers that have ended. -/
theorem held?_pull (herrors : r.reap.log.hasErrors = true) :
    (r.pull setup).phase.held? = none := by
  unfold pull
  split
  · rfl
  · split
    · rfl
    · simp only [herrors, if_true]
      rfl
    · simp only [herrors, if_true]
      rfl

/-- What has been reported is reported still when the scheduler has taken notice of handlers. -/
theorem hasErrors_reap (herrors : r.log.hasErrors = true) : r.reap.log.hasErrors = true := by
  refine ErrorLog.hasErrors_of_prefix ?_ herrors
  rw [entries_reap]
  exact List.prefix_append _ _

/-- A scheduler that has another operation to choose stops. -/
theorem windsUp_choose (herrors : r.log.hasErrors = true) {batch : List (ScheduledOperation P)}
    (hphase : r.phase = .dispatching batch) : r.phase.WindsUp (r.choose batch).phase := by
  rw [hphase]
  cases batch with
  | nil => exact .finishes
  | cons next batch =>
    simp only [choose, herrors, if_true]
    exact .stops rfl

/-- Once an error has been reported, every step of the scheduler is one of those. -/
theorem windsUp_of_scheduleStep (herrors : r.log.hasErrors = true) {now : Instant} {expired : Bool}
    (hs : r.scheduleStep setup now expired = some r') : r.phase.WindsUp r'.phase := by
  have hgoes := goesTo_of_scheduleStep hs
  unfold scheduleStep at hs
  split at hs
  case h_1 hphase =>
    obtain rfl := Option.some.inj hs
    obtain ⟨-, hlaunch⟩ | ⟨-, hwaits | ⟨e, hrefused⟩⟩ := begin_cases setup r
    · exact hlaunch ▸ windsUp_launch (.inl hphase)
    · rw [hphase, hwaits]
      exact .begins
    · exact .stops (by rw [hrefused]; rfl)
  case h_2 hphase =>
    obtain ⟨-, rfl⟩ | ⟨-, e, hrefused⟩ := awaitPeers_cases hs
    · exact windsUp_launch (.inr hphase)
    · exact .stops (by rw [hrefused]; rfl)
  case h_3 =>
    obtain rfl := Option.some.inj hs
    exact .stops (held?_pull (hasErrors_reap herrors))
  case h_4 first others hphase =>
    unfold wake at hs
    rw [if_pos herrors] at hs
    exact .stops (by rw [← Option.some.inj hs]; rfl)
  case h_5 batch hphase =>
    obtain rfl := Option.some.inj hs
    exact windsUp_choose herrors hphase
  -- What remains goes on with the chosen operation, or stops.
  case h_6 hphase => exact hgoes.windsUp (by simp [hphase, SchedulerPhase.chosen?])
  case h_7 hphase => exact hgoes.windsUp (by simp [hphase, SchedulerPhase.chosen?])
  case h_8 hphase => exact hgoes.windsUp (by simp [hphase, SchedulerPhase.chosen?])
  case h_9 hphase =>
    rw [hphase] at hgoes ⊢
    exact .stops hgoes.held?_of_draining
  all_goals simp at hs

/-- An event is a step of the scheduler, or it leaves the scheduler where it is, or it ends the
run. -/
theorem isSchedule_cases {e : RunEvent} (hstep : r.step setup e = some r') :
    (∃ now expired, e = .schedule now expired) ∨
      r'.phase = r.phase ∧ e.isSchedule = false ∨ r'.phase.held? = none := by
  by_cases he : ∃ now expired, e = .schedule now expired
  · exact .inl he
  · rcases phase_of_step hstep fun now expired h => he ⟨now, expired, h⟩ with
      hsame | ⟨-, finish, hterminated⟩
    · refine .inr (.inl ⟨hsame, ?_⟩)
      cases e with
      | schedule now expired => exact absurd ⟨now, expired, rfl⟩ he
      | _ => rfl
    · exact .inr (.inr (by rw [hterminated]; rfl))

/-- Once an error has been reported, every event leaves the scheduler where it is, or the scheduler
winds up. -/
theorem windsUp_of_step (herrors : r.log.hasErrors = true) {e : RunEvent}
    (hstep : r.step setup e = some r') :
    r'.phase = r.phase ∧ e.isSchedule = false ∨ r.phase.WindsUp r'.phase := by
  rcases isSchedule_cases hstep with ⟨now, expired, rfl⟩ | hother | hover
  · exact .inr (windsUp_of_scheduleStep herrors hstep)
  · exact .inl hother
  · exact .inr (.stops hover)

end Scheduler

/-- What a run that had an error in the state `r` has become since: it has dispatched nothing, or
the operation that was chosen in that state. -/
structure WoundUp (r s : Run P κ) : Prop where
  errors : s.log.hasErrors = true
  dispatched : s.dispatched = r.dispatched ∧
      (s.phase.chosen? = none ∨ s.phase.chosen? = r.phase.chosen?) ∨
    s.phase.chosen? = none ∧
      ∃ next, r.phase.chosen? = some next ∧ s.dispatched = r.dispatched.push next

section Run

variable {setup : RunSetup κ} {r s s' : Run P κ}

/-- Every event keeps it so. -/
theorem WoundUp.step (h : WoundUp r s) {e : RunEvent} (hstep : s.step setup e = some s') :
    WoundUp r s' := by
  refine ⟨ErrorLog.hasErrors_of_prefix (log_of_step hstep) h.errors, ?_⟩
  have hchosen : s'.phase.chosen? = none ∨ s'.phase.chosen? = s.phase.chosen? := by
    rcases windsUp_of_step h.errors hstep with ⟨hsame, -⟩ | hwinds
    · exact .inr (by rw [hsame])
    · exact hwinds.chosen?
  rcases dispatched_cases hstep with hsame | ⟨next, batch, hphase, hd⟩
  · rw [hsame]
    rcases h.dispatched with ⟨hnone, hkept⟩ | ⟨hover, hone⟩
    · refine .inl ⟨hnone, hchosen.elim .inl fun heq => ?_⟩
      rwa [heq]
    · exact .inr ⟨hchosen.elim id fun heq => heq.trans hover, hone⟩
  · -- The operation that is dispatched is the chosen one, so it is the first since the error.
    have hturn : s.phase.chosen? = some next := by
      rw [hphase]
      rfl
    have hover : s'.phase.chosen? = none := by
      rw [hd.phase]
      rfl
    rcases h.dispatched with ⟨hnone, hgone | hkept⟩ | ⟨hgone, -⟩
    · simp [hturn] at hgone
    · refine .inr ⟨hover, next, hkept.symm.trans hturn, ?_⟩
      rw [hd.dispatched, hnone]
    · simp [hturn] at hgone

/-- Where every step of the scheduler lowers a measure until it has stopped, a run that goes through
events without its scheduler having stopped has used up the measure. -/
theorem countP_isSchedule_le {motive : Run P κ → Prop} {measure : SchedulerPhase P → Nat}
    (hlowers : ∀ {s s' : Run P κ} {e : RunEvent}, motive s → s.step setup e = some s' →
      motive s' ∧ (s'.phase = s.phase ∧ e.isSchedule = false ∨
        (s'.phase.held? ≠ none → measure s'.phase < measure s.phase)))
    (h : motive r) {events : List RunEvent} (hs : r.steps setup events = some s)
    (hheld : s.phase.held? ≠ none) :
    events.countP RunEvent.isSchedule + measure s.phase ≤ measure r.phase := by
  induction events generalizing r with
  | nil =>
    obtain rfl := Option.some.inj hs
    simp
  | cons e rest ih =>
    obtain ⟨r₁, hstep, hrest⟩ := Option.bind_eq_some_iff.mp hs
    obtain ⟨hnext, hphase⟩ := hlowers h hstep
    have hlater := ih hnext hrest
    have hheld₁ : r₁.phase.held? ≠ none := fun hover =>
      hheld (Reaches.invariant (motive := fun s => s.phase.held? = none)
        (fun h hstep => over_of_step h hstep) ⟨rest, hrest⟩ hover)
    rcases hphase with ⟨hsame, hother⟩ | hless
    · rw [List.countP_cons_of_neg (by simp [hother]), ← hsame]
      exact hlater
    · have hlt := hless hheld₁
      have hcount : (e :: rest).countP RunEvent.isSchedule ≤
          rest.countP RunEvent.isSchedule + 1 := by
        rw [List.countP_cons]
        split_ifs <;> omega
      omega

/-- A run that goes through events without its scheduler having stopped has used up steps. -/
theorem stepsLeft_of_steps (herrors : r.log.hasErrors = true) {events : List RunEvent}
    (hs : r.steps setup events = some s) (hheld : s.phase.held? ≠ none) :
    events.countP RunEvent.isSchedule + s.phase.stepsLeft ≤ r.phase.stepsLeft := by
  refine countP_isSchedule_le (motive := fun s => s.log.hasErrors = true) ?_ herrors hs hheld
  intro s s' e herrors hstep
  refine ⟨ErrorLog.hasErrors_of_prefix (log_of_step hstep) herrors, ?_⟩
  exact (windsUp_of_step herrors hstep).imp_right fun hwinds => hwinds.stepsLeft_lt

end Run

/-- After an error has been reported, by whomever and at whatever moment, one operation at most is
dispatched in the whole rest of a run: the one that the scheduler had chosen at that moment, if it
had chosen one, and none if it was sleeping, looking for a batch or between two operations. Whatever
happens besides, the scheduler has stopped after five steps of its own. -/
theorem dispatched_after_report {setup : RunSetup κ} {r s : Run P κ} {events : List RunEvent}
    (herrors : r.log.hasErrors = true) (hs : r.steps setup events = some s) :
    (s.dispatched = r.dispatched ∨
      ∃ next, r.phase.chosen? = some next ∧ s.dispatched = r.dispatched.push next) ∧
    s.dispatched.size ≤ r.dispatched.size + 1 ∧
    (5 ≤ events.countP RunEvent.isSchedule → s.phase.held? = none) := by
  have h : WoundUp r s := Reaches.invariant (fun h hstep => h.step hstep) ⟨events, hs⟩
    ⟨herrors, .inl ⟨rfl, .inr rfl⟩⟩
  have hdispatched : s.dispatched = r.dispatched ∨
      ∃ next, r.phase.chosen? = some next ∧ s.dispatched = r.dispatched.push next :=
    h.dispatched.imp And.left And.right
  refine ⟨hdispatched, ?_, fun hcount => ?_⟩
  · rcases hdispatched with hsame | ⟨next, -, hone⟩
    · rw [hsame]
      exact Nat.le_succ _
    · rw [hone, Array.size_push]
  · by_contra hheld
    have hleft := stepsLeft_of_steps herrors hs hheld
    have hpos := SchedulerPhase.stepsLeft_pos hheld
    have hmost : r.phase.stepsLeft ≤ 5 := by
      cases r.phase <;> simp [SchedulerPhase.stepsLeft]
    omega

/-- Three operations that are due together. -/
def queuedRun : Run Unit Unit :=
  fresh (.ofList (["first", "second", "third"].map fun name =>
      .ok ⟨.independent name soloSetup.start (), false⟩)) (.ofPeers [])
    ⟨2, true, [], .receiving, Collector.fresh {} () false, false, none⟩ ErrorLog.empty

/-- They are one batch, but only one of them may be alive at a time. -/
def narrowSetup : RunSetup Unit :=
  { windowedSetup with config := { windowedSetup.config with maxInFlight := 1 } }

/-- An error is reported while the second operation waits for its permit. -/
def untilReport : List RunEvent :=
  List.replicate 7 (.schedule soloSetup.start false) ++ [.report "metrics service" "disk full"]

/-- The first operation ends, and the scheduler goes on as far as it can. -/
def sinceReport : List RunEvent :=
  [.execute 0 soloSetup.start, .answer 0 (.returned (.ok .null)) Duration.zero, .submit 0] ++
    List.replicate 3 (.schedule soloSetup.start false)

/-- The second operation still gets its permit; the third is not dispatched. -/
theorem dispatched_after_report_waiting : ∃ r s : Run Unit Unit,
    queuedRun.steps narrowSetup untilReport = some r ∧ r.log.hasErrors = true ∧
    r.steps narrowSetup sinceReport = some s ∧
    r.dispatched.map (·.operation.operationType) = #["first"] ∧
    s.dispatched.map (·.operation.operationType) = #["first", "second"] ∧
    (∃ next, r.phase.chosen? = some next ∧ s.dispatched = r.dispatched.push next) ∧
    s.phase.held? = none := by
  have hrun : (queuedRun.steps narrowSetup untilReport).bind (fun r =>
      (r.steps narrowSetup sinceReport).map fun s =>
        decide (r.log.hasErrors = true ∧
          r.dispatched.map (·.operation.operationType) = #["first"] ∧
          s.dispatched.map (·.operation.operationType) = #["first", "second"] ∧
          s.phase.held?.isNone = true)) = some true := by
    decide +kernel
  obtain ⟨r, hr, hmore⟩ := Option.bind_eq_some_iff.mp hrun
  obtain ⟨s, hs, hfacts⟩ := Option.map_eq_some_iff.mp hmore
  obtain ⟨herrors, hbefore, hafter, hover⟩ := of_decide_eq_true hfacts
  obtain ⟨hdispatched, -, -⟩ := dispatched_after_report herrors hs
  refine ⟨r, s, hr, herrors, hs, hbefore, hafter, hdispatched.resolve_left fun hsame => ?_,
    Option.isNone_iff_eq_none.mp hover⟩
  rw [hsame, hbefore] at hafter
  simp at hafter

end Run

end WorkloadReplay
