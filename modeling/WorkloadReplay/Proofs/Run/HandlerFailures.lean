import WorkloadReplay.Proofs.Run.Batching
import WorkloadReplay.Proofs.Run.Refusals
import WorkloadReplay.Proofs.Run.WindingUp

/-!
# How a run winds up after a handler has failed

The error of a handler is not in the log when the handler ends. It comes there when the scheduler
takes notice of the handler, and that happens when the scheduler looks for the next batch, or
drains. Between two operations of a batch it looks at the log, but takes no notice of handlers.

So after a handler has failed the scheduler takes no other batch, and the error is reported at the
end of the run at the latest; but the rest of the batch that it holds may still be dispatched
(`Run.dispatched_after_failure`). Without windows a batch is one operation. With a window there is
no bound on a batch, and `Run.batch_after_failure` is a run that dispatches two operations after a
failure that nobody has reported.
-/

namespace WorkloadReplay

variable {P κ : Type}

namespace SchedulerPhase

/-- How many steps a scheduler takes at most until it has dispatched what it holds and looked for
the next batch. -/
def batchSteps : SchedulerPhase P → Nat
  | .sleeping _ others => 4 * others.length + 7
  | .dispatching batch => 4 * batch.length + 2
  | .gating _ batch => 4 * batch.length + 5
  | .judging _ batch => 4 * batch.length + 4
  | .admitting _ batch => 4 * batch.length + 3
  | .idle => 3
  | .awaitingPeers => 2
  | .pulling => 1
  | _ => 0

variable {phase phase' : SchedulerPhase P}

/-- There are four steps for each operation, and three besides. -/
theorem batchSteps_le (phase : SchedulerPhase P) :
    phase.batchSteps ≤ 4 * (phase.held?.getD []).length + 3 := by
  cases phase <;> simp [batchSteps, held?] <;> omega

/-- A scheduler that has not stopped has a step left. -/
theorem batchSteps_pos (h : phase.held? ≠ none) : 0 < phase.batchSteps := by
  cases phase <;> simp_all [held?, batchSteps]

/-- With every step that does not take a batch there are fewer left, until the scheduler has
stopped. -/
theorem GoesTo.batchSteps_lt (h : phase.GoesTo phase')
    (hbegun : ¬ (phase = .idle ∨ phase = .awaitingPeers)) (hpulling : phase ≠ .pulling)
    (hheld' : phase'.held? ≠ none) : phase'.batchSteps < phase.batchSteps := by
  cases h with
  | opens h => exact absurd h hbegun
  | sleeps => exact absurd rfl hpulling
  | hurries => exact absurd rfl hpulling
  | finishes => exact Nat.lt_succ_self 1
  | stops => exact absurd rfl hheld'
  | breaks => exact absurd rfl hheld'
  | ends => exact absurd rfl hheld'
  | _ => simp only [batchSteps, List.length_cons]; omega

end SchedulerPhase

namespace Run

/-! ## Errors that will be reported -/

section Errors

variable {setup : RunSetup κ} {r r' : Run P κ} {endings : List Ending}

/-- A handler has failed, or something else has: an error is in the log, or it will be when the
scheduler takes notice of the handlers that have ended. -/
def HasFailed (r : Run P κ) : Prop := r.reap.log.hasErrors = true

/-- Where only the log may grow, what will have been reported is reported then, too. -/
theorem SameTally.log_reap (h : SameTally r r') :
    r.reap.log.entries.Sublist r'.reap.log.entries := by
  rw [entries_reap, entries_reap, h.finished]
  exact h.log.sublist.append_right _

/-- The errors of handlers that have ended are reported when one more has ended. -/
theorem log_reap_endHandler {s : Run P κ} (hlog : s.log = r.log)
    (hfinished : s.finished = r.finished) (number : Nat) (result : Except ReplayError Unit) :
    r.reap.log.entries.Sublist (s.endHandler number result).reap.log.entries := by
  have hentries : (s.endHandler number result).reap.log.entries = r.log.entries ++
      ((r.finished ++ [result]).filterMap ReplayError.ofResult?).map ReplayError.asReported := by
    rw [entries_reap]
    simp only [endHandler, hlog, hfinished]
  rw [hentries, entries_reap, List.filterMap_append, List.map_append]
  exact (List.sublist_append_left _ _).append_left _

/-- Every event leaves what will have been reported. -/
theorem log_reap_of_step {e : RunEvent} (hstep : r.step setup e = some r') :
    r.reap.log.entries.Sublist r'.reap.log.entries := by
  have hreap : r.reap.log.entries.Sublist r.reap.reap.log.entries := by
    rw [entries_reap r.reap]
    exact List.sublist_append_left _ _
  have htally := tally_of_step hstep
  generalize r.ending? setup e = d at htally
  -- An event may report what was yet to be reported, or let one more handler end. It never takes an
  -- error back.
  cases htally with
  | same h => exact h.log_reap
  | @consume metrics report _ h =>
    have hmetrics : r.reap.log.entries = (reap { r with metrics := metrics }).log.entries := rfl
    exact hmetrics ▸ h.log_reap
  | reap h => exact hreap.trans h.log_reap
  | @spawn next h =>
    have hspawn : r.reap.log.entries = (r.spawn next).reap.log.entries := rfl
    exact hspawn ▸ h.log_reap
  | @move x phase _ _ h =>
    have hmove : r.reap.log.entries = (r.setPhase x.number phase).reap.log.entries := rfl
    exact hmove ▸ h.log_reap
  | fail _ h => exact (log_reap_endHandler rfl rfl _ _).trans h.log_reap
  | @settle x record metrics result _ _ _ h =>
    have hlog : (r.recorded metrics x.number record result).log = r.log := rfl
    exact (log_reap_endHandler hlog rfl _ _).trans h.log_reap
  | finish h => exact hreap.trans h.log_reap
  | abandon h =>
    refine List.Sublist.trans ?_ h.log_reap
    rw [entries_reap (r.reap.abandon setup), entries_abandon, List.append_assoc]
    exact List.sublist_append_left _ _

/-- Every event leaves a run failed. -/
theorem HasFailed.step (h : HasFailed r) {e : RunEvent} (hstep : r.step setup e = some r') :
    HasFailed r' := by
  unfold HasFailed ErrorLog.hasErrors at h ⊢
  rw [Bool.not_eq_true', List.isEmpty_eq_false_iff] at h ⊢
  intro hnil
  exact h (List.sublist_nil.mp (hnil ▸ log_reap_of_step hstep))

/-- The errors with which handlers have ended are reported once the scheduler has taken notice of
the handlers. -/
theorem Accounted.reported (h : Accounted setup endings r) {d : Ending} (hd : d ∈ endings)
    {e : ReplayError} (he : d.error? = some e) : e.asReported ∈ r.reap.log.entries := by
  have hmem : e.asReported ∈ (endings.filterMap Ending.error?).map ReplayError.asReported :=
    List.mem_map_of_mem (List.mem_filterMap.mpr ⟨d, hd, he⟩)
  rcases h with ⟨-, hopen⟩ | ⟨-, left, hclosed⟩
  · -- Nothing is left to be taken notice of.
    obtain ⟨absorbed, herrors, hlog⟩ := hopen.reap.reported
    have habsorbed : endings.filterMap Ending.error? = absorbed :=
      herrors.trans (List.append_nil _)
    exact hlog.subset (habsorbed ▸ hmem)
  · rw [entries_reap, hclosed.finished]
    exact List.mem_append_left _ (hclosed.reported.subset (List.mem_append_left _ hmem))

end Errors

/-! ## What is dispatched after a failure -/

/-- What a run has become since a state in which its scheduler held some operations: the scheduler
has dispatched some of them in order, and it holds the others or has stopped. -/
structure UsesUp (held : List (ScheduledOperation P)) (r s : Run P κ)
    (taken : List (ScheduledOperation P)) : Prop where
  dispatched : s.dispatched.toList = r.dispatched.toList ++ taken
  gone : taken <+: held
  rest : ∀ left, s.phase.held? = some left → taken ++ left = held

section Since

variable {setup : RunSetup κ} {ops : Schedule P} {held taken : List (ScheduledOperation P)}
  {r s s' : Run P κ}

/-- After a failure every event keeps it so, for the scheduler takes no other batch. -/
theorem UsesUp.step (h : UsesUp held r s taken) (hfailed : HasFailed s) {e : RunEvent}
    (hstep : s.step setup e = some s') : ∃ taken', UsesUp held r s' taken' := by
  cases proceeds_of_step hstep with
  | stops hover hdispatched =>
    refine ⟨taken, hdispatched ▸ h.dispatched, h.gone, fun left hleft => ?_⟩
    simp [hover] at hleft
  | stays hheld _ _ hdispatched =>
    exact ⟨taken, hdispatched ▸ h.dispatched, h.gone, fun left hleft => h.rest left (hheld ▸ hleft)⟩
  | takes _ _ hcalm =>
    -- The scheduler takes a batch only where it has found no error.
    unfold HasFailed at hfailed
    simp [hcalm] at hfailed
  | @wakes first others _ hphase hphase' _ _ _ hdispatched =>
    refine ⟨taken, hdispatched ▸ h.dispatched, h.gone, fun left hleft => h.rest left ?_⟩
    rw [hphase'] at hleft
    rw [hphase]
    exact hleft
  | @dispatches next batch hphase hd =>
    -- The operation that is dispatched is the first of those that are held.
    have hrest : taken ++ next :: batch = held := h.rest _ (by rw [hphase]; rfl)
    have hsplit : (taken ++ [next]) ++ batch = held := by
      rw [← hrest, List.append_assoc]
      rfl
    refine ⟨taken ++ [next], ?_, ⟨batch, hsplit⟩, fun left hleft => ?_⟩
    · rw [hd.dispatched, Array.toList_push, h.dispatched, List.append_assoc]
    · rw [hd.phase] at hleft
      obtain rfl := Option.some.inj hleft
      exact hsplit

/-- Nor does it after any number of events. -/
theorem usesUp_of_steps (hfailed : HasFailed r) {events : List RunEvent}
    (hs : r.steps setup events = some s) :
    ∃ taken, UsesUp (r.phase.held?.getD []) r s taken := by
  have hboth : HasFailed s ∧ ∃ taken, UsesUp (r.phase.held?.getD []) r s taken := by
    refine Reaches.invariant (motive := fun s =>
      HasFailed s ∧ ∃ taken, UsesUp (r.phase.held?.getD []) r s taken) ?_ ⟨events, hs⟩ ?_
    · rintro s s' e ⟨hfailed, taken, huses⟩ hstep
      exact ⟨hfailed.step hstep, huses.step hfailed hstep⟩
    · refine ⟨hfailed, [], (List.append_nil _).symm, List.nil_prefix, fun left hleft => ?_⟩
      rw [hleft]
      rfl
  exact hboth.2

/-- A run that has dispatched an operation has begun. -/
theorem hasBegun_or_empty {completion : CompletionService} {metrics : MetricsPipeline κ}
    {log : ErrorLog} (hr : (fresh ops completion metrics log).Reaches setup r) :
    r.HasBegun ∨ r.dispatched = #[] := by
  refine hr.invariant (motive := fun s => s.HasBegun ∨ s.dispatched = #[])
    (fun {s s' e} h hstep => ?_) (.inr rfl)
  rcases h with hbegun | hempty
  · exact .inl (hasBegun_of_step hbegun hstep)
  · refine (dispatched_cases hstep).symm.imp (fun ⟨next, batch, hphase, _⟩ => ?_)
      fun hsame => hsame.trans hempty
    exact hasBegun_of_step (by simp [HasBegun, hphase]) hstep

/-- After a failure the scheduler has stopped when it has gone through what it holds. -/
theorem batchSteps_of_steps (hbegun : r.HasBegun) (hfailed : HasFailed r) {events : List RunEvent}
    (hs : r.steps setup events = some s) (hheld : s.phase.held? ≠ none) :
    events.countP RunEvent.isSchedule + s.phase.batchSteps ≤ r.phase.batchSteps := by
  refine countP_isSchedule_le (motive := fun s => s.HasBegun ∧ HasFailed s) ?_ ⟨hbegun, hfailed⟩ hs
    hheld
  rintro s s' e ⟨hbegun, hfailed⟩ hstep
  refine ⟨⟨hasBegun_of_step hbegun hstep, hfailed.step hstep⟩, ?_⟩
  rcases isSchedule_cases hstep with ⟨now, expired, rfl⟩ | hother | hover
  · refine .inr fun hheld' => (goesTo_of_scheduleStep hstep).batchSteps_lt ?_ ?_ hheld'
    · unfold HasBegun at hbegun
      rintro (hphase | hphase) <;> simp [hphase] at hbegun
    · intro hphase
      simp only [Run.step, scheduleStep, hphase] at hstep
      obtain rfl := Option.some.inj hstep
      exact hheld' (held?_pull hfailed)
  · exact .inl hother
  · exact .inr fun hheld' => absurd hover hheld'

/-- What a run holds is the rest of one of its batches, and without windows it is one operation at
most. -/
theorem held_suffix {completion : CompletionService} {metrics : MetricsPipeline κ}
    {log : ErrorLog} (hr : (fresh ops completion metrics log).Reaches setup r)
    (hheld : r.phase.held? = some held) :
    (held ≠ [] → ∃ b ∈ ops.batches setup.config.window, held <:+ b.operations) ∧
      (setup.config.window = none → held.length ≤ 1) := by
  have hstands : Stands setup.config.window ops (fun _ => True) r := by
    refine hr.invariant (motive := Stands setup.config.window ops fun _ => True)
      (fun h hstep => ?_) (stands_fresh _ ops _ completion metrics log)
    exact h.step hstep (fun _ h => h) (fun _ _ _ _ => trivial) fun _ _ => trivial
  rcases hstands held hheld with hahead | ⟨b, hwithin, -⟩
  · rw [hahead.held]
    exact ⟨fun hne => absurd rfl hne, fun _ => Nat.zero_le 1⟩
  · obtain ⟨earlier, gone, -, hoperations, -⟩ := hwithin.place
    have hsuffix : held <:+ b.operations := ⟨gone, hoperations.symm⟩
    refine ⟨fun _ => ⟨b, hwithin.mem, hsuffix⟩, fun hnone => ?_⟩
    have hothers := (keeps_of_mem_batches hwithin.mem).alone hnone
    calc held.length ≤ b.operations.length := hsuffix.length_le
      _ = 1 := by rw [Batch.operations, hothers, List.length_singleton]

end Since

/-- After the handler of an operation has ended with an error, whatever happens, a run dispatches
nothing but operations that its scheduler holds already, in order: the rest of one batch, and so one
operation at most without windows. The scheduler has stopped after four steps for each of them and
three more, and at the end of the run the error is reported. -/
theorem dispatched_after_failure {setup : RunSetup κ} {operations : Schedule P}
    {completion : CompletionService} {metrics : MetricsPipeline κ} {log : ErrorLog}
    {before after : List RunEvent} {r s : Run P κ}
    (hr : (fresh operations completion metrics log).steps setup before = some r) {d : Ending}
    (hd : d ∈ (fresh operations completion metrics log).endings setup before) {e : ReplayError}
    (he : d.error? = some e) (hs : r.steps setup after = some s) :
    ∃ taken : List (ScheduledOperation P),
      s.dispatched.toList = r.dispatched.toList ++ taken ∧
      taken <+: r.phase.held?.getD [] ∧
      (taken ≠ [] → ∃ b ∈ operations.batches setup.config.window, taken <:+: b.operations) ∧
      (setup.config.window = none → taken.length ≤ 1) ∧
      (4 * (r.phase.held?.getD []).length + 3 ≤ after.countP RunEvent.isSchedule →
        s.phase.held? = none) ∧
      (s.phase.IsTerminated → e.asReported ∈ s.log.entries) := by
  have haccounted := (accounted_fresh setup operations completion metrics log).steps hr
  rw [List.nil_append] at haccounted
  have hfailed : HasFailed r := by
    have hmem := haccounted.reported hd he
    unfold HasFailed ErrorLog.hasErrors
    rw [Bool.not_eq_true', List.isEmpty_eq_false_iff]
    exact List.ne_nil_of_mem hmem
  -- The failed handler's operation has been dispatched, so the run has begun.
  have hbegun : r.HasBegun := by
    obtain ⟨left, haccounts⟩ := haccounted.exists_accounts
    refine (hasBegun_or_empty ⟨before, hr⟩).resolve_right fun hempty => ?_
    have hlt := haccounts.lt_size hd
    simp [hempty] at hlt
  obtain ⟨taken, huses⟩ := usesUp_of_steps hfailed hs
  -- What is dispatched was held, and what was held was the rest of a batch.
  have hheld : (taken ≠ [] → ∃ b ∈ operations.batches setup.config.window,
      taken <:+: b.operations) ∧ (setup.config.window = none → taken.length ≤ 1) := by
    have hgone := huses.gone
    cases hheld : r.phase.held? with
    | none =>
      rw [hheld, Option.getD_none] at hgone
      obtain rfl := List.prefix_nil.mp hgone
      exact ⟨fun hne => absurd rfl hne, fun _ => Nat.zero_le 1⟩
    | some held =>
      rw [hheld, Option.getD_some] at hgone
      obtain ⟨hbatch, hlength⟩ := held_suffix ⟨before, hr⟩ hheld
      refine ⟨fun hne => ?_, fun hnone => hgone.length_le.trans (hlength hnone)⟩
      obtain ⟨b, hb, hsuffix⟩ := hbatch fun hnil => hne (List.prefix_nil.mp (hnil ▸ hgone))
      exact ⟨b, hb, hgone.isInfix.trans hsuffix.isInfix⟩
  refine ⟨taken, huses.dispatched, huses.gone, hheld.1, hheld.2, fun hcount => ?_, fun hover => ?_⟩
  · -- A scheduler that still held something would have a step left.
    by_contra hheld
    have hleft := batchSteps_of_steps hbegun hfailed hs hheld
    have hmost := r.phase.batchSteps_le
    have hpos : 0 < s.phase.batchSteps := SchedulerPhase.batchSteps_pos hheld
    omega
  · have hends := haccounted.steps hs
    obtain ⟨-, left, hclosed⟩ := hends.resolve_left fun hopen => hopen.1 hover
    have hmem := hends.reported (List.mem_append_left _ hd) he
    rwa [entries_reap, hclosed.finished, List.filterMap_nil, List.map_nil, List.append_nil] at hmem

/-- The first of three operations of a batch is dispatched, and its call breaks down. -/
def untilFailure : List RunEvent :=
  List.replicate 5 (.schedule soloSetup.start false) ++
    [.execute 0 soloSetup.start, .answer 0 (.panicked "no such table") Duration.zero]

/-- The scheduler goes on through its batch. -/
def throughBatch : List RunEvent := List.replicate 6 (.schedule soloSetup.start false)

/-- Then the run comes to its end. -/
def untilTheEnd : List RunEvent :=
  throughBatch ++ List.replicate 2 (.schedule soloSetup.start false) ++
    [.execute 1 soloSetup.start, .answer 1 (.returned (.ok .null)) Duration.zero, .submit 1,
      .execute 2 soloSetup.start, .answer 2 (.returned (.ok .null)) Duration.zero, .submit 2] ++
    List.replicate 2 (.schedule soloSetup.start false)

/-- The other two operations of the batch are dispatched, and the failure is reported when they are
done. -/
theorem dispatched_after_failure_windowed : ∃ r s : Run Unit Unit,
    queuedRun.steps windowedSetup untilFailure = some r ∧
    r.steps windowedSetup untilTheEnd = some s ∧ s.phase.IsTerminated ∧
    (callPanicked "no such table").asReported ∈ s.log.entries ∧
    ∃ taken : List (ScheduledOperation Unit), taken.length = 2 ∧
      s.dispatched.toList = r.dispatched.toList ++ taken ∧
      ∃ b ∈ Schedule.batches windowedSetup.config.window queuedRun.operations,
        taken <:+: b.operations := by
  have hrun : (queuedRun.steps windowedSetup untilFailure).bind (fun r =>
      (r.steps windowedSetup untilTheEnd).map fun s =>
        decide (r.dispatched.size = 1 ∧ s.dispatched.size = 3 ∧
          (match s.phase with | .terminated _ => true | _ => false) = true)) = some true := by
    decide +kernel
  have hending : ∃ d ∈ queuedRun.endings windowedSetup untilFailure,
      d.error? = some (callPanicked "no such table") := by
    decide +kernel
  obtain ⟨r, hr, hmore⟩ := Option.bind_eq_some_iff.mp hrun
  obtain ⟨s, hs, hfacts⟩ := Option.map_eq_some_iff.mp hmore
  obtain ⟨hbefore, hafter, hterminated⟩ := of_decide_eq_true hfacts
  obtain ⟨d, hd, he⟩ := hending
  obtain ⟨taken, hdispatched, -, hbatch, -, -, hreported⟩ := dispatched_after_failure hr hd he hs
  have hlength : taken.length = 2 := by
    have hsizes := congrArg List.length hdispatched
    rw [List.length_append, Array.length_toList, Array.length_toList] at hsizes
    omega
  have hover : s.phase.IsTerminated := by
    split at hterminated
    · rename_i finish hphase
      exact ⟨finish, hphase⟩
    · simp at hterminated
  refine ⟨r, s, hr, hs, hover, hreported hover, taken, hlength, hdispatched, hbatch ?_⟩
  exact List.ne_nil_of_length_pos (by omega)

/-- After a failure that nobody has reported, two operations are dispatched, for they are in the
batch that the scheduler holds. -/
theorem batch_after_failure : ∃ r s : Run Unit Unit,
    queuedRun.steps windowedSetup untilFailure = some r ∧
    (∃ d ∈ queuedRun.endings windowedSetup untilFailure,
      d.error? = some (callPanicked "no such table")) ∧
    r.steps windowedSetup throughBatch = some s ∧ s.log.entries = [] ∧
    ¬ s.dispatched.size ≤ r.dispatched.size + 1 := by
  have hrun : (queuedRun.steps windowedSetup untilFailure).bind (fun r =>
      (r.steps windowedSetup throughBatch).map fun s =>
        decide (s.log.entries = [] ∧ ¬ s.dispatched.size ≤ r.dispatched.size + 1)) =
      some true := by
    decide +kernel
  have hending : ∃ d ∈ queuedRun.endings windowedSetup untilFailure,
      d.error? = some (callPanicked "no such table") := by
    decide +kernel
  obtain ⟨r, hr, hmore⟩ := Option.bind_eq_some_iff.mp hrun
  obtain ⟨s, hs, hfacts⟩ := Option.map_eq_some_iff.mp hmore
  obtain ⟨hlog, hsize⟩ := of_decide_eq_true hfacts
  exact ⟨r, s, hr, hending, hs, hlog, hsize⟩

end Run

end WorkloadReplay
