import WorkloadReplay.Proofs.Run.Fates
import WorkloadReplay.Proofs.Run.Pacing

/-!
# Gates do not stall

The tracker reports its watermark only when an operation is completed, and only if it goes up. Where
a run has no other peers this is enough for its gates: when every handler so far has come to a good
end, whatever was dispatched has been reported (`Run.Abreast.caughtUp`), and so the global
completion time has reached the start of every tracked operation before the gate, and the last
instant before the start of the run (`gate_is_open`).

What connects the two is that a good end of the handler of a tracked operation completes it in the
tracker (`completion?_of_isGood`), so that nothing is pending.
-/

namespace WorkloadReplay

variable {P κ : Type}

/-! ## Services with one slot -/

namespace CompletionService

/-- The number of slots stays the same. -/
theorem lasting_length (n : Nat) : Lasting (·.slots.length = n) where
  claim hs h := (grows_claim hs).length.trans h
  initiated hs h := (grows_reportInitiated hs).length.trans h
  completed hs h := (grows_reportCompleted hs).length.trans h

/-- In a service with one slot the global completion time is that of the slot. -/
theorem Sound.global_eq {s : CompletionService} {k : Nat} {slot : PeerSlot} (h : s.Sound)
    (hlength : s.slots.length = 1) (hk : s.slots[k]? = some slot) :
    s.global = slot.lastCompleted := by
  obtain ⟨only, hslots⟩ := List.length_eq_one_iff.mp hlength
  have hslot : slot = only := List.mem_singleton.mp (hslots ▸ List.mem_of_getElem? hk)
  have hglobal := h.global
  rw [hslots] at hglobal
  cases hg : s.global with
  | none =>
    rw [hg] at hglobal
    rw [hslot]
    simpa [LowMark] using hglobal
  | some g =>
    rw [hg] at hglobal
    rw [hslot]
    simpa using hglobal.2

end CompletionService

namespace Run

section Keeping

variable {setup : RunSetup κ} {ops : List (ScheduledOperation P)}
  {done : List (ScheduledOperation P × Nat)} {r r' : Run P κ}

/-- The service of a run has as many slots as in the beginning. -/
theorem length_slots_of_step {n : Nat} (h : r.completion.slots.length = n) {e : RunEvent}
    (hstep : r.step setup e = some r') : r'.completion.slots.length = n := by
  by_cases he : e = .completionShutdown
  · subst he
    obtain rfl := Option.some.inj hstep
    exact (CompletionService.grows_shutdown _).length.trans h
  · exact lasting_step (CompletionService.lasting_length n) h he hstep

/-- The operation at a gate is a gated one. -/
theorem isGated_of_reaches {operations : Schedule P} {completion : CompletionService}
    {metrics : MetricsPipeline κ} {log : ErrorLog}
    (hr : (fresh operations completion metrics log).Reaches setup r)
    {next : ScheduledOperation P} {batch : List (ScheduledOperation P)}
    (hphase : r.phase = .gating next batch) : next.operation.isGated = true := by
  refine hr.invariant (motive := fun s => ∀ next batch, s.phase = .gating next batch →
    next.operation.isGated = true) (fun {s s' e} h hstep next batch hgate => ?_)
    (fun next batch hgate => by simp [fresh] at hgate) next batch hphase
  rcases goesTo_of_step hstep with hsame | hgoes
  · exact h next batch (hsame ▸ hgate)
  -- Only the choice of a gated operation leads to a gate.
  · rw [hgate] at hgoes
    generalize s.phase = phase at hgoes
    cases hgoes with
    | opens _ hopening => exact hopening.elim
    | gates hgated => exact hgated

/-! ## Good ends and completions -/

/-- A handler of a tracked operation that comes to a good end completes it in the tracker, if it is
pending there. -/
theorem completion?_of_isGood {e : RunEvent} {d : Ending} (hd : r.ending? setup e = some d)
    (hgood : d.isGood = true) : ∃ x ∈ r.handlers, x.number = d.number ∧ ∀ t, r.tracker = some t →
      x.scheduled.tracked = true → x.scheduled.operation.scheduledStart ∈ t.pending →
        r.completion? e = some x.job := by
  have hd' := hd
  simp only [ending?, Option.bind_eq_bind, Option.bind_eq_some_iff] at hd'
  obtain ⟨number, hnumber, r', hstep, result', -, heq⟩ := hd'
  have htally := tally_of_step hstep
  rw [hd] at htally
  cases htally with
  | fail => simp [Ending.isGood, Ending.error?, ReplayError.ofResult?] at hgood
  | @settle x record metrics result hx hrecord hoffer =>
    refine ⟨x, (handler?_eq_some hx).1, rfl, fun t ht htracked hpending => ?_⟩
    obtain ⟨n, scheduled, phase⟩ := x
    obtain rfl : phase = .submitting record := hrecord
    obtain rfl : number = n := congrArg Ending.number (Option.some.inj heq)
    -- Its handler has a record, and so it neither waits for a worker nor for an answer.
    cases e with
    | submit m =>
      obtain rfl : m = number := Option.some.inj hnumber
      simp only at htracked hpending hx
      simp [completion?, hx, ht, hoffer, htracked, hpending, Handler.job]
    | execute m now =>
      obtain rfl : m = number := Option.some.inj hnumber
      simp only at hx
      simp [step, startCall, hx] at hstep
    | answer m answer elapsed =>
      obtain rfl : m = number := Option.some.inj hnumber
      simp only at hx
      simp [step, finishCall, hx] at hstep
    | _ => simp [RunEvent.handler?] at hnumber

/-- Among the operations that some events complete in the tracker are all tracked ones whose
handlers come to good ends. -/
theorem Sound.mem_completions (h : Sound setup ops done r) {events : List RunEvent}
    (hs : r.steps setup events = some r') {d : Ending} (hd : d ∈ r.endings setup events)
    (hgood : d.isGood = true) {x : ScheduledOperation P} (hx : (x, d.number) ∈ r'.trackedJobs) :
    (x, d.number) ∈ r.completions setup events := by
  induction events generalizing r done with
  | nil => simp [endings] at hd
  | cons e rest ih =>
    obtain ⟨s, hstep, hrest⟩ := Option.bind_eq_some_iff.mp hs
    have hsound := h.turn (turn_of_step hstep)
    rw [completions, hstep]
    rw [endings, hstep] at hd
    rcases List.mem_append.mp hd with hd | hd
    -- The handler ends with this event, or with a later one.
    · refine List.mem_append_left _ ?_
      obtain ⟨y, hy, hnumber, hcompletes⟩ := completion?_of_isGood (Option.mem_toList.mp hd) hgood
      obtain ⟨hmem, hnot⟩ := h.handlers y hy
      have hdispatched : r.dispatched[y.number]? = some y.scheduled := by
        rw [← Array.getElem?_toList]
        exact List.mem_zipIdx_iff_getElem?.mp hmem
      have hsize := (Array.getElem?_eq_some_iff.mp hdispatched).1
      -- The operation of the handler stands in the sequence at the number of the ending.
      have hsame : y.scheduled = x := by
        have hfinal := (hsound.steps hrest).getElem?_of_mem hx
        rw [← hnumber, h.getElem?_ops hsize, hdispatched] at hfinal
        exact Option.some.inj hfinal
      have htracked : y.scheduled.tracked = true := hsame ▸ (mem_trackedJobs.mp hx).2
      obtain ⟨t, ht⟩ : ∃ t, r.tracker = some t := by
        refine Option.ne_none_iff_exists'.mp fun hnone => ?_
        rw [(h.alone hnone).2.1] at hsize
        simp at hsize
      have hpending := (h.mem_pending_iff ht).mpr
        ⟨y.job, mem_trackedJobs.mpr ⟨hdispatched, htracked⟩, hnot, rfl⟩
      have hcompleted := hcompletes t ht htracked hpending
      rw [Handler.job, hsame, hnumber] at hcompleted
      exact Option.mem_toList.mpr hcompleted
    · exact List.mem_append_right _ (ih hsound hrest hd)

/-- No operation of a run whose handlers have all come to good ends is pending in its tracker. -/
theorem Sound.pending_eq_nil (h : Sound setup ops done r) {t : CompletionTracker}
    (ht : r.tracker = some t) {endings : List Ending}
    (hended : ∀ i < r.dispatched.size, ∃ d ∈ endings, d.number = i ∧ d.isGood = true)
    (hdone : ∀ d ∈ endings, d.isGood = true → ∀ x : ScheduledOperation P,
      (x, d.number) ∈ r.trackedJobs → (x, d.number) ∈ done) : t.pending = [] := by
  refine List.eq_nil_iff_forall_not_mem.mpr fun time hpending => ?_
  obtain ⟨⟨x, i⟩, hjob, hnot, -⟩ := (h.mem_pending_iff ht).mp hpending
  have hsize := (Array.getElem?_eq_some_iff.mp (mem_trackedJobs.mp hjob).1).1
  obtain ⟨d, hd, rfl, hgood⟩ := hended i hsize
  exact hnot (hdone d hd hgood x hjob)

/-- If the handlers of all operations have come to good ends, no handler has come to another one. -/
theorem Accounts.isGood {endings : List Ending} {left : List Nat} (h : Accounts endings left r)
    (hended : ∀ i < r.dispatched.size, ∃ d ∈ endings, d.number = i ∧ d.isGood = true) :
    ∀ d ∈ endings, d.isGood = true := by
  intro d hd
  obtain ⟨d', hd', hnumber, hgood⟩ := hended d.number (h.lt_size hd)
  have hnodup := (List.nodup_append'.mp (List.nodup_append'.mp h.nodup).1).1
  obtain rfl := List.inj_on_of_nodup_map hnodup hd' hd hnumber
  exact hgood

end Keeping

/-- Each gated operation waits for a time before the start of a run, or follows a tracked operation
that starts no earlier than the time for which it waits. -/
def Anchored (start : Instant) (ops : List (ScheduledOperation P)) : Prop :=
  ∀ (i : Nat) (x : ScheduledOperation P), ops[i]? = some x → x.operation.isGated = true →
    x.operation.dependencyTime < start ∨
      ∃ j < i, ∃ y : ScheduledOperation P, ops[j]? = some y ∧ y.tracked = true ∧
        x.operation.dependencyTime ≤ y.operation.scheduledStart

/-- In a run whose only peer is the local one, and whose gated operations are anchored, the gate at
which the scheduler stands is open when the handlers of all operations dispatched before have come
to good ends: the global completion time has reached the dependency time, and the scheduler goes on
whatever the clock says. -/
theorem gate_is_open {setup : RunSetup κ} {ops : Schedule P} {peer : String}
    {metrics : MetricsPipeline κ} {log : ErrorLog} {events : List RunEvent} {r : Run P κ}
    {next : ScheduledOperation P} {batch : List (ScheduledOperation P)}
    (hanchored : Anchored setup.start ops.operations)
    (hr : (fresh ops (.ofPeers [peer]) metrics log).steps setup events = some r)
    (hphase : r.phase = .gating next batch)
    (hended : ∀ i < r.dispatched.size, ∃ d ∈
      (fresh ops (.ofPeers [peer]) metrics log).endings setup events,
        d.number = i ∧ d.isGood = true) :
    r.completion.hasReached next.operation.dependencyTime = true ∧
    ∀ now expired, r.step setup (.schedule now expired) = some (r.goTo (.judging next batch)) := by
  have hfresh : Sound setup ops.operations [] (fresh ops (.ofPeers [peer]) metrics log) :=
    sound_fresh (by simp)
  have hsound := hfresh.steps hr
  rw [List.nil_append] at hsound
  have hkeeps := (keepsPace_fresh setup _ _ metrics log).steps hfresh hr
  rw [List.nil_append] at hkeeps
  obtain ⟨t, ht⟩ :=
    hsound.exists_tracker (by simp [hphase]) (by simp [hphase, SchedulerPhase.held?])
  have habreast := hkeeps t ht
  have haccounted := (accounted_fresh setup ops (.ofPeers [peer]) metrics log).steps hr
  rw [List.nil_append] at haccounted
  obtain ⟨left, haccounts⟩ := haccounted.exists_accounts
  -- Nothing is pending, so the tracker has reported all that was initiated.
  have hpending : t.pending = [] := hsound.pending_eq_nil ht hended fun d hd hgood x hx =>
    hfresh.mem_completions hr hd hgood hx
  have hreported := habreast.caughtUp (haccounts.isGood hended) hpending
  have hglobal : r.completion.global = t.lastSubmitted := by
    obtain ⟨seeds, -, slot, hslot, -, hslotAccounts⟩ := hsound.linked t ht
    have hlength : r.completion.slots.length = 1 :=
      Reaches.invariant (motive := fun s => s.completion.slots.length = 1)
        (fun h hstep => length_slots_of_step h hstep) ⟨events, hr⟩ rfl
    rw [hsound.service.global_eq hlength hslot, hslotAccounts.submitted]
  have hinitiated : some next.operation.dependencyTime ≤ t.highestInitiated := by
    have hgated := isGated_of_reaches ⟨events, hr⟩ hphase
    have hnext := hsound.getElem?_held (by rw [hphase]; rfl)
    rcases hanchored _ next hnext hgated with hbefore | ⟨j, hj, y, hy, htracked, hle⟩
    · exact habreast.seeded _ hbefore
    · rw [hsound.getElem?_ops hj] at hy
      exact optionLe_trans (Option.some_le_some.mpr hle)
        (habreast.jobs (y, j) (mem_trackedJobs.mpr ⟨hy, htracked⟩))
  have hreached : r.completion.hasReached next.operation.dependencyTime = true :=
    CompletionService.hasReached_iff.mpr (hglobal ▸ optionLe_trans hinitiated hreported)
  refine ⟨hreached, fun now expired => ?_⟩
  simp [step, scheduleStep, hphase, gate, awaited, hreached]

/-- The gated read of the streams that have one operation at its dependency time: when the handler
of that operation has ended, the scheduler stands at the open gate. -/
theorem gate_is_open_single : ∃ (r : Run Unit Unit) (batch : List (ScheduledOperation Unit)),
    (localRun singleStreams).steps localSetup (goesOn 6 ++ handles 0 ++ goesOn 3) = some r ∧
    r.phase = .gating ⟨gatedRead, false⟩ batch ∧
    r.completion.hasReached gatedRead.dependencyTime = true := by
  have hops : (merge singleStreams).operations =
      [⟨.independent "first" ⟨10, by decide⟩ (), true⟩, ⟨gatedRead, false⟩] := by
    decide +kernel
  have hanchored : Anchored localSetup.start (merge singleStreams).operations := by
    rw [hops]
    rintro i x hx hgated
    match i with
    | 0 =>
      obtain rfl := Option.some.inj hx
      simp [Operation.isGated, Operation.independent] at hgated
    | 1 =>
      obtain rfl := Option.some.inj hx
      exact .inr ⟨0, by decide, _, rfl, rfl, by decide⟩
    | i + 2 => simp at hx
  have hrun : ((localRun singleStreams).steps localSetup
      (goesOn 6 ++ handles 0 ++ goesOn 3)).map (fun r =>
        decide (r.phase.gated? = some ⟨gatedRead, false⟩ ∧ r.dispatched.size = 1)) = some true := by
    decide +kernel
  have hended : ((localRun singleStreams).endings localSetup
      (goesOn 6 ++ handles 0 ++ goesOn 3)).any (fun d => d.number == 0 && d.isGood) = true := by
    decide +kernel
  obtain ⟨r, hr, hfacts⟩ := Option.map_eq_some_iff.mp hrun
  obtain ⟨hgated, hsize⟩ := of_decide_eq_true hfacts
  obtain ⟨batch, hphase⟩ := SchedulerPhase.gated?_eq_some.mp hgated
  obtain ⟨d, hd, hgood⟩ := List.any_eq_true.mp hended
  obtain ⟨hnumber, hgood⟩ := Bool.and_eq_true_iff.mp hgood
  refine ⟨r, batch, hr, hphase, (gate_is_open hanchored hr hphase fun i hi => ?_).1⟩
  have hi : i = 0 := by rw [hsize] at hi; omega
  exact ⟨d, hd, (beq_iff_eq.mp hnumber).trans hi.symm, hgood⟩

end Run

end WorkloadReplay
