import WorkloadReplay.Proofs.Run.Accounting
import WorkloadReplay.Proofs.Run.Endings

/-!
# Completed operations in the tracker

A handler whose record is accepted tells the tracker that its operation is completed, and ends with
an error if the tracker refuses that. As long as nobody closes the completion time service, this
does not happen: a run that takes part with other peers has every operation of a handler pending in
its tracker (`Run.Sound`), and a run alone has no tracker. So an accepted record and a good end of
its handler are the same thing (`Steady.isGood_of_mem_endings`).
-/

namespace WorkloadReplay

variable {P κ : Type}

namespace Run

section Open

variable {setup : RunSetup κ} {r r' : Run P κ} {p : CompletionService → Prop}

/-- The seeds take nothing lasting away from the service. -/
theorem lasting_seed (hp : CompletionService.Lasting p) (h : p r.completion) (start : Instant)
    (t : CompletionTracker) : p (r.seed start t).completion := by
  unfold seed
  split
  · exact h
  · rename_i first hfirst
    have hkept := hp.seed h t first
    split
    · rename_i hs
      rw [hs] at hkept
      exact hkept
    · rename_i t' s' hs
      rw [hs] at hkept
      dsimp only
      split
      · exact hkept
      · rename_i second hsecond
        have hkept' := hp.seed hkept t' second
        split
        · rename_i hs'
          rw [hs'] at hkept'
          exact hkept'
        · rename_i hs'
          rw [hs'] at hkept'
          exact hkept'

/-- Nor does the beginning of a run. -/
theorem lasting_begin (hp : CompletionService.Lasting p) (h : p r.completion) :
    p (r.begin setup).completion := by
  unfold begin
  split_ifs
  · unfold launch
    split <;> exact h
  · split
    · exact h
    · rename_i k s hclaim
      exact lasting_seed hp (hp.claim hclaim h) _ _

/-- Nor does the dispatching of an operation. -/
theorem Dispatches.lasting {next : ScheduledOperation P} {batch : List (ScheduledOperation P)}
    (hd : Dispatches r r' next batch) (hp : CompletionService.Lasting p) (h : p r.completion) :
    p r'.completion := by
  by_cases hnone : r.tracker = none ∨ next.tracked = false
  · exact (hd.untracked hnone).2 ▸ h
  · obtain ⟨hsome, htracked⟩ := not_or.mp hnone
    obtain ⟨t, ht⟩ := Option.ne_none_iff_exists'.mp hsome
    obtain ⟨t', -, hcall⟩ := hd.tracker t ht (Bool.not_eq_false _ ▸ htracked)
    have hkept := hp.initiate h t next.operation.scheduledStart
    rwa [hcall] at hkept

/-- No step of the scheduler takes anything lasting away. -/
theorem lasting_scheduleStep (hp : CompletionService.Lasting p) (h : p r.completion)
    {now : Instant} {expired : Bool} (hs : r.scheduleStep setup now expired = some r') :
    p r'.completion := by
  unfold scheduleStep at hs
  split at hs
  case h_1 hphase =>
    obtain rfl := Option.some.inj hs
    exact lasting_begin hp h
  case h_2 hphase => exact (quiet_awaitPeers hphase hs).completion ▸ h
  case h_3 hphase =>
    obtain rfl := Option.some.inj hs
    exact (quiet_pull hphase).completion ▸ h
  case h_4 first others hphase => exact (quiet_wake hphase hs).completion ▸ h
  case h_5 batch hphase =>
    obtain rfl := Option.some.inj hs
    exact (quiet_choose hphase).completion ▸ h
  case h_6 next batch hphase => exact (quiet_gate hphase hs).completion ▸ h
  case h_7 next batch hphase =>
    obtain rfl := Option.some.inj hs
    exact (quiet_judge hphase).completion ▸ h
  case h_8 next batch hphase =>
    rcases dispatch_cases hs with hquiet | hdispatches
    · exact hquiet.completion ▸ h
    · exact hdispatches.lasting hp h
  case h_9 hphase => exact (quiet_drain hphase hs).completion ▸ h
  all_goals simp at hs

/-- Only the shutdown of the service takes anything lasting away. -/
theorem lasting_step (hp : CompletionService.Lasting p) (h : p r.completion) {e : RunEvent}
    (he : e ≠ .completionShutdown) (hs : r.step setup e = some r') : p r'.completion := by
  cases e with
  | schedule now expired => exact lasting_scheduleStep hp h hs
  | execute number now => exact (quiet_startCall hs).completion ▸ h
  | answer number answer elapsed => exact (quiet_finishCall hs).completion ▸ h
  | submit number =>
    rcases sendRecord_cases hs with ⟨hquiet, -⟩ | ⟨x, t, hcompletes, -⟩
    · exact hquiet.completion ▸ h
    · obtain ⟨answer, t', -, hcall⟩ := hcompletes.call
      have hkept := hp.complete h t x.scheduled.operation.scheduledStart
      rwa [hcall] at hkept
  | consume => exact (quiet_consumeStep hs).completion ▸ h
  | expire now => exact (quiet_expireDrain hs).completion ▸ h
  | peerClaims =>
    obtain rfl := Option.some.inj hs
    cases hclaim : r.completion.claim with
    | error e => exact h
    | ok claimed => exact hp.claim hclaim h
  | peerInitiated slot time =>
    simp only [step] at hs
    split_ifs at hs
    obtain rfl := Option.some.inj hs
    cases hreport : r.completion.reportInitiated slot time with
    | error e => exact h
    | ok s => exact hp.initiated hreport h
  | peerCompleted slot time =>
    simp only [step] at hs
    split_ifs at hs
    obtain rfl := Option.some.inj hs
    cases hreport : r.completion.reportCompleted slot time with
    | error e => exact h
    | ok s => exact hp.completed hreport h
  | completionShutdown => exact absurd rfl he
  | report source message =>
    obtain rfl := Option.some.inj hs
    exact h

end Open

/-! ## Steady runs -/

/-- A run without peers has no tracker. -/
structure Alone (r : Run P κ) : Prop where
  peers : r.completion.slotCount = 0
  tracker : r.tracker = none

/-- The completion time service is open, and the tracker's account is right if there is one. -/
structure Steady (setup : RunSetup κ) (r : Run P κ) : Prop where
  isOpen : r.completion.closed = false
  account : r.Alone ∨ ∃ ops done, Sound setup ops done r

section Keeping

variable {setup : RunSetup κ} {r r' : Run P κ}

/-- A run stays without peers. -/
theorem Alone.turn (h : r.Alone) {c : Option (ScheduledOperation P × Nat)}
    (ht : Turn setup r r' c) : r'.Alone := by
  cases ht with
  | quiet hq => exact ⟨hq.completion ▸ h.peers, hq.tracker.trans h.tracker⟩
  | begin hphase =>
    have hlaunch : r.begin setup = r.launch setup := if_pos h.peers
    rw [hlaunch]
    unfold launch
    split <;> exact ⟨h.peers, h.tracker⟩
  | dispatch hphase hd =>
    obtain ⟨htracker, hcompletion⟩ := hd.untracked (.inl h.tracker)
    exact ⟨hcompletion ▸ h.peers, htracker.trans h.tracker⟩
  | complete hc =>
    have htracker := hc.tracker
    rw [h.tracker] at htracker
    simp at htracker
  | claim hclaim =>
    obtain ⟨-, hpeers, -⟩ := CompletionService.claim_ok hclaim
    exact absurd (List.length_eq_zero_iff.mp h.peers) hpeers
  | initiated hforeign hreport =>
    exact ⟨(CompletionService.grows_reportInitiated hreport).slotCount.trans h.peers, h.tracker⟩
  | completed hforeign hreport =>
    exact ⟨(CompletionService.grows_reportCompleted hreport).slotCount.trans h.peers, h.tracker⟩
  | shutdown => exact ⟨(CompletionService.grows_shutdown _).slotCount.trans h.peers, h.tracker⟩

/-- A run begins steady. -/
theorem steady_fresh (setup : RunSetup κ) (operations : Schedule P) (peers : List String)
    (metrics : MetricsPipeline κ) (log : ErrorLog) :
    Steady setup (fresh operations (.ofPeers peers) metrics log) where
  isOpen := by cases peers <;> rfl
  account := by
    by_cases hpeers : peers = []
    · exact .inl ⟨by rw [hpeers]; rfl, rfl⟩
    · exact .inr ⟨_, _, sound_fresh hpeers⟩

/-- A run stays steady until the service is shut down. -/
theorem Steady.step (h : Steady setup r) {e : RunEvent} (he : e ≠ .completionShutdown)
    (hs : r.step setup e = some r') : Steady setup r' where
  isOpen := lasting_step (CompletionService.lasting_closed false) h.isOpen he hs
  account := by
    rcases h.account with halone | ⟨ops, done, hsound⟩
    · exact .inl (halone.turn (turn_of_step hs))
    · exact .inr ⟨ops, _, hsound.turn (turn_of_step hs)⟩

/-- Any events leave a run without peers. -/
theorem Alone.steps (h : r.Alone) {events : List RunEvent}
    (hs : r.steps setup events = some r') : r'.Alone :=
  Reaches.invariant (fun h hstep => h.turn (turn_of_step hstep)) ⟨events, hs⟩ h

/-- A run stays steady through events among which there is no shutdown of the service. -/
theorem Steady.steps (h : Steady setup r) {events : List RunEvent}
    (hopen : .completionShutdown ∉ events) (hs : r.steps setup events = some r') :
    Steady setup r' := by
  induction events generalizing r with
  | nil => exact Option.some.inj hs ▸ h
  | cons e rest ih =>
    obtain ⟨he, hrest⟩ := List.ne_and_not_mem_of_not_mem_cons hopen
    obtain ⟨s, hstep, hs⟩ := Option.bind_eq_some_iff.mp hs
    exact ih (h.step (Ne.symm he) hstep) hrest hs

/-- The tracker of a steady run takes the completion of any tracked operation whose handler is
alive. -/
theorem Steady.complete_ok (h : Steady setup r) {t : CompletionTracker} (ht : r.tracker = some t)
    {x : Handler P} (hx : x ∈ r.handlers) (htracked : x.scheduled.tracked = true) :
    (t.complete r.completion x.scheduled.operation.scheduledStart).1 = .ok () := by
  rcases h.account with halone | ⟨ops, done, hsound⟩
  · have hnone := halone.tracker
    rw [ht] at hnone
    simp at hnone
  · obtain ⟨seeds, -, hlinked⟩ := hsound.linked t ht
    obtain ⟨hmem, hnot⟩ := hsound.handlers x hx
    -- The operation is dispatched and not completed.
    have hpending := (hsound.mem_pending_iff ht).mpr
      ⟨x.job, List.mem_filter.mpr ⟨hmem, htracked⟩, hnot, rfl⟩
    exact hlinked.complete_ok h.isOpen hpending

end Keeping

end Run

end WorkloadReplay
