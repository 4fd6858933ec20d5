import WorkloadReplay.Proofs.Completion.Level
import WorkloadReplay.Proofs.Run.Completing
import WorkloadReplay.Proofs.Run.Gating
import WorkloadReplay.Proofs.Stream.Limits
import WorkloadReplay.Proofs.Stream.TimeMapping

/-!
# The tracker of a run keeps pace

A tracker and its service refuse times that are out of order, and a refusal ends the run. In a run
none of these refusals occurs. `Run.Abreast` relates the tracker to the run: its highest initiated
time is the one that its slot took last, no operation that was dispatched starts later, and nor does
the last seed, just before the start of the run. Where every handler so far has come to a good end,
nothing pending means that all of this has been reported.

Operations that were moved to the start of the run start no earlier, and they are dispatched in
order of start. So each of them is accepted when it is initiated, and, as long as the service is
open, when it is completed (`tracker_never_refuses`).
-/

namespace WorkloadReplay

variable {P κ : Type}

namespace Run

/-- A tracker of a run in which handlers have ended in some ways keeps pace with the run. -/
structure Abreast (setup : RunSetup κ) (endings : List Ending) (t : CompletionTracker)
    (r : Run P κ) : Prop where
  level : t.Level r.completion
  /-- The times before the start of the run have been initiated. -/
  seeded : ∀ time, time < setup.start → some time ≤ t.highestInitiated
  /-- No operation that was dispatched starts after the highest initiated time. -/
  jobs : ∀ j ∈ r.trackedJobs, some j.1.operation.scheduledStart ≤ t.highestInitiated
  /-- If all handlers came to good ends, nothing is pending only when all is reported. -/
  caughtUp : (∀ d ∈ endings, d.isGood = true) → t.pending = [] →
    t.highestInitiated ≤ t.lastSubmitted

/-- The tracker of a run keeps pace, if there is one. -/
def KeepsPace (setup : RunSetup κ) (endings : List Ending) (r : Run P κ) : Prop :=
  ∀ t, r.tracker = some t → Abreast setup endings t r

section Keeping

variable {setup : RunSetup κ} {ops : List (ScheduledOperation P)}
  {done : List (ScheduledOperation P × Nat)} {endings : List Ending} {r r' : Run P κ}
  {t t' : CompletionTracker}

/-- A run whose seeds are accepted has the tracker that they leave; no other run has a new one. -/
theorem seed_cases (r : Run P κ) (start : Instant) (t : CompletionTracker) :
    (r.seed start t).tracker = r.tracker ∨ ∃ first t₁ s₁ second t₂ s₂,
      t.seed r.completion first = (.ok (), t₁, s₁) ∧ start.sub? Duration.one = some second ∧
      t₁.seed s₁ second = (.ok (), t₂, s₂) ∧ (r.seed start t).tracker = some t₂ ∧
      (r.seed start t).completion = s₂ := by
  unfold seed
  split
  · exact .inl rfl
  · rename_i first hfirst
    split
    · exact .inl rfl
    · rename_i t₁ s₁ hseed₁
      dsimp only
      split
      · exact .inl rfl
      · rename_i second hsecond
        split
        · exact .inl rfl
        · rename_i t₂ s₂ hseed₂
          exact .inr ⟨first, t₁, s₁, second, t₂, s₂, hseed₁, hsecond, hseed₂, rfl, rfl⟩

/-- The tracker with which a run begins keeps pace. -/
theorem Sound.abreast_begin (h : Sound setup ops done r) (hphase : r.phase = .idle)
    (ht : (r.begin setup).tracker = some t) : Abreast setup endings t (r.begin setup) := by
  have hnone := h.idle hphase
  obtain ⟨-, hdispatched, -⟩ := h.alone hnone
  have hjobs : (r.begin setup).trackedJobs = [] := by
    unfold trackedJobs
    rw [begin_dispatched, hdispatched]
    rfl
  cases hclaim : r.completion.claim with
  | error e =>
    have hbegin : r.begin setup = (r.fail e).goTo (.refused e) := by
      unfold Run.begin
      rw [if_neg h.peers, hclaim]
    rw [hbegin] at ht
    exact absurd (hnone.symm.trans ht) (by simp)
  | ok claimed =>
    obtain ⟨k, s⟩ := claimed
    have hbegin : r.begin setup = { r with completion := s }.seed setup.start (.ofSlot k) := by
      unfold Run.begin
      rw [if_neg h.peers, hclaim]
    rw [hbegin] at ht hjobs ⊢
    -- Only a beginning whose two seeds are accepted leaves a tracker.
    rcases seed_cases { r with completion := s } setup.start (.ofSlot k) with
      hsame | ⟨first, t₁, s₁, second, t₂, s₂, hseed₁, hsecond, hseed₂, htracker, hcompletion⟩
    · exact absurd (hnone.symm.trans (hsame.symm.trans ht)) (by simp)
    · obtain rfl := Option.some.inj (htracker.symm.trans ht)
      have hsound := h.service.claim hclaim
      obtain ⟨htouches, hok⟩ :=
        (CompletionTracker.linked_ofSlot h.service hclaim).seed hsound rfl hseed₁
      obtain ⟨-, -, hlinked⟩ := hok rfl
      obtain ⟨hlevel, hhighest, hlast⟩ := hlinked.level_seed htouches.sound hseed₂
      refine ⟨hcompletion ▸ hlevel, fun time htime => ?_, by simp [hjobs], fun _ _ => ?_⟩
      · -- The second seed lies just before the start.
        rw [hhighest, Option.some_le_some, ← not_lt, Instant.sub?_one hsecond, not_le]
        exact htime
      · rw [hhighest, hlast]
        exact optionLe_refl _

/-- Where the tracker, its slot and the dispatched operations stay as they are, the tracker keeps
pace. -/
theorem Abreast.congr (h : Abreast setup endings t r) {more : List Ending}
    (hlevel : t.Level r'.completion) (hdispatched : r'.dispatched = r.dispatched) :
    Abreast setup (endings ++ more) t r' where
  level := hlevel
  seeded := h.seeded
  jobs := by
    rw [trackedJobs_congr hdispatched]
    exact h.jobs
  caughtUp hgood := h.caughtUp fun d hd => hgood d (List.mem_append_left more hd)

/-- The dispatching of an operation keeps the tracker abreast. -/
theorem KeepsPace.dispatch (h : KeepsPace setup endings r) (hsound : Sound setup ops done r)
    {next : ScheduledOperation P} {batch : List (ScheduledOperation P)}
    (hphase : r.phase = .admitting next batch) (hd : Dispatches r r' next batch) :
    KeepsPace setup endings r' := by
  obtain ⟨t, ht⟩ :=
    hsound.exists_tracker (by simp [hphase]) (by simp [hphase, SchedulerPhase.held?])
  obtain ⟨seeds, -, hlinked⟩ := hsound.linked t ht
  have hjobs := trackedJobs_push hd.dispatched
  have habreast := h t ht
  intro u hu
  cases htracked : next.tracked with
  | true =>
    obtain ⟨t', ht', hcall⟩ := hd.tracker t ht htracked
    obtain rfl := Option.some.inj (ht'.symm.trans hu)
    obtain ⟨hlevel, hhighest, hle⟩ := hlinked.level_initiate hsound.service hcall
    obtain ⟨-, -, -, hpending⟩ := hlinked.initiate hsound.service hcall
    refine ⟨hlevel, fun time htime => ?_, fun j hj => ?_, fun _ hnone => ?_⟩
    · rw [hhighest]
      exact optionLe_trans (habreast.seeded time htime) hle
    · rw [hjobs, htracked, if_pos rfl] at hj
      rw [hhighest]
      rcases List.mem_append.mp hj with hj | hj
      · exact optionLe_trans (habreast.jobs j hj) hle
      · rw [List.mem_singleton.mp hj]
        exact optionLe_refl _
    · -- The new operation is pending.
      have hmem : next.operation.scheduledStart ∈ t'.pending := by
        rw [hpending, CompletionTracker.insertTime_eq_orderedInsert]
        exact (List.mem_orderedInsert (· ≤ ·)).mpr (.inl rfl)
      simp [hnone] at hmem
  | false =>
    obtain ⟨ht', hcompletion⟩ := hd.untracked (.inr htracked)
    obtain rfl := Option.some.inj (ht.symm.trans (ht'.symm.trans hu))
    refine ⟨hcompletion ▸ habreast.level, habreast.seeded, fun j hj => ?_, habreast.caughtUp⟩
    rw [hjobs, htracked] at hj
    exact habreast.jobs j (by simpa using hj)

/-- An operation that is completed in the tracker is that of a handler which ends, with what the
tracker answers. -/
theorem Completes.ending? {x : Handler P} (hc : Completes r r' x t) {e : RunEvent}
    (hstep : r.step setup e = some r') {j : ScheduledOperation P × Nat}
    (he : r.completion? e = some j) : ∃ d, r.ending? setup e = some d ∧
      d.result = (t.complete r.completion x.scheduled.operation.scheduledStart).1 := by
  cases e with
  | submit number => exact ⟨_, ending?_eq_some rfl hstep hc.finished, rfl⟩
  | _ => simp [completion?] at he

/-- The end of a handler that completes its operation keeps the tracker abreast. -/
theorem KeepsPace.complete (h : KeepsPace setup endings r) {x : Handler P} (hc : Completes r r' x t)
    {d : Ending}
    (hd : d.result = (t.complete r.completion x.scheduled.operation.scheduledStart).1) :
    KeepsPace setup (endings ++ [d]) r' := by
  obtain ⟨answer, t', ht', hcall⟩ := hc.call
  rw [hcall] at hd
  have habreast := h t hc.tracker
  obtain ⟨hlevel, hhighest⟩ := habreast.level.complete hcall
  intro u hu
  obtain rfl := Option.some.inj (ht'.symm.trans hu)
  refine ⟨hlevel, fun time htime => ?_, fun j hj => ?_, fun hgood hpending => ?_⟩
  · rw [hhighest]
    exact habreast.seeded time htime
  · rw [trackedJobs_congr hc.dispatched] at hj
    rw [hhighest]
    exact habreast.jobs j hj
  · -- A handler that comes to a good end has had its completion accepted.
    have hok := hgood d (List.mem_append_right endings (List.mem_singleton_self d))
    cases answer with
    | error e => simp [Ending.isGood, Ending.error?, hd, ReplayError.ofResult?] at hok
    | ok u => exact CompletionTracker.complete_caughtUp hcall hpending

/-- Every event keeps the tracker abreast, with the handlers ended that it ends. -/
theorem KeepsPace.step (h : KeepsPace setup endings r) (hsound : Sound setup ops done r)
    {e : RunEvent} (hstep : r.step setup e = some r') :
    KeepsPace setup (endings ++ (r.ending? setup e).toList) r' := by
  generalize hc : r.completion? e = c
  have hturn := turn_of_step hstep
  rw [hc] at hturn
  cases hturn with
  | quiet hq =>
    intro t ht
    rw [hq.tracker] at ht
    exact (h t ht).congr (hq.completion ▸ (h t ht).level) hq.dispatched
  | begin hphase => exact fun t ht => hsound.abreast_begin hphase ht
  | dispatch hphase hd =>
    intro t ht
    have habreast := h.dispatch hsound hphase hd t ht
    exact habreast.congr habreast.level rfl
  | complete hcompletes =>
    rw [if_pos (hsound.complete hcompletes).1] at hc
    obtain ⟨d, hd, hresult⟩ := hcompletes.ending? hstep hc
    rw [hd]
    exact h.complete hcompletes hresult
  -- Claims and reports of other peers leave the tracker's slot alone.
  | claim hclaim =>
    intro t ht
    obtain ⟨seeds, -, hlinked⟩ := hsound.linked t ht
    obtain ⟨hne, -⟩ := hlinked.claim hclaim
    obtain ⟨-, -, slot, -, -, rfl⟩ := CompletionService.claim_ok hclaim
    exact (h t ht).congr ((h t ht).level.congr (List.getElem?_set_ne hne)) rfl
  | initiated hforeign hreport =>
    obtain ⟨⟨slot, hk, hclaimed⟩, hne⟩ := isForeign_iff.mp hforeign
    obtain ⟨htouches, -⟩ := CompletionService.touches_reportInitiated hsound.service hk
      (fun _ => hclaimed) hreport
    exact fun t ht =>
      (h t ht).congr ((h t ht).level.congr (htouches.others t.slot (hne t ht))) rfl
  | completed hforeign hreport =>
    obtain ⟨⟨slot, hk, -⟩, hne⟩ := isForeign_iff.mp hforeign
    obtain ⟨htouches, -⟩ := CompletionService.touches_reportCompleted hsound.service hk hreport
    exact fun t ht =>
      (h t ht).congr ((h t ht).level.congr (htouches.others t.slot (hne t ht))) rfl
  | shutdown => exact fun t ht => (h t ht).congr (h t ht).level.shutdown rfl

/-- Any events keep the tracker abreast, with the handlers ended that they end. -/
theorem KeepsPace.steps (h : KeepsPace setup endings r) (hsound : Sound setup ops done r)
    {events : List RunEvent} (hs : r.steps setup events = some r') :
    KeepsPace setup (endings ++ r.endings setup events) r' := by
  induction events generalizing r endings done with
  | nil =>
    obtain rfl := Option.some.inj hs
    rw [Run.endings, List.append_nil]
    exact h
  | cons e rest ih =>
    obtain ⟨s, hstep, hrest⟩ := Option.bind_eq_some_iff.mp hs
    have hnext := ih (h.step hsound hstep) (hsound.turn (turn_of_step hstep)) hrest
    rw [List.append_assoc] at hnext
    rw [Run.endings, hstep]
    exact hnext

/-- A run begins without a tracker. -/
theorem keepsPace_fresh (setup : RunSetup κ) (operations : Schedule P)
    (completion : CompletionService) (metrics : MetricsPipeline κ) (log : ErrorLog) :
    KeepsPace setup [] (fresh operations completion metrics log) :=
  fun t ht => by simp [fresh] at ht

/-- The tracker of a run in order of start, none of whose operations starts before the run, accepts
the operation whose turn it is. -/
theorem KeepsPace.initiate_ok (h : KeepsPace setup endings r) (hsound : Sound setup ops done r)
    (hopen : r.completion.closed = false)
    (hsorted : ops.Pairwise (·.operation.scheduledStart ≤ ·.operation.scheduledStart))
    (hstart : ∀ x ∈ ops, setup.start ≤ x.operation.scheduledStart) (ht : r.tracker = some t)
    {next : ScheduledOperation P} {batch : List (ScheduledOperation P)}
    (hphase : r.phase = .admitting next batch) :
    (t.initiate r.completion next.operation.scheduledStart).1 = .ok () := by
  obtain ⟨seeds, hseeds, hlinked⟩ := hsound.linked t ht
  refine (h t ht).level.initiate_ok hlinked hopen ?_
  cases hhighest : t.highestInitiated with
  | none => exact Option.none_le
  | some highest =>
    have hnext := hsound.getElem?_size hphase
    obtain ⟨slot, -, -, haccounts⟩ := hlinked
    refine Option.some_le_some.mpr ?_
    -- The highest time is that of an operation dispatched before, or of a seed.
    rcases List.mem_append.mp (haccounts.source highest hhighest) with hmem | hmem
    · obtain ⟨⟨x, i⟩, hjob, rfl⟩ := List.mem_map.mp hmem
      have hi := (Array.getElem?_eq_some_iff.mp (mem_trackedJobs.mp hjob).1).1
      exact start_le hsorted (hsound.getElem?_of_mem hjob) hnext hi.le
    · exact (hseeds highest hmem).le.trans (hstart next (List.mem_of_getElem? hnext))

end Keeping

/-- In a run of streams that were moved to its start, within any limits and with any setup, the
tracker refuses nothing as long as the completion time service is open: neither the operation that
is about to be dispatched, when it is initiated, nor that of any handler, when it is completed. -/
theorem tracker_never_refuses {streams mapped : List (OperationStream P)} {ratio : Binary64}
    {limits : Limits} {setup : RunSetup κ} {peers : List String} {metrics : MetricsPipeline κ}
    {log : ErrorLog} {events : List RunEvent} {r : Run P κ} {t : CompletionTracker}
    (hmap : Stream.timeMap streams setup.start ratio = .ok mapped)
    (hr : (fresh (limit limits (merge mapped)) (.ofPeers peers) metrics log).steps setup events =
      some r)
    (hopen : .completionShutdown ∉ events) (ht : r.tracker = some t) :
    (∀ next batch, r.phase = .admitting next batch →
      (t.initiate r.completion next.operation.scheduledStart).1 = .ok ()) ∧
    ∀ x ∈ r.handlers, x.scheduled.tracked = true →
      (t.complete r.completion x.scheduled.operation.scheduledStart).1 = .ok () := by
  have hsteady := (steady_fresh setup _ peers metrics log).steps hopen hr
  by_cases hpeers : peers = []
  · -- Without peers there is no tracker.
    have hfresh : (fresh (limit limits (merge mapped)) (.ofPeers peers) metrics log).Alone :=
      ⟨by rw [hpeers]; rfl, rfl⟩
    exact absurd ((hfresh.steps hr).tracker.symm.trans ht) (by simp)
  · have hsound := (sound_fresh hpeers).steps hr
    have hkeeps := (keepsPace_fresh setup _ _ metrics log).steps (sound_fresh hpeers) hr
    have hfront := limit_operations_prefix limits (merge mapped)
    refine ⟨fun next batch hphase => ?_, fun x hx htracked => hsteady.complete_ok ht hx htracked⟩
    exact hkeeps.initiate_ok hsound hsteady.isOpen
      ((merge_timeOrdered mapped).sorted.sublist hfront.sublist)
      (fun x hx => Stream.le_of_mem_merge_timeMap hmap (hfront.subset hx)) ht hphase

/-- Two updates, at instants 4 and 8, that are moved to instants 10 and 11. -/
def movedUpdates : List (OperationStream Nat) :=
  [Stream.movedStream Stream.quarter (.saturating 4) (.saturating 6) Stream.updateStream]

/-- The beginning of a run of them whose only peer is the local one. -/
def movedRun : Run Nat Unit :=
  fresh (limit .unbounded (merge movedUpdates)) (.ofPeers ["local"])
    ⟨2, true, [], .receiving, Collector.fresh {} () false, false, none⟩ ErrorLog.empty

/-- The second update is about to be dispatched, and the first one is not completed: the tracker
accepts both calls. -/
theorem tracker_never_refuses_pair : ∃ (r : Run Nat Unit) (t : CompletionTracker)
    (next : ScheduledOperation Nat) (batch : List (ScheduledOperation Nat)) (x : Handler Nat),
    movedRun.steps localSetup (goesOn 10) = some r ∧ r.tracker = some t ∧
    r.phase = .admitting next batch ∧
    (t.initiate r.completion next.operation.scheduledStart).1 = .ok () ∧ x ∈ r.handlers ∧
    (t.complete r.completion x.scheduled.operation.scheduledStart).1 = .ok () := by
  have hmap : Stream.timeMap [Stream.updateStream] localSetup.start Stream.quarter =
      .ok movedUpdates :=
    Stream.timeMap_eq_ok.mpr ⟨⟨by decide +kernel, by decide +kernel⟩,
      .inr ⟨.saturating 4, .saturating 6, by decide +kernel, by decide +kernel, rfl⟩⟩
  have hrun : (movedRun.steps localSetup (goesOn 10)).map (fun r => r.tracker.isSome &&
      r.phase.due?.isSome && r.handlers.any (·.scheduled.tracked)) = some true := by
    decide +kernel
  obtain ⟨r, hr, hfacts⟩ := Option.map_eq_some_iff.mp hrun
  simp only [Bool.and_eq_true] at hfacts
  obtain ⟨⟨htracker, hphase⟩, hhandlers⟩ := hfacts
  obtain ⟨t, ht⟩ := Option.isSome_iff_exists.mp htracker
  obtain ⟨x, hx, htracked⟩ := List.any_eq_true.mp hhandlers
  obtain ⟨next, hnext⟩ := Option.isSome_iff_exists.mp hphase
  obtain ⟨batch, hadmitting⟩ := SchedulerPhase.due?_eq_some.mp hnext
  have hopen : RunEvent.completionShutdown ∉ goesOn 10 := by simp [goesOn]
  obtain ⟨hinitiate, hcomplete⟩ := tracker_never_refuses hmap hr hopen ht
  exact ⟨r, t, next, batch, x, hr, ht, hadmitting, hinitiate next batch hadmitting, hx,
    hcomplete x hx htracked⟩

end Run

end WorkloadReplay
