import Mathlib.Data.List.Perm.Subperm
import Mathlib.Data.List.Sigma
import WorkloadReplay.Proofs.Run.Progress

/-!
# What a run has dispatched and completed

A run that takes part with other peers tells its tracker of every tracked operation, once when it
dispatches it and once when its handler is done with it. `Run.Sound` is the invariant of such a run:
the account of the tracker agrees with the operations dispatched and with those completed
(`Run.completions`), apart from the seeds; what is dispatched and what remains are the operations of
the merged sequence in order; and an operation that has passed its gate has its dependency time
reached.

Every event keeps the invariant, in whatever order handlers end and other peers report.
-/

namespace WorkloadReplay

variable {P κ : Type}

/-- The starts of numbered operations. -/
def startTimes (jobs : List (ScheduledOperation P × Nat)) : List Instant :=
  jobs.map (·.1.operation.scheduledStart)

/-- The start of a job that is added at the end, put first. -/
theorem startTimes_concat (jobs : List (ScheduledOperation P × Nat))
    (j : ScheduledOperation P × Nat) (seeds : List Instant) :
    (j.1.operation.scheduledStart :: (startTimes jobs ++ seeds)).Perm
      (startTimes (jobs ++ [j]) ++ seeds) := by
  unfold startTimes
  rw [List.map_append, List.append_assoc]
  exact List.perm_middle.symm

/-- What is left of a list without repetition when some of its items are taken away, and the starts
that are left. -/
theorem exists_rest {jobs done : List (ScheduledOperation P × Nat)} {seeds pending : List Instant}
    (hdone : done.Nodup) (hsub : done ⊆ jobs)
    (hbalance : (startTimes jobs ++ seeds).Perm (startTimes done ++ seeds ++ pending)) :
    ∃ rest, jobs.Perm (done ++ rest) ∧ pending.Perm (startTimes rest) := by
  -- Without repetition, what is among the jobs can be taken away from them.
  obtain ⟨l, hl, hsublist⟩ := hdone.subperm hsub
  obtain ⟨rest, hrest⟩ := hsublist.exists_perm_append
  have hjobs : jobs.Perm (done ++ rest) := hrest.trans (hl.append_right rest)
  refine ⟨rest, hjobs, ?_⟩
  have htimes : (startTimes jobs).Perm (startTimes done ++ startTimes rest) := by
    have hmap := hjobs.map fun j => j.1.operation.scheduledStart
    rw [List.map_append] at hmap
    exact hmap
  have hall : (startTimes done ++ seeds ++ pending).Perm
      (startTimes done ++ seeds ++ startTimes rest) := calc
    (startTimes done ++ seeds ++ pending).Perm (startTimes jobs ++ seeds) := hbalance.symm
    _ |>.Perm (startTimes done ++ startTimes rest ++ seeds) := htimes.append_right seeds
    _ |>.Perm (startTimes done ++ (startTimes rest ++ seeds)) := by rw [List.append_assoc]
    _ |>.Perm (startTimes done ++ (seeds ++ startTimes rest)) :=
      List.perm_append_comm.append_left (startTimes done)
    _ |>.Perm (startTimes done ++ seeds ++ startTimes rest) := by rw [List.append_assoc]
  exact (List.perm_append_left_iff _).mp hall

namespace Run

/-- The tracked operations that a run has dispatched, with their numbers. -/
def trackedJobs (r : Run P κ) : List (ScheduledOperation P × Nat) :=
  r.dispatched.toList.zipIdx.filter (·.1.tracked)

/-- The tracked operations that some events complete in the tracker, with their numbers. -/
def completions (setup : RunSetup κ) : Run P κ → List RunEvent → List (ScheduledOperation P × Nat)
  | _, [] => []
  | r, e :: rest =>
    (r.completion? e).toList ++ (r.step setup e).elim [] fun r' => completions setup r' rest

/-- The invariant of a run with other peers, over a sequence of operations of which those in `done`
are completed. -/
structure Sound (setup : RunSetup κ) (ops : List (ScheduledOperation P))
    (done : List (ScheduledOperation P × Nat)) (r : Run P κ) : Prop where
  service : r.completion.Sound
  peers : r.completion.slotCount ≠ 0
  /-- The account of the tracker is right; the seeds come before the start of the run. -/
  linked : ∀ t, r.tracker = some t → ∃ seeds, (∀ time ∈ seeds, time < setup.start) ∧
    t.Linked r.completion (startTimes r.trackedJobs ++ seeds) (startTimes done ++ seeds)
  /-- Without a tracker nothing has been dispatched. -/
  alone : r.tracker = none →
    (r.phase = .idle ∨ r.phase.held? = none) ∧ r.dispatched = #[] ∧ done = []
  idle : r.phase = .idle → r.tracker = none
  position : (r.dispatched.toList ++ r.remaining) <+: ops
  /-- A handler is for an operation that is dispatched and not completed. -/
  handlers : ∀ h ∈ r.handlers, h.job ∈ r.dispatched.toList.zipIdx ∧ h.job ∉ done
  completed : ∀ j ∈ done, j ∈ r.trackedJobs
  nodup : done.Nodup
  admitted : ∀ next, r.phase.admitted? = some next → next.operation.isGated = true →
    r.completion.hasReached next.operation.dependencyTime = true

section Keeping

variable {setup : RunSetup κ} {ops : List (ScheduledOperation P)}
  {done : List (ScheduledOperation P × Nat)} {r r' : Run P κ}

/-- An operation is dispatched once. -/
theorem nodup_trackedJobs (r : Run P κ) : r.trackedJobs.Nodup :=
  (List.Nodup.of_map _ (List.nodup_zipIdx_map_snd r.dispatched.toList)).filter _

/-- A dispatched tracked operation stands where its number says. -/
theorem mem_trackedJobs {x : ScheduledOperation P} {i : Nat} :
    (x, i) ∈ r.trackedJobs ↔ r.dispatched[i]? = some x ∧ x.tracked = true := by
  unfold trackedJobs
  rw [List.mem_filter, List.mem_zipIdx_iff_getElem?, Array.getElem?_toList]

/-- Where the same operations are dispatched, the same tracked ones are. -/
theorem trackedJobs_congr (h : r'.dispatched = r.dispatched) : r'.trackedJobs = r.trackedJobs := by
  unfold trackedJobs
  rw [h]

/-- Dispatching an operation adds it to the tracked ones if it is one. -/
theorem trackedJobs_push {next : ScheduledOperation P}
    (h : r'.dispatched = r.dispatched.push next) : r'.trackedJobs =
      r.trackedJobs ++ if next.tracked then [(next, r.dispatched.size)] else [] := by
  unfold trackedJobs
  rw [h, Array.toList_push, List.zipIdx_append, List.filter_append]
  cases htracked : next.tracked <;> simp [htracked]

/-- A run begins sound. -/
theorem sound_fresh {operations : Schedule P} {peers : List String} {metrics : MetricsPipeline κ}
    {log : ErrorLog} (hpeers : peers ≠ []) :
    Sound setup operations.operations [] (fresh operations (.ofPeers peers) metrics log) where
  service := CompletionService.sound_ofPeers peers
  peers := by
    obtain ⟨p, ps, rfl⟩ := List.exists_cons_of_ne_nil hpeers
    simp [fresh, CompletionService.ofPeers, CompletionService.slotCount]
  linked t ht := by simp [fresh] at ht
  alone _ := ⟨.inl rfl, rfl, rfl⟩
  idle _ := rfl
  position := List.prefix_refl _
  handlers h hh := by simp [fresh] at hh
  completed j hj := by simp at hj
  nodup := List.nodup_nil
  admitted next hnext := by simp [fresh, SchedulerPhase.admitted?] at hnext

/-- A quiet step keeps the invariant. -/
theorem Sound.quiet (h : Sound setup ops done r) (hq : Quiet r r') : Sound setup ops done r' where
  service := hq.completion ▸ h.service
  peers := hq.completion ▸ h.peers
  linked t ht := by
    rw [hq.tracker] at ht
    rw [trackedJobs_congr hq.dispatched, hq.completion]
    exact h.linked t ht
  alone ht := by
    rw [hq.tracker] at ht
    obtain ⟨hphase, hempty⟩ := h.alone ht
    rw [hq.dispatched]
    refine ⟨?_, hempty⟩
    rcases hq.phase with hover | ⟨hheld, hidle, -⟩
    · exact .inr hover
    · exact .inl (hidle.mpr (hphase.resolve_right hheld))
  idle hphase := by
    rw [hq.tracker]
    rcases hq.phase with hover | ⟨-, hidle, -⟩
    · rw [hphase] at hover
      simp [SchedulerPhase.held?] at hover
    · exact h.idle (hidle.mp hphase)
  position := by
    rw [hq.dispatched]
    rcases hq.phase with hover | ⟨-, -, hremaining⟩
    · have hnil : r'.remaining = [] := by
        unfold remaining
        rw [hover]
        rfl
      rw [hnil, List.append_nil]
      exact (List.prefix_append _ _).trans h.position
    · rw [hremaining]
      exact h.position
  handlers h' hh' := by
    obtain ⟨h'', hh'', hjob⟩ := hq.jobs h' hh'
    rw [hjob, hq.dispatched]
    exact h.handlers h'' hh''
  completed j hj := by
    rw [trackedJobs_congr hq.dispatched]
    exact h.completed j hj
  nodup := h.nodup
  admitted next hnext hgated := by
    rw [hq.completion]
    exact (hq.gate next hnext).elim (fun hadmitted => h.admitted next hadmitted hgated)
      fun hgate => hgate hgated

/-- What other peers do with the service keeps the invariant, if it leaves the tracker linked. -/
theorem Sound.of_completion (h : Sound setup ops done r) {s : CompletionService} (hsound : s.Sound)
    (hgrows : r.completion.Grows s)
    (hlinked : ∀ t initiated completed, r.tracker = some t →
      t.Linked r.completion initiated completed → t.Linked s initiated completed) :
    Sound setup ops done { r with completion := s } where
  service := hsound
  peers := hgrows.slotCount ▸ h.peers
  linked t ht := by
    obtain ⟨seeds, hseeds, hl⟩ := h.linked t ht
    exact ⟨seeds, hseeds, hlinked t _ _ ht hl⟩
  alone := h.alone
  idle := h.idle
  position := h.position
  handlers := h.handlers
  completed := h.completed
  nodup := h.nodup
  admitted next hnext hgated := by
    have hreached := CompletionService.hasReached_iff.mp (h.admitted next hnext hgated)
    exact CompletionService.hasReached_iff.mpr (optionLe_trans hreached hgrows.global)

/-- What is claimed and reported before a run has a tracker keeps the invariant. -/
theorem Sound.report (h : Sound setup ops done r) (hphase : r.phase = .idle)
    {s : CompletionService} (hsound : s.Sound) (hgrows : r.completion.Grows s) :
    Sound setup ops done { r with completion := s } := by
  have hnone := h.idle hphase
  refine h.of_completion hsound hgrows fun t _ _ ht _ => ?_
  rw [hnone] at ht
  simp at ht

/-- A run that is refused, after it has claimed a slot and perhaps reported through it, is sound. -/
theorem Sound.refused (h : Sound setup ops done r) (hphase : r.phase = .idle)
    {s : CompletionService} (hsound : s.Sound) (hgrows : r.completion.Grows s)
    (hcompletion : r'.completion = s) (htracker : r'.tracker = r.tracker)
    (hdispatched : r'.dispatched = r.dispatched) (hhandlers : r'.handlers = r.handlers)
    (hover : r'.phase.held? = none) : Sound setup ops done r' :=
  (h.report hphase hsound hgrows).quiet (Quiet.of_over hcompletion htracker hdispatched
    (fun h hh => ⟨h, hhandlers ▸ hh, rfl⟩) hover)

/-- A run that has seeded with times before its start is sound. -/
theorem Sound.seeded (h : Sound setup ops done r) (hphase : r.phase = .idle) {t : CompletionTracker}
    {s : CompletionService} {seeds : List Instant} (hsound : s.Sound)
    (hgrows : r.completion.Grows s) (hseeds : ∀ time ∈ seeds, time < setup.start)
    (hlinked : t.Linked s seeds seeds) : Sound setup ops done
      { r with completion := s, tracker := some t, phase := .awaitingPeers } := by
  obtain ⟨-, hdispatched, hdone⟩ := h.alone (h.idle hphase)
  have hservice := h.report hphase hsound hgrows
  refine ⟨hsound, hservice.peers, fun u hu => ?_, by simp, by simp, ?_, h.handlers, h.completed,
    h.nodup, by simp [SchedulerPhase.admitted?]⟩
  · obtain rfl := Option.some.inj hu
    refine ⟨seeds, hseeds, ?_⟩
    unfold trackedJobs
    rw [hdispatched, hdone]
    exact hlinked
  · have hposition := h.position
    unfold remaining at hposition ⊢
    rw [hphase] at hposition
    exact hposition

/-- The time that every peer must have reached lies before the start. -/
theorem readyTime?_lt {start first : Instant} (h : readyTime? start = some first) :
    first < start := by
  unfold readyTime? at h
  have hnanos := Instant.nanos_of_sub? h
  have htwo : (Duration.saturating 2).nanos = 2 := by decide
  rw [Instant.lt_iff]
  omega

/-- The two seeds with which a run begins keep the invariant, whether they are accepted or not. -/
theorem Sound.seed (h : Sound setup ops done r) (hphase : r.phase = .idle) {t : CompletionTracker}
    {s : CompletionService} (hsound : s.Sound) (hgrows : r.completion.Grows s)
    (hlinked : t.Linked s [] []) (hpending : t.pending = []) :
    Sound setup ops done ({ r with completion := s }.seed setup.start t) := by
  unfold Run.seed
  -- Each of the two seeds may lie before all times, and may be refused.
  split
  · exact h.refused hphase hsound hgrows rfl rfl rfl rfl rfl
  · rename_i first hfirst
    split
    · rename_i e t' s' hs
      obtain ⟨htouches, -⟩ := hlinked.seed hsound hpending hs
      exact h.refused hphase htouches.sound (hgrows.trans htouches.grows) rfl rfl rfl rfl rfl
    · rename_i t' s' hs
      obtain ⟨htouches, hok⟩ := hlinked.seed hsound hpending hs
      obtain ⟨-, hpending', hlinked'⟩ := hok rfl
      have hgrows' := hgrows.trans htouches.grows
      dsimp only
      split
      · exact h.refused hphase htouches.sound hgrows' rfl rfl rfl rfl rfl
      · rename_i second hsecond
        split
        · rename_i e t'' s'' hs'
          obtain ⟨htouches', -⟩ := hlinked'.seed htouches.sound hpending' hs'
          exact h.refused hphase htouches'.sound (hgrows'.trans htouches'.grows) rfl rfl rfl rfl rfl
        · rename_i t'' s'' hs'
          obtain ⟨htouches', hok'⟩ := hlinked'.seed htouches.sound hpending' hs'
          obtain ⟨-, -, hlinked''⟩ := hok' rfl
          refine h.seeded hphase htouches'.sound (hgrows'.trans htouches'.grows) ?_ hlinked''
          intro time htime
          rcases List.mem_cons.mp htime with rfl | htime
          · exact (Instant.sub?_one hsecond _).mpr (le_refl _)
          · rw [List.mem_singleton.mp htime]
            exact readyTime?_lt hfirst

/-- The beginning keeps the invariant. -/
theorem Sound.begin (h : Sound setup ops done r) (hphase : r.phase = .idle) :
    Sound setup ops done (r.begin setup) := by
  unfold Run.begin
  rw [if_neg h.peers]
  split
  · exact h.quiet (quiet_fail rfl)
  · rename_i k s hclaim
    exact h.seed hphase (h.service.claim hclaim) (CompletionService.grows_claim hclaim)
      (CompletionTracker.linked_ofSlot h.service hclaim) rfl

/-- A run that has begun and still dispatches has a tracker. -/
theorem Sound.exists_tracker (h : Sound setup ops done r) (hidle : r.phase ≠ .idle)
    (hheld : r.phase.held? ≠ none) : ∃ t, r.tracker = some t :=
  Option.ne_none_iff_exists'.mp fun hnone => (h.alone hnone).1.elim hidle hheld

/-- The dispatching of an operation keeps the invariant. -/
theorem Sound.dispatch (h : Sound setup ops done r) {next : ScheduledOperation P}
    {batch : List (ScheduledOperation P)} (hphase : r.phase = .admitting next batch)
    (hd : Dispatches r r' next batch) : Sound setup ops done r' := by
  obtain ⟨t, ht⟩ := h.exists_tracker (by simp [hphase]) (by simp [hphase, SchedulerPhase.held?])
  obtain ⟨seeds, hseeds, hlinked⟩ := h.linked t ht
  have hjobs := trackedJobs_push hd.dispatched
  -- The service and the tracker, according to whether the operation is tracked.
  have hservice : r'.completion.Sound ∧ r.completion.Grows r'.completion ∧
      ∃ t', r'.tracker = some t' ∧ t'.Linked r'.completion (startTimes r'.trackedJobs ++ seeds)
        (startTimes done ++ seeds) := by
    cases htracked : next.tracked with
    | true =>
      obtain ⟨t', ht', hcall⟩ := hd.tracker t ht htracked
      obtain ⟨htouches, -, hlinked', -⟩ := hlinked.initiate h.service hcall
      refine ⟨htouches.sound, htouches.grows, t', ht', hlinked'.perm ?_ (List.Perm.refl _)⟩
      rw [hjobs, htracked, if_pos rfl]
      exact startTimes_concat r.trackedJobs (next, r.dispatched.size) seeds
    | false =>
      obtain ⟨ht', hcompletion⟩ := hd.untracked (.inr htracked)
      rw [hcompletion, ht', hjobs, htracked]
      refine ⟨h.service, CompletionService.Grows.refl _, t, ht, ?_⟩
      simpa using hlinked
  obtain ⟨hsound, hgrows, t', ht', hlinked'⟩ := hservice
  refine ⟨hsound, ?_, fun u hu => ?_, fun hnone => ?_, fun hidle => ?_, ?_, fun h' hh' => ?_,
    fun j hj => ?_, h.nodup, fun u hu => ?_⟩
  · exact hgrows.slotCount ▸ h.peers
  · rw [ht'] at hu
    obtain rfl := Option.some.inj hu
    exact ⟨seeds, hseeds, hlinked'⟩
  · -- There is a tracker.
    rw [ht'] at hnone
    simp at hnone
  · rw [hd.phase] at hidle
    simp at hidle
  · have hposition := h.position
    unfold remaining at hposition ⊢
    rw [hphase] at hposition
    rw [hd.phase, hd.dispatched, hd.operations, Array.toList_push, List.append_assoc]
    exact hposition
  · rw [hd.dispatched, Array.toList_push, List.zipIdx_append]
    rw [hd.handlers] at hh'
    rcases List.mem_append.mp hh' with hh' | hh'
    · obtain ⟨hmem, hnot⟩ := h.handlers h' hh'
      exact ⟨List.mem_append_left _ hmem, hnot⟩
    · rw [List.mem_singleton.mp hh']
      refine ⟨List.mem_append_right _ (by simp [Handler.job]), fun hmem => ?_⟩
      -- What is completed has been dispatched before.
      have hsize := (mem_trackedJobs.mp (h.completed _ hmem)).1
      simp at hsize
  · rw [hjobs]
    exact List.mem_append_left _ (h.completed j hj)
  · rw [hd.phase] at hu
    simp [SchedulerPhase.admitted?] at hu

/-- The times that are pending in the tracker are those of the tracked operations that are
dispatched and not completed. -/
theorem Sound.mem_pending_iff (h : Sound setup ops done r) {t : CompletionTracker}
    (ht : r.tracker = some t) {time : Instant} : time ∈ t.pending ↔
      ∃ j ∈ r.trackedJobs, j ∉ done ∧ j.1.operation.scheduledStart = time := by
  obtain ⟨seeds, -, slot, -, -, haccounts⟩ := h.linked t ht
  obtain ⟨rest, hrest, hpending⟩ := exists_rest h.nodup h.completed haccounts.balance
  -- Nothing is dispatched twice, so what is completed is not among what is left.
  have hdisjoint := (List.nodup_append'.mp (hrest.nodup_iff.mp (nodup_trackedJobs r))).2.2
  rw [hpending.mem_iff]
  unfold startTimes
  rw [List.mem_map]
  constructor
  · rintro ⟨j, hj, htime⟩
    have hmem := hrest.mem_iff.mpr (List.mem_append_right done hj)
    exact ⟨j, hmem, fun hdone => hdisjoint hdone hj, htime⟩
  · rintro ⟨j, hj, hnot, htime⟩
    exact ⟨j, (List.mem_append.mp (hrest.mem_iff.mp hj)).resolve_left hnot, htime⟩

/-- The end of a handler that completes its operation in the tracker keeps the invariant, with the
operation completed. -/
theorem Sound.complete (h : Sound setup ops done r) {x : Handler P} {t : CompletionTracker}
    (hc : Completes r r' x t) : x.scheduled.operation.scheduledStart ∈ t.pending ∧
      Sound setup ops (done ++ [x.job]) r' := by
  obtain ⟨hmem, hnot⟩ := h.handlers x hc.mem
  have hjob : x.job ∈ r.trackedJobs := List.mem_filter.mpr ⟨hmem, hc.tracked⟩
  -- The operation is dispatched and not completed, so the tracker has it pending.
  have hpending : x.scheduled.operation.scheduledStart ∈ t.pending :=
    (h.mem_pending_iff hc.tracker).mpr ⟨x.job, hjob, hnot, rfl⟩
  refine ⟨hpending, ?_⟩
  obtain ⟨seeds, hseeds, hlinked⟩ := h.linked t hc.tracker
  obtain ⟨answer, t', ht', hcall⟩ := hc.call
  obtain ⟨htouches, -, hlinked', -⟩ := hlinked.complete h.service hpending hcall
  have hjobs := trackedJobs_congr hc.dispatched
  refine ⟨htouches.sound, ?_, fun u hu => ?_, fun hnone => ?_, fun hidle => ?_, ?_,
    fun h' hh' => ?_, fun j hj => ?_, ?_, fun next hnext hgated => ?_⟩
  · exact htouches.grows.slotCount ▸ h.peers
  · rw [ht'] at hu
    obtain rfl := Option.some.inj hu
    rw [hjobs]
    exact ⟨seeds, hseeds, hlinked'.perm (List.Perm.refl _) (startTimes_concat done x.job seeds)⟩
  · rw [ht'] at hnone
    simp at hnone
  · rw [hc.phase] at hidle
    have hnone := h.idle hidle
    rw [hc.tracker] at hnone
    simp at hnone
  · have hposition := h.position
    unfold remaining at hposition ⊢
    rw [hc.phase, hc.operations, hc.dispatched]
    exact hposition
  · obtain ⟨hh', hne⟩ := hc.handlers h' hh'
    obtain ⟨hmem', hnot'⟩ := h.handlers h' hh'
    rw [hc.dispatched]
    refine ⟨hmem', fun hdone => ?_⟩
    rcases List.mem_append.mp hdone with hdone | hdone
    · exact hnot' hdone
    · exact hne (congrArg Prod.snd (List.mem_singleton.mp hdone))
  · rw [hjobs]
    rcases List.mem_append.mp hj with hj | hj
    · exact h.completed j hj
    · exact List.mem_singleton.mp hj ▸ hjob
  · exact h.nodup.append (List.nodup_singleton _) (by simpa using hnot)
  · rw [hc.phase] at hnext
    have hreached := CompletionService.hasReached_iff.mp (h.admitted next hnext hgated)
    exact CompletionService.hasReached_iff.mpr (optionLe_trans hreached htouches.grows.global)

/-- What another peer reports through its slot keeps the invariant, since that slot is not the one
of the tracker. -/
theorem Sound.foreign (h : Sound setup ops done r) {k : Nat} {s : CompletionService}
    (hforeign : r.isForeign k = true) (ht : r.completion.Touches k s) :
    Sound setup ops done { r with completion := s } :=
  h.of_completion ht.sound ht.grows fun t _ _ htracker hlinked =>
    hlinked.of_touches ((isForeign_iff.mp hforeign).2 t htracker) ht

/-- Every event keeps the invariant, with the operation completed that it completes. -/
theorem Sound.turn (h : Sound setup ops done r) {c : Option (ScheduledOperation P × Nat)}
    (ht : Turn setup r r' c) : Sound setup ops (done ++ c.toList) r' := by
  cases ht with
  | quiet hq => simpa using h.quiet hq
  | begin hphase => simpa using h.begin hphase
  | dispatch hphase hd => simpa using h.dispatch hphase hd
  | complete hc =>
    obtain ⟨hpending, hsound⟩ := h.complete hc
    rw [if_pos hpending]
    exact hsound
  | claim hclaim =>
    have hsound := h.of_completion (h.service.claim hclaim) (CompletionService.grows_claim hclaim)
      fun t _ _ _ hlinked => (hlinked.claim hclaim).2
    simpa using hsound
  | initiated hforeign hreport =>
    obtain ⟨slot, hk, hclaimed⟩ := (isForeign_iff.mp hforeign).1
    have hsound := h.foreign hforeign
      (CompletionService.touches_reportInitiated h.service hk (fun _ => hclaimed) hreport).1
    simpa using hsound
  | completed hforeign hreport =>
    obtain ⟨slot, hk, -⟩ := (isForeign_iff.mp hforeign).1
    have hsound := h.foreign hforeign
      (CompletionService.touches_reportCompleted h.service hk hreport).1
    simpa using hsound
  | shutdown =>
    have hsound := h.of_completion h.service.shutdown (CompletionService.grows_shutdown _)
      fun t _ _ _ hlinked => hlinked.shutdown
    simpa using hsound

/-- Any events keep the invariant, with the operations completed that they complete. -/
theorem Sound.steps (h : Sound setup ops done r) {events : List RunEvent}
    (hs : r.steps setup events = some r') :
    Sound setup ops (done ++ r.completions setup events) r' := by
  induction events generalizing r done with
  | nil =>
    obtain rfl := Option.some.inj hs
    rw [completions, List.append_nil]
    exact h
  | cons e rest ih =>
    obtain ⟨s, hstep, hrest⟩ := Option.bind_eq_some_iff.mp hs
    have hnext := ih (h.turn (turn_of_step hstep)) hrest
    rw [List.append_assoc] at hnext
    rw [completions, hstep]
    exact hnext

end Keeping

end Run

end WorkloadReplay
