import WorkloadReplay.Metrics.Calls
import WorkloadReplay.Proofs.Metrics.Delivery

/-!
# Concurrent callers lose nothing

Whatever the order in which submissions, shutdowns and the consumer take their steps, the records
that the queue has accepted are those whose submissions have returned without an error, and a
shutdown that has returned has left the results or found the consumer broken down:
`MetricsCalls.Sound` says so, and every step keeps it. So the results, once there are any, are those
of exactly these records, and no later shutdown changes them (`MetricsCalls.run_delivers`).
-/

namespace WorkloadReplay

/-- The record of a submission that has returned without an error. -/
def Submission.accepted? (s : Submission) : Option MetricsRecord :=
  match s.phase with
  | .returned (.ok ()) => some s.record
  | _ => none

namespace MetricsCalls

variable {κ : Type}

/-- The records of the submissions that have returned without an error. -/
def accepted (c : MetricsCalls κ) : List MetricsRecord :=
  c.submissions.filterMap Submission.accepted?

/-- What is true of a pipeline and its calls at any time. -/
structure Sound (config : MetricsConfig) (c : MetricsCalls κ) : Prop where
  delivers : ∃ sent, c.pipeline.Delivers config sent ∧ sent.Perm c.accepted
  /-- Once a shutdown has begun, there is one that goes on, or one has come to its end. -/
  begun : c.pipeline.shutdownBegun = true →
    (∃ phase ∈ c.shutdowns, ShutdownPhase.holdsLock phase = true) ∨
    c.pipeline.IsBroken ∨ c.pipeline.snapshot.isSome = true
  returned : ∀ answer, .returned answer ∈ c.shutdowns →
    c.pipeline.IsBroken ∨ answer = .ok () ∧ c.pipeline.snapshot.isSome = true

section Steps

variable {config : MetricsConfig} {c c' : MetricsCalls κ}

/-- A pipeline that nobody has called is sound. -/
theorem sound_fresh {p : MetricsPipeline κ} {sink : κ} {active : Bool}
    (h : MetricsPipeline.fresh config sink active = .ok p) : (fresh p).Sound config := by
  refine ⟨⟨[], MetricsPipeline.delivers_fresh h, List.Perm.refl _⟩, fun hbegun => ?_,
    by simp [fresh]⟩
  simp only [MetricsPipeline.fresh] at h
  split at h
  · simp at h
  · obtain rfl := Except.ok.inj h
    simp [fresh] at hbegun

/-- A submission that moves on is accepted if it returns without an error. -/
theorem accepted_setSubmission {i : Nat} {s : Submission} (hi : c.submissions[i]? = some s)
    (hs : s.accepted? = none) (phase : SubmissionPhase) : (c.setSubmission i phase).accepted.Perm
      (c.accepted ++ (Submission.accepted? ⟨s.record, phase⟩).toList) := by
  obtain ⟨hlt, hget⟩ := List.getElem?_eq_some_iff.mp hi
  obtain ⟨before, s', after, hsplit, hlength, hmodify⟩ :=
    List.exists_of_modify (fun s : Submission => { s with phase := phase }) hlt
  have hs' : s' = s := by
    rw [← hget]
    simp [hsplit, ← hlength]
  subst hs'
  unfold accepted setSubmission
  rw [hmodify, hsplit]
  simp only [List.filterMap_append, List.filterMap_cons, hs]
  cases Submission.accepted? ⟨s'.record, phase⟩ with
  | none => simp
  | some r =>
    rw [Option.toList_some, List.append_assoc]
    exact (List.perm_append_singleton r _).symm.append_left _

/-- A submission moves on, and its record is sent if it returns without an error. -/
theorem Sound.setSubmission (h : c.Sound config) {i : Nat} {s : Submission}
    (hi : c.submissions[i]? = some s) (hs : s.accepted? = none) {phase : SubmissionPhase}
    (hphase : Submission.accepted? ⟨s.record, phase⟩ = none) :
    (c.setSubmission i phase).Sound config := by
  obtain ⟨sent, hdelivers, hperm⟩ := h.delivers
  have haccepted := accepted_setSubmission hi hs phase
  rw [hphase, Option.toList_none, List.append_nil] at haccepted
  exact ⟨⟨sent, hdelivers, hperm.trans haccepted.symm⟩, h.begun, h.returned⟩

/-- The pipeline goes on without a caller being answered. -/
theorem Sound.setPipeline (h : c.Sound config) {p : MetricsPipeline κ}
    (hdelivers : ∀ sent, c.pipeline.Delivers config sent → p.Delivers config sent)
    (hsnapshot : p.snapshot = c.pipeline.snapshot)
    (hbegun : p.shutdownBegun = c.pipeline.shutdownBegun)
    (hbroken : c.pipeline.IsBroken → p.IsBroken) : { c with pipeline := p }.Sound config := by
  obtain ⟨sent, hsent, hperm⟩ := h.delivers
  refine ⟨⟨sent, hdelivers sent hsent, hperm⟩, fun h' => ?_, fun answer hanswer => ?_⟩
  · have hcases := h.begun (hbegun ▸ h')
    exact hcases.imp_right (Or.imp hbroken fun hsome => hsnapshot ▸ hsome)
  · exact (h.returned answer hanswer).imp hbroken fun hok => ⟨hok.1, hsnapshot ▸ hok.2⟩

/-- A shutdown that holds the lock goes on and keeps it. -/
theorem Sound.setShutdown (h : c.Sound config) {j : Nat} {phase phase' : ShutdownPhase}
    (hj : c.shutdowns[j]? = some phase) (hlock : ShutdownPhase.holdsLock phase' = true) :
    (c.setShutdown j phase').Sound config := by
  obtain ⟨hlt, -⟩ := List.getElem?_eq_some_iff.mp hj
  refine ⟨h.delivers, fun _ => .inl ⟨phase', List.mem_set hlt phase', hlock⟩,
    fun answer hanswer => ?_⟩
  rcases List.mem_or_eq_of_mem_set hanswer with hmem | rfl
  · exact h.returned answer hmem
  · simp [ShutdownPhase.holdsLock] at hlock

/-- A submission sends its record, which is queued, or learns that the queue is closed. -/
theorem Sound.stepSend (h : c.Sound config) {i : Nat} (hstep : c.stepSend i = some c') :
    c'.Sound config ∧ c'.pipeline.snapshot = c.pipeline.snapshot := by
  unfold MetricsCalls.stepSend at hstep
  split at hstep
  · rename_i r hi
    split at hstep
    · rename_i p hoffer
      obtain rfl := Option.some.inj hstep
      obtain ⟨-, rfl⟩ := MetricsPipeline.offer_eq_queued hoffer
      obtain ⟨sent, hdelivers, hperm⟩ := h.delivers
      have haccepted := accepted_setSubmission hi rfl (.returned (.ok ()))
      refine ⟨⟨⟨sent ++ [r], hdelivers.offer hoffer, ?_⟩, h.begun, h.returned⟩, rfl⟩
      exact (hperm.append_right [r]).trans haccepted.symm
    · simp at hstep
    · obtain rfl := Option.some.inj hstep
      exact ⟨h.setSubmission hi rfl rfl, rfl⟩
  · simp at hstep

/-- A shutdown begins, or finds that there was one before. -/
theorem Sound.stepBegin (h : c.Sound config) {j : Nat} (hstep : c.stepBegin j = some c') :
    c'.Sound config ∧ c'.pipeline.snapshot = c.pipeline.snapshot := by
  unfold MetricsCalls.stepBegin at hstep
  split at hstep
  · rename_i hj
    split at hstep
    · simp at hstep
    · rename_i hfree
      have hnone : ¬ ∃ phase ∈ c.shutdowns, ShutdownPhase.holdsLock phase = true := by
        simpa using hfree
      split at hstep
      · rename_i hbegin
        obtain rfl := Option.some.inj hstep
        -- Nobody holds the lock, so the shutdown before this one has come to its end.
        have hbegun : c.pipeline.shutdownBegun = true := by
          unfold MetricsPipeline.begin? at hbegin
          split at hbegin
          · assumption
          · simp at hbegin
        have hended := (h.begun hbegun).resolve_left hnone
        refine ⟨⟨h.delivers, fun _ => .inr hended, fun answer hanswer => ?_⟩, rfl⟩
        rcases List.mem_or_eq_of_mem_set hanswer with hmem | heq
        · exact h.returned answer hmem
        · exact hended.imp_right fun hsome => ⟨ShutdownPhase.returned.inj heq, hsome⟩
      · rename_i p hbegin
        obtain rfl := Option.some.inj hstep
        obtain rfl := MetricsPipeline.begin?_eq_some hbegin
        obtain ⟨sent, hdelivers, hperm⟩ := h.delivers
        obtain ⟨hlt, -⟩ := List.getElem?_eq_some_iff.mp hj
        refine ⟨⟨⟨sent, hdelivers.begin? hbegin, hperm⟩,
          fun _ => .inl ⟨.begun, List.mem_set hlt _, rfl⟩, fun answer hanswer => ?_⟩, rfl⟩
        exact h.returned answer ((List.mem_or_eq_of_mem_set hanswer).resolve_right (by simp))
  · simp at hstep

/-- A shutdown sends the marker, or learns that the queue is closed. -/
theorem Sound.stepMark (h : c.Sound config) {j : Nat} (hstep : c.stepMark j = some c') :
    c'.Sound config ∧ c'.pipeline.snapshot = c.pipeline.snapshot := by
  unfold MetricsCalls.stepMark at hstep
  split at hstep
  · rename_i hj
    split at hstep
    · rename_i p hoffer
      obtain rfl := Option.some.inj hstep
      have hdelivers : ∀ sent, c.pipeline.Delivers config sent → p.Delivers config sent := by
        intro sent hsent
        have hmarker := hsent.offer hoffer
        rwa [Message.record?, Option.toList_none, List.append_nil] at hmarker
      obtain ⟨-, rfl⟩ := MetricsPipeline.offer_eq_queued hoffer
      exact ⟨(h.setPipeline hdelivers rfl rfl id).setShutdown hj rfl, rfl⟩
    · simp at hstep
    · obtain rfl := Option.some.inj hstep
      exact ⟨h.setShutdown hj rfl, rfl⟩
  · simp at hstep

/-- A shutdown learns of the end of the consumer. -/
theorem Sound.join (h : c.Sound config) (j : Nat) {answer : Except ReplayError Unit}
    {p : MetricsPipeline κ} (hjoin : c.pipeline.join? = some (answer, p)) :
    ({ c with pipeline := p }.setShutdown j (.returned answer)).Sound config ∧
      ∀ results, c.pipeline.snapshot = some results → p.snapshot = some results := by
  obtain ⟨sent, hdelivers, hperm⟩ := h.delivers
  have hsent := hdelivers.join? hjoin
  rcases MetricsPipeline.join?_eq_some hjoin with
    ⟨results, hphase, rfl, rfl⟩ | ⟨hbroken, rfl, e, rfl⟩
  · refine ⟨⟨⟨sent, hsent, hperm⟩, fun _ => .inr (.inr rfl), fun answer hanswer => .inr ?_⟩, ?_⟩
    · refine ⟨?_, rfl⟩
      rcases List.mem_or_eq_of_mem_set hanswer with hmem | heq
      · -- An earlier shutdown can only have found the results, as the consumer is not broken.
        refine ((h.returned answer hmem).resolve_left ?_).1
        rintro ⟨text, hbroken⟩
        rw [hphase] at hbroken
        simp at hbroken
      · exact ShutdownPhase.returned.inj heq
    · intro results' hresults'
      have hkept := hdelivers.kept results' hresults'
      rw [hphase] at hkept
      exact congrArg some (ConsumerPhase.finished.inj hkept)
  · refine ⟨⟨⟨sent, hsent, hperm⟩, fun _ => .inr (.inl hbroken), fun answer _ => .inl hbroken⟩, ?_⟩
    exact fun _ => id

/-- Every step keeps what is true of a pipeline and its calls, and the results once there are
any. -/
theorem Sound.step (h : c.Sound config) {s : Sink κ} {a : Action}
    (hstep : c.step s a = some c') : c'.Sound config ∧
      ∀ results, c.pipeline.snapshot = some results → c'.pipeline.snapshot = some results := by
  cases a with
  | callSubmit r =>
    obtain rfl := Option.some.inj hstep
    have haccepted : accepted { c with submissions := c.submissions ++ [⟨r, .called⟩] } =
        c.accepted := by
      unfold accepted
      rw [List.filterMap_append]
      exact List.append_nil _
    exact ⟨⟨haccepted ▸ h.delivers, h.begun, h.returned⟩, fun _ => id⟩
  | ask i =>
    simp only [MetricsCalls.step, stepAsk] at hstep
    split at hstep
    · rename_i r hi
      obtain rfl := Option.some.inj hstep
      refine ⟨h.setSubmission hi rfl ?_, fun _ => id⟩
      split <;> rfl
    · simp at hstep
  | send i =>
    obtain ⟨hsound, hsnapshot⟩ := h.stepSend hstep
    exact ⟨hsound, fun _ => hsnapshot.trans⟩
  | callShutdown =>
    obtain rfl := Option.some.inj hstep
    refine ⟨⟨h.delivers, fun hbegun => (h.begun hbegun).imp_left ?_, fun answer hanswer => ?_⟩,
      fun _ => id⟩
    · exact fun ⟨phase, hmem, hlock⟩ => ⟨phase, List.mem_append_left _ hmem, hlock⟩
    · exact h.returned answer ((List.mem_append.mp hanswer).resolve_right (by simp))
  | begin j =>
    obtain ⟨hsound, hsnapshot⟩ := h.stepBegin hstep
    exact ⟨hsound, fun _ => hsnapshot.trans⟩
  | stopAccepting j =>
    simp only [MetricsCalls.step] at hstep
    split at hstep
    · rename_i hj
      obtain rfl := Option.some.inj hstep
      have hpipeline : { c with pipeline := c.pipeline.stopAccepting }.Sound config :=
        h.setPipeline (fun _ hsent => hsent.stopAccepting) rfl rfl id
      exact ⟨hpipeline.setShutdown hj rfl, fun _ => id⟩
    · simp at hstep
  | mark j =>
    obtain ⟨hsound, hsnapshot⟩ := h.stepMark hstep
    exact ⟨hsound, fun _ => hsnapshot.trans⟩
  | join j =>
    simp only [MetricsCalls.step] at hstep
    split at hstep
    · obtain ⟨⟨answer, p⟩, hjoin, rfl⟩ := Option.map_eq_some_iff.mp hstep
      exact h.join j hjoin
    · simp at hstep
  | consume =>
    obtain ⟨⟨p, report⟩, hconsume, rfl⟩ := Option.map_eq_some_iff.mp hstep
    obtain ⟨hsnapshot, hbegun, hbroken⟩ := MetricsPipeline.consume_frame hconsume
    have hpipeline : { c with pipeline := p }.Sound config :=
      h.setPipeline (fun _ hsent => hsent.consume hconsume) hsnapshot hbegun
        fun hbroken' => absurd hbroken' hbroken
    exact ⟨⟨hpipeline.delivers, hpipeline.begun, hpipeline.returned⟩, fun _ => hsnapshot.trans⟩

/-- So does every run. -/
theorem Sound.run (h : c.Sound config) {s : Sink κ} {actions : List Action}
    (hrun : c.run s actions = some c') : c'.Sound config ∧
      ∀ results, c.pipeline.snapshot = some results → c'.pipeline.snapshot = some results := by
  induction actions generalizing c with
  | nil =>
    obtain rfl := Option.some.inj hrun
    exact ⟨h, fun _ => id⟩
  | cons a rest ih =>
    obtain ⟨c₁, hstep, hrest⟩ := Option.bind_eq_some_iff.mp hrun
    obtain ⟨hsound, hkept⟩ := h.step hstep
    obtain ⟨hsound', hkept'⟩ := ih hsound hrest
    exact ⟨hsound', fun results hresults => hkept' results (hkept results hresults)⟩

/-- Once a shutdown has begun, a later one returns at once and leaves the pipeline as it is. -/
theorem stepBegin_of_begun (h : c.pipeline.shutdownBegun = true) {j : Nat}
    (hstep : c.stepBegin j = some c') : c' = c.setShutdown j (.returned (.ok ())) := by
  unfold stepBegin MetricsPipeline.begin? at hstep
  rw [if_pos h] at hstep
  split at hstep
  · split at hstep
    · simp at hstep
    · exact (Option.some.inj hstep).symm
  · simp at hstep

end Steps

/-- Any number of callers submit records to a pipeline and shut it down, in any order of their steps
and those of the consumer. Once there are results, they are those of exactly the records whose
submissions have returned without an error, each counted as often as it was submitted. Unless the
sink broke down, a shutdown that has returned was successful and has left the results. Once one has
begun, any other returns without touching the pipeline, and the results, once there are any, stay
as they are. -/
theorem run_delivers (config : MetricsConfig) (s : Sink κ) (sink : κ) (active : Bool)
    (p : MetricsPipeline κ) (hp : MetricsPipeline.fresh config sink active = .ok p)
    (actions : List Action) (c : MetricsCalls κ) (hc : (fresh p).run s actions = some c)
    (hsink : ∀ text, c.pipeline.phase ≠ .broken text) :
    (∀ results, c.pipeline.snapshot = some results → ∃ records : List MetricsRecord,
      records.Perm c.accepted ∧
      results = (records.foldl Aggregate.add (Aggregate.empty config)).snapshot) ∧
    (∀ answer, .returned answer ∈ c.shutdowns →
      answer = .ok () ∧ c.pipeline.snapshot.isSome = true) ∧
    (c.pipeline.shutdownBegun = true → ∀ j c', c.step s (.begin j) = some c' →
      c' = c.setShutdown j (.returned (.ok ()))) ∧
    ∀ results, c.pipeline.snapshot = some results → ∀ more c', c.run s more = some c' →
      c'.pipeline.snapshot = some results := by
  obtain ⟨hsound, -⟩ := (sound_fresh hp).run hc
  have hwhole : ¬ c.pipeline.IsBroken := fun ⟨text, hbroken⟩ => hsink text hbroken
  refine ⟨fun results hresults => ?_, fun answer hanswer => ?_, fun hbegun j c' hstep => ?_,
    fun results hresults more c' hmore => ?_⟩
  · obtain ⟨sent, hdelivers, hperm⟩ := hsound.delivers
    exact ⟨sent, hperm, hdelivers.snapshot_eq hresults⟩
  · exact (hsound.returned answer hanswer).resolve_left hwhole
  · exact stepBegin_of_begun hbegun hstep
  · exact (hsound.run hmore).2 results hresults

/-- A record of an operation that took so many nanoseconds. -/
def recordOf (n : Nat) : MetricsRecord :=
  ⟨"read", Instant.epoch, Instant.epoch, Duration.saturating n, true⟩

/-- A queue with room for one message. The second record is sent after the marker, and the third one
only when the queue has been closed, though its caller had been admitted. -/
def lateActions : List Action :=
  [.callSubmit (recordOf 1), .callSubmit (recordOf 2), .callSubmit (recordOf 3), .ask 0, .ask 1,
    .ask 2, .send 0, .callShutdown, .callShutdown, .begin 0, .stopAccepting 0, .consume, .mark 0,
    .consume, .send 1, .consume, .send 2, .consume, .consume, .join 0, .begin 1]

/-- The record behind the marker counts, the refused one does not, and the second of two shutdowns
changes nothing. -/
theorem run_delivers_late :
    let config : MetricsConfig := ⟨1, .nano, true⟩
    let s : Sink Unit := ⟨fun _ _ => (.done, ()), fun _ => (.done, ())⟩
    ∃ p c, MetricsPipeline.fresh config () true = .ok p ∧
      (fresh p).run s lateActions = some c ∧ (∀ text, c.pipeline.phase ≠ .broken text) ∧
      c.accepted = [recordOf 1, recordOf 2] ∧
      ∃ results, c.pipeline.snapshot = some results ∧ results.totalCount = 2 ∧
        ∃ records : List MetricsRecord, records.Perm [recordOf 1, recordOf 2] ∧
          results = (records.foldl Aggregate.add (Aggregate.empty config)).snapshot := by
  intro config s
  let p : MetricsPipeline Unit :=
    ⟨1, true, [], .receiving, Collector.fresh config () true, false, none⟩
  have hp : MetricsPipeline.fresh config () true = .ok p := rfl
  have hrun : ((fresh p).run s lateActions).map (fun c => (c.accepted,
      c.pipeline.snapshot.map (·.totalCount))) =
      some ([recordOf 1, recordOf 2], some 2) := by decide +kernel
  obtain ⟨c, hc, hfacts⟩ := Option.map_eq_some_iff.mp hrun
  obtain ⟨haccepted, hcount⟩ := Prod.mk.inj hfacts
  obtain ⟨results, hresults, htotal⟩ := Option.map_eq_some_iff.mp hcount
  have hwhole : ∀ text, c.pipeline.phase ≠ .broken text := by
    intro text hbroken
    obtain ⟨sent, hsent, -⟩ := ((sound_fresh hp).run hc).1.delivers
    rw [hsent.kept results hresults] at hbroken
    simp at hbroken
  have hdelivers := (run_delivers config s () true p hp lateActions c hc hwhole).1 results hresults
  rw [haccepted] at hdelivers
  exact ⟨p, c, hp, hc, hwhole, haccepted, results, hresults, htotal, hdelivers⟩

end MetricsCalls

end WorkloadReplay
