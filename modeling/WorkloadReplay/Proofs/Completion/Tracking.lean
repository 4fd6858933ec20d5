import WorkloadReplay.Proofs.Completion.Level

/-!
# A tracker that is alone in its service

A peer that is the only one of its service first seeds times, and then initiates operations and
completes them in any order. The times that it seeds or initiates do not go back
(`TrackerCall.InOrder`). Under these conditions its tracker is exact
(`TrackerSession.tracker_exact`): nothing is refused but the completion of what is not pending,
completed times are reported only when they go up, and the global completion time has reached an
operation's time as soon as all that was initiated up to that time is completed.

The last of these is carried by an invariant: what was initiated before everything that is pending
has been reported (`TrackerSession.Sound.reached`). A completion keeps it, since the watermark is no
later than what has been reported when the completion is done
(`CompletionTracker.watermark?_le_of_complete`).
-/

namespace WorkloadReplay

/-! ## What a completion submits -/

namespace CompletionTracker

variable {t t' : CompletionTracker} {s s' : CompletionService} {initiated completed : List Instant}
  {time : Instant}

/-- The completed time that a submission reports to the service, if any. -/
def submission? (t : CompletionTracker) : Option Instant :=
  t.watermark?.filter fun time => !t.lastSubmitted.any (time ≤ ·)

/-- A submission reports that time, and nothing else. -/
theorem submit_eq (t : CompletionTracker) (s : CompletionService) :
    t.submit s = match t.submission? with
      | none => (.ok (), t, s)
      | some time =>
        match s.reportCompleted t.slot time with
        | .error e => (.error e, t, s)
        | .ok s => (.ok (), { t with lastSubmitted := some time }, s) := by
  unfold submit submission?
  cases hmark : t.watermark? with
  | none => rfl
  | some mark =>
    cases hlast : t.lastSubmitted.any (mark ≤ ·) with
    | true => simp [Option.filter, hlast]
    | false =>
      cases hreport : s.reportCompleted t.slot mark <;> simp [Option.filter, hlast, hreport]

/-- The completed time that the completion of an operation reports to the service, if any. -/
def completionSubmits? (t : CompletionTracker) (time : Instant) : Option Instant :=
  if time ∈ t.pending then submission? { t with pending := t.pending.erase time } else none

/-- What a completion submits is later than all that was submitted before. -/
theorem lt_of_completionSubmits? {mark d : Instant} (h : t.completionSubmits? time = some mark)
    (hd : some d ≤ t.lastSubmitted) : d < mark := by
  unfold completionSubmits? submission? at h
  split_ifs at h
  obtain ⟨-, hlater⟩ := Option.filter_eq_some_iff.mp h
  obtain ⟨last, hlast, hle⟩ := some_optionLe_iff.mp hd
  rw [hlast] at hlater
  exact lt_of_le_of_lt hle (by simpa using hlater)

/-- A completion that is accepted keeps what it has submitted. -/
theorem lastSubmitted_of_complete (hs : t.complete s time = (.ok (), t', s')) :
    t'.lastSubmitted = (t.completionSubmits? time).or t.lastSubmitted := by
  unfold CompletionTracker.complete at hs
  unfold completionSubmits?
  split_ifs at hs ⊢
  · rw [submit_eq] at hs
    split at hs
    · rename_i hnone
      obtain ⟨-, rfl, -⟩ := hs
      rw [hnone, Option.none_or]
    · rename_i mark hmark
      split at hs
      · simp at hs
      · obtain ⟨-, rfl, -⟩ := hs
        rw [hmark, Option.some_or]
  · simp at hs

/-- A tracker whose slot has taken no later time as initiated accepts a seed. -/
theorem Level.seed_ok (h : t.Level s) (hlinked : t.Linked s initiated completed) (hsound : s.Sound)
    (hopen : s.closed = false) (hle : t.highestInitiated ≤ some time) :
    (t.seed s time).1 = .ok () := by
  obtain ⟨slot, hk, hclaimed, -⟩ := hlinked
  have hinitiated : slot.lastInitiated ≤ some time := h slot hk ▸ hle
  obtain ⟨s₁, hbegun⟩ : ∃ s₁, s.reportInitiated t.slot time = .ok s₁ :=
    ⟨_, CompletionService.reportInitiated_eq_ok.mpr ⟨hopen, slot, hk, hinitiated, rfl⟩⟩
  obtain ⟨htouches, -, hk₁⟩ :=
    CompletionService.touches_reportInitiated hsound hk hclaimed hbegun
  -- The slot has completed no more than it had initiated, and that is no later than the seed.
  have hcompleted : slot.lastCompleted ≤ some time :=
    optionLe_trans (hsound.ordered slot (List.mem_of_getElem? hk)) hinitiated
  obtain ⟨s₂, hdone⟩ : ∃ s₂, s₁.reportCompleted t.slot time = .ok s₂ :=
    ⟨_, CompletionService.reportCompleted_eq_ok.mpr
      ⟨htouches.closed.trans hopen, _, hk₁, hcompleted, optionLe_refl _, rfl⟩⟩
  rw [seed_eq, hbegun]
  dsimp only
  unfold finishSeed
  rw [hdone]

/-- The watermark reaches every time before all that is pending, up to the highest initiated one. -/
theorem le_watermark? (hhighest : some time ≤ t.highestInitiated)
    (hpending : ∀ p ∈ t.pending, time < p) : some time ≤ t.watermark? := by
  unfold watermark?
  split
  · rename_i lowest rest hp
    have hlt : time < lowest := hpending lowest (hp ▸ List.mem_cons_self)
    -- There is an instant before the earliest pending one, since there is an earlier time.
    have hfits : FitsNanos (lowest.nanos - Duration.one.nanos) := by
      have hlow := time.fits.1
      have hhigh := lowest.fits.2
      rw [Instant.lt_iff] at hlt
      simp only [FitsNanos, Duration.one] at *
      omega
    have hbefore : lowest.sub? Duration.one = some ⟨_, hfits⟩ := dif_pos hfits
    rw [hbefore, Option.some_le_some]
    by_contra hnot
    exact absurd ((Instant.sub?_one hbefore time).mp (not_le.mp hnot)) (not_le.mpr hlt)
  · exact hhighest

/-- In a service with one slot the global completion time is what the tracker has submitted last. -/
theorem Linked.global_eq (h : t.Linked s initiated completed) (hsound : s.Sound)
    (honly : s.slots.length = 1) : s.global = t.lastSubmitted := by
  obtain ⟨slot, hk, -, haccounts⟩ := h
  obtain ⟨other, hslots⟩ := List.length_eq_one_iff.mp honly
  have hslot : slot = other := by
    have hmem := List.mem_of_getElem? hk
    rwa [hslots, List.mem_singleton] at hmem
  have hmark := hsound.global
  rw [hslots, List.map_singleton, ← hslot, haccounts.submitted] at hmark
  cases hg : s.global with
  | none =>
    rw [hg] at hmark
    exact List.mem_singleton.mp hmark
  | some g =>
    rw [hg] at hmark
    exact List.mem_singleton.mp hmark.2

end CompletionTracker

/-! ## Calls in order -/

/-- A call of a tracker. -/
inductive TrackerCall where
  | seed (time : Instant)
  | initiate (time : Instant)
  | complete (time : Instant)
  deriving DecidableEq

namespace TrackerCall

/-- The time that a call seeds. -/
def seeded? : TrackerCall → Option Instant
  | seed time => some time
  | initiate _ => none
  | complete _ => none

/-- The time of the operation that a call initiates. -/
def initiated? : TrackerCall → Option Instant
  | seed _ => none
  | initiate time => some time
  | complete _ => none

/-- The time that a call seeds or initiates. -/
def begun? : TrackerCall → Option Instant
  | seed time => some time
  | initiate time => some time
  | complete _ => none

/-- The times that some calls seed. -/
def seeds (cs : List TrackerCall) : List Instant := cs.filterMap seeded?

/-- The times of the operations that some calls initiate. -/
def initiates (cs : List TrackerCall) : List Instant := cs.filterMap initiated?

/-- What one more call seeds. -/
theorem seeds_concat (cs : List TrackerCall) (c : TrackerCall) :
    seeds (cs ++ [c]) = seeds cs ++ c.seeded?.toList := by
  cases c <;> simp [seeds, seeded?]

/-- What one more call initiates. -/
theorem initiates_concat (cs : List TrackerCall) (c : TrackerCall) :
    initiates (cs ++ [c]) = initiates cs ++ c.initiated?.toList := by
  cases c <;> simp [initiates, initiated?]

/-- Calls are in order: the seeds come before all others, and the times that are seeded or initiated
do not go back. Completions may come in any order. -/
structure InOrder (cs : List TrackerCall) : Prop where
  seedsFirst : cs.Pairwise fun a b => b.seeded?.isSome → a.seeded?.isSome
  times : (cs.filterMap begun?).Pairwise (· ≤ ·)

variable {cs more : List TrackerCall} {c : TrackerCall} {time : Instant}

/-- The first of some calls in order are in order. -/
theorem InOrder.of_append (h : InOrder (cs ++ more)) : InOrder cs where
  seedsFirst := (List.pairwise_append.mp h.seedsFirst).1
  times := by
    have htimes := h.times
    rw [List.filterMap_append] at htimes
    exact (List.pairwise_append.mp htimes).1

/-- What is seeded or initiated next is no earlier than anything before. -/
theorem InOrder.le_begun (h : InOrder (cs ++ [c])) (hc : c.begun? = some time) :
    ∀ d ∈ seeds cs ++ initiates cs, d ≤ time := by
  intro d hd
  have htimes := h.times
  rw [List.filterMap_append] at htimes
  refine (List.pairwise_append.mp htimes).2.2 d ?_ time (by simp [hc])
  rw [List.mem_append, seeds, initiates, List.mem_filterMap, List.mem_filterMap] at hd
  rcases hd with ⟨a, ha, hbegun⟩ | ⟨a, ha, hbegun⟩
  · cases a <;> simp_all [seeded?, begun?, List.mem_filterMap]
    exact ⟨_, ha, rfl⟩
  · cases a <;> simp_all [initiated?, begun?, List.mem_filterMap]
    exact ⟨_, ha, rfl⟩

/-- Nothing has been initiated before a seed. -/
theorem InOrder.initiates_eq_nil (h : InOrder (cs ++ [.seed time])) : initiates cs = [] := by
  refine List.filterMap_eq_nil_iff.mpr fun a ha => ?_
  have hseed := (List.pairwise_append.mp h.seedsFirst).2.2 a ha _ List.mem_cons_self rfl
  cases a <;> simp_all [seeded?, initiated?]

end TrackerCall

/-! ## Sessions -/

/-- A tracker with its service, and what has come of the calls. -/
structure TrackerSession where
  tracker : CompletionTracker
  service : CompletionService
  /-- The times of the operations that have been completed, the latest completion first. -/
  completed : List Instant
  /-- The completed times that completions have submitted, the latest first. -/
  submitted : List Instant

namespace TrackerSession

open TrackerCall (InOrder seeds initiates seeds_concat initiates_concat)

/-- A tracker that reports through a slot and has done nothing. -/
def ofSlot (k : Nat) (s : CompletionService) : TrackerSession :=
  ⟨CompletionTracker.ofSlot k, s, [], []⟩

/-- The answer of a call and the session after it. -/
def call (r : TrackerSession) : TrackerCall → Except ReplayError Unit × TrackerSession
  | .seed time =>
    match r.tracker.seed r.service time with
    | (answer, t, s) => (answer, { r with tracker := t, service := s })
  | .initiate time =>
    match r.tracker.initiate r.service time with
    | (answer, t, s) => (answer, { r with tracker := t, service := s })
  | .complete time =>
    let submitted := (r.tracker.completionSubmits? time).toList ++ r.submitted
    match r.tracker.complete r.service time with
    | (.error e, t, s) => (.error e, ⟨t, s, r.completed, submitted⟩)
    | (.ok (), t, s) => (.ok (), ⟨t, s, time :: r.completed, submitted⟩)

/-- The session after some calls, one after another. -/
def calls (r : TrackerSession) (cs : List TrackerCall) : TrackerSession :=
  cs.foldl (fun r c => (r.call c).2) r

/-- What a tracker has submitted as completed, where `last` is the last such time: seeds, and after
them what its completions have submitted, the latest first. -/
structure Reports (seeded submitted : List Instant) (last : Option Instant) : Prop where
  last_eq : last = submitted.head?.or seeded.getLast?
  le_last : ∀ d ∈ seeded ++ submitted, some d ≤ last
  increasing : submitted.Pairwise (· > ·)
  afterSeeds : ∀ mark ∈ submitted, ∀ d ∈ seeded, d < mark

/-- What is true of a session after calls in order, alone in an open service, where `seeded` are the
times that the tracker has seeded and `initiated` those of the operations that it has initiated. -/
structure Sound (seeded initiated : List Instant) (r : TrackerSession) : Prop where
  service : r.service.Sound
  opened : r.service.closed = false
  alone : r.service.slots.length = 1
  level : r.tracker.Level r.service
  linked : r.tracker.Linked r.service (seeded ++ initiated) (seeded ++ r.completed)
  /-- Nothing that is initiated is later than the highest initiated time. -/
  highest : ∀ d ∈ seeded ++ initiated, some d ≤ r.tracker.highestInitiated
  /-- What was initiated before all that is pending has been reported. -/
  reached : ∀ d ∈ seeded ++ initiated, (∀ p ∈ r.tracker.pending, d < p) →
    some d ≤ r.tracker.lastSubmitted
  reports : Reports seeded r.submitted r.tracker.lastSubmitted
  /-- Before anything is initiated, no completion submits anything. -/
  quiet : initiated = [] → r.submitted = []

section Keeping

variable {seeded initiated submitted : List Instant} {last : Option Instant}
  {cs more : List TrackerCall} {c : TrackerCall} {r : TrackerSession} {time : Instant}

/-- A seed that is no earlier than those before is the last time submitted. -/
theorem Reports.seed (hle : ∀ d ∈ seeded, d ≤ time) :
    Reports (seeded ++ [time]) [] (some time) where
  last_eq := by simp
  le_last d hd := by
    rw [List.append_nil, List.mem_append, List.mem_singleton] at hd
    exact Option.some_le_some.mpr (hd.elim (hle d) le_of_eq)
  increasing := List.Pairwise.nil
  afterSeeds _ hmark := absurd hmark List.not_mem_nil

/-- What a completion submits, if anything, is later than all that was submitted before. -/
theorem Reports.complete (h : Reports seeded submitted last) {mark? : Option Instant}
    (hlater : ∀ mark ∈ mark?, ∀ d, some d ≤ last → d < mark) :
    Reports seeded (mark?.toList ++ submitted) (mark?.or last) := by
  cases mark? with
  | none => exact h
  | some mark =>
    have hbefore : ∀ d ∈ seeded ++ submitted, d < mark := fun d hd =>
      hlater mark rfl d (h.le_last d hd)
    obtain ⟨hseeds, hmarks⟩ := List.forall_mem_append.mp hbefore
    refine ⟨rfl, fun d hd => ?_, List.pairwise_cons.mpr ⟨hmarks, h.increasing⟩,
      List.forall_mem_cons.mpr ⟨hseeds, h.afterSeeds⟩⟩
    rcases List.mem_cons.mp (List.perm_middle.mem_iff.mp hd) with rfl | hd
    · exact optionLe_refl _
    · exact Option.some_le_some.mpr (hbefore d hd).le

/-- A session begins sound. -/
theorem sound_ofSlot {peer : String} {k : Nat} {s : CompletionService}
    (h : (CompletionService.ofPeers [peer]).claim = .ok (k, s)) : Sound [] [] (ofSlot k s) := by
  have hsound := CompletionService.sound_ofPeers [peer]
  have hslot : ∀ slot, s.slots[k]? = some slot → slot.lastInitiated = none := by
    intro slot hk
    obtain ⟨-, -, slot', hk', -, rfl⟩ := CompletionService.claim_ok h
    rw [List.getElem?_set_self (List.getElem?_eq_some_iff.mp hk').1] at hk
    obtain rfl := Option.some.inj hk
    have hmem := List.mem_of_getElem? hk'
    obtain rfl : slot' = PeerSlot.free peer := List.mem_singleton.mp hmem
    rfl
  exact ⟨hsound.claim h, CompletionService.closed_claim h,
    (CompletionService.grows_claim h).length, hslot, CompletionTracker.linked_ofSlot hsound h,
    by simp, by simp, ⟨rfl, by simp [ofSlot], List.Pairwise.nil, by simp [ofSlot]⟩, fun _ => rfl⟩

/-- What is completed and what is pending make up what is initiated. -/
theorem Sound.balance (h : Sound seeded initiated r) :
    initiated.Perm (r.completed ++ r.tracker.pending) := by
  obtain ⟨slot, -, -, haccounts⟩ := h.linked
  have hbalance := haccounts.balance
  rw [List.append_assoc] at hbalance
  exact (List.perm_append_left_iff _).mp hbalance

/-- An operation is pending if it has been initiated more often than completed. -/
theorem Sound.mem_pending_iff (h : Sound seeded initiated r) :
    time ∈ r.tracker.pending ↔ r.completed.count time < initiated.count time := by
  rw [h.balance.count_eq, List.count_append, ← List.count_pos_iff]
  omega

/-- A time that is no earlier than all before is no earlier than the highest initiated one. -/
theorem Sound.highest_le (h : Sound seeded initiated r)
    (hle : ∀ d ∈ seeded ++ initiated, d ≤ time) : r.tracker.highestInitiated ≤ some time := by
  obtain ⟨slot, -, -, haccounts⟩ := h.linked
  cases hhighest : r.tracker.highestInitiated with
  | none => exact Option.none_le
  | some highest => exact Option.some_le_some.mpr (hle highest (haccounts.source highest hhighest))

/-- A seed is accepted and keeps the invariant. -/
theorem Sound.seed (h : Sound seeded [] r) (hle : ∀ d ∈ seeded, d ≤ time) :
    (r.call (.seed time)).1 = .ok () ∧
      Sound (seeded ++ [time]) [] (r.call (.seed time)).2 ∧
      r.service.Grows (r.call (.seed time)).2.service := by
  have hpending : r.tracker.pending = [] :=
    (List.append_eq_nil_iff.mp h.balance.nil_eq.symm).2
  have hok := h.level.seed_ok h.linked h.service h.opened (h.highest_le (by simpa using hle))
  dsimp only [TrackerSession.call]
  generalize hs : r.tracker.seed r.service time = answered at hok ⊢
  obtain ⟨answer, t, s⟩ := answered
  obtain rfl : answer = .ok () := hok
  obtain ⟨htouches, hrest⟩ := h.linked.seed h.service hpending hs
  obtain ⟨-, -, hlinked⟩ := hrest rfl
  obtain ⟨hlevel, hhighest, hlast⟩ := h.linked.level_seed h.service hs
  have hreports : Reports (seeded ++ [time]) r.submitted t.lastSubmitted := by
    rw [h.quiet rfl, hlast]
    exact Reports.seed hle
  -- All that is seeded is reported, and it is all that is initiated.
  have hreached : ∀ d ∈ seeded ++ [time] ++ [], some d ≤ t.lastSubmitted := fun d hd =>
    hreports.le_last d (List.mem_append_left _ (by simpa using hd))
  refine ⟨rfl, ⟨htouches.sound, htouches.closed.trans h.opened,
    htouches.grows.length.trans h.alone, hlevel, hlinked.perm ?_ ?_, ?_,
    fun d hd _ => hreached d hd, hreports, h.quiet⟩, htouches.grows⟩
  · simpa using (List.perm_append_singleton time seeded).symm
  · rw [List.append_assoc]
    exact List.perm_middle.symm
  · rw [hhighest, ← hlast]
    exact hreached

/-- An operation that is initiated is accepted and keeps the invariant. -/
theorem Sound.initiate (h : Sound seeded initiated r)
    (hle : ∀ d ∈ seeded ++ initiated, d ≤ time) :
    (r.call (.initiate time)).1 = .ok () ∧
      Sound seeded (initiated ++ [time]) (r.call (.initiate time)).2 ∧
      r.service.Grows (r.call (.initiate time)).2.service := by
  have hok := h.level.initiate_ok h.linked h.opened (h.highest_le hle)
  dsimp only [TrackerSession.call]
  generalize hs : r.tracker.initiate r.service time = answered at hok ⊢
  obtain ⟨answer, t, s⟩ := answered
  obtain rfl : answer = .ok () := hok
  obtain ⟨htouches, -, hlinked, hpending⟩ := h.linked.initiate h.service hs
  obtain ⟨hlevel, hhighest, -⟩ := h.linked.level_initiate h.service hs
  have hlast : t.lastSubmitted = r.tracker.lastSubmitted := by
    rcases r.tracker.initiate_cases r.service time with ⟨e, he⟩ | ⟨s', -, he⟩
    · rw [he] at hs
      simp at hs
    · rw [he] at hs
      obtain ⟨-, rfl, -⟩ := hs
      rfl
  have hmem : ∀ p, p ∈ t.pending ↔ p = time ∨ p ∈ r.tracker.pending := fun p => by
    rw [hpending, CompletionTracker.insertTime_eq_orderedInsert, List.mem_orderedInsert]
  refine ⟨rfl, ⟨htouches.sound, htouches.closed.trans h.opened,
    htouches.grows.length.trans h.alone, hlevel, ?_, ?_, ?_, hlast ▸ h.reports, ?_⟩,
    htouches.grows⟩
  · rw [← List.append_assoc]
    exact hlinked.perm (List.perm_append_singleton time _).symm (List.Perm.refl _)
  · intro d hd
    rw [← List.append_assoc, List.mem_append, List.mem_singleton] at hd
    rw [hhighest]
    exact Option.some_le_some.mpr (hd.elim (hle d) le_of_eq)
  · intro d hd hbefore
    rw [← List.append_assoc, List.mem_append, List.mem_singleton] at hd
    rcases hd with hd | rfl
    · rw [hlast]
      exact h.reached d hd fun p hp => hbefore p ((hmem p).mpr (.inr hp))
    · -- The operation itself is pending.
      exact absurd (hbefore d ((hmem d).mpr (.inl rfl))) (lt_irrefl d)
  · exact fun hnone => absurd hnone (by simp)

/-- The completion of an operation that is pending is accepted and keeps the invariant. -/
theorem Sound.complete (h : Sound seeded initiated r) (hp : time ∈ r.tracker.pending) :
    (r.call (.complete time)).1 = .ok () ∧
      Sound seeded initiated (r.call (.complete time)).2 ∧
      r.service.Grows (r.call (.complete time)).2.service := by
  have hok := h.linked.complete_ok h.opened hp
  dsimp only [TrackerSession.call]
  generalize hs : r.tracker.complete r.service time = answered at hok ⊢
  obtain ⟨answer, t, s⟩ := answered
  obtain rfl : answer = .ok () := hok
  obtain ⟨htouches, -, hlinked, hpending⟩ := h.linked.complete h.service hp hs
  obtain ⟨hlevel, hhighest⟩ := h.level.complete hs
  have hreports : Reports seeded ((r.tracker.completionSubmits? time).toList ++ r.submitted)
      t.lastSubmitted := by
    rw [CompletionTracker.lastSubmitted_of_complete hs]
    exact h.reports.complete fun mark hmark d => CompletionTracker.lt_of_completionSubmits? hmark
  refine ⟨rfl, ⟨htouches.sound, htouches.closed.trans h.opened,
    htouches.grows.length.trans h.alone, hlevel,
    hlinked.perm (List.Perm.refl _) List.perm_middle.symm, hhighest ▸ h.highest,
    fun d hd hbefore => ?_, hreports, fun hnone => ?_⟩, htouches.grows⟩
  · -- The watermark has reached the time, and it is no later than what is reported.
    have hle : some d ≤ t.highestInitiated := hhighest ▸ h.highest d hd
    exact optionLe_trans (CompletionTracker.le_watermark? hle hbefore)
      (CompletionTracker.watermark?_le_of_complete hs)
  · -- Something is pending, and so something is initiated.
    have hmem := h.balance.mem_iff.mpr (List.mem_append_right _ hp)
    rw [hnone] at hmem
    exact absurd hmem List.not_mem_nil

/-- The completion of an operation that is not pending is refused and changes nothing. -/
theorem call_complete_of_not_mem (hp : time ∉ r.tracker.pending) :
    ∃ e, r.call (.complete time) = (.error e, r) := by
  simp [TrackerSession.call, CompletionTracker.complete, CompletionTracker.completionSubmits?, hp]

/-- A completion is accepted if the operation is pending, and else it changes nothing. -/
theorem Sound.complete_iff (h : Sound seeded initiated r) :
    ((r.call (.complete time)).1 = .ok () ↔ time ∈ r.tracker.pending) ∧
      ((r.call (.complete time)).1 ≠ .ok () → (r.call (.complete time)).2 = r) := by
  by_cases hp : time ∈ r.tracker.pending
  · have hok := (h.complete hp).1
    exact ⟨iff_of_true hok hp, fun hnot => absurd hok hnot⟩
  · obtain ⟨e, he⟩ := call_complete_of_not_mem hp
    rw [he]
    exact ⟨iff_of_false (by simp) hp, fun _ => rfl⟩

/-- A call in order keeps the invariant, and what it seeds or initiates is accepted. -/
theorem Sound.call (h : Sound (seeds cs) (initiates cs) r) (hin : InOrder (cs ++ [c])) :
    (c.begun?.isSome → (r.call c).1 = .ok ()) ∧
      Sound (seeds (cs ++ [c])) (initiates (cs ++ [c])) (r.call c).2 ∧
      r.service.Grows (r.call c).2.service := by
  rw [seeds_concat, initiates_concat]
  cases c with
  | seed time =>
    have hle := hin.le_begun rfl
    rw [hin.initiates_eq_nil, List.append_nil] at hle
    rw [hin.initiates_eq_nil] at h ⊢
    obtain ⟨hok, hkept⟩ := h.seed hle
    exact ⟨fun _ => hok, hkept⟩
  | initiate time =>
    obtain ⟨hok, hsound, hgrows⟩ := h.initiate (hin.le_begun rfl)
    exact ⟨fun _ => hok, (List.append_nil (seeds cs)).symm ▸ hsound, hgrows⟩
  | complete time =>
    refine ⟨fun hbegun => absurd hbegun Bool.false_ne_true, ?_⟩
    dsimp only [TrackerCall.seeded?, TrackerCall.initiated?, Option.toList_none]
    rw [List.append_nil, List.append_nil]
    by_cases hp : time ∈ r.tracker.pending
    · exact (h.complete hp).2
    · obtain ⟨e, he⟩ := call_complete_of_not_mem hp
      rw [he]
      exact ⟨h, CompletionService.Grows.refl _⟩

/-- Calls in order keep the invariant. -/
theorem Sound.calls (h : Sound (seeds cs) (initiates cs) r) (hin : InOrder (cs ++ more)) :
    Sound (seeds (cs ++ more)) (initiates (cs ++ more)) (r.calls more) ∧
      r.service.Grows (r.calls more).service := by
  induction more generalizing cs r with
  | nil =>
    rw [List.append_nil]
    exact ⟨h, CompletionService.Grows.refl _⟩
  | cons c more ih =>
    rw [List.append_cons] at hin ⊢
    obtain ⟨-, hnext, hgrows⟩ := h.call hin.of_append
    obtain ⟨hrest, hgrows'⟩ := ih hnext hin
    exact ⟨hrest, hgrows.trans hgrows'⟩

/-- The global completion time is what was submitted last. -/
theorem Sound.global_eq (h : Sound seeded initiated r) :
    r.service.global = r.tracker.lastSubmitted := h.linked.global_eq h.service h.alone

/-- The global completion time has reached an operation when all that was initiated up to its time
is completed. -/
theorem Sound.le_global (h : Sound seeded initiated r) {d : Instant} (hd : d ∈ initiated)
    (hdone : ∀ x ≤ d, initiated.count x = r.completed.count x) : some d ≤ r.service.global := by
  rw [h.global_eq]
  refine h.reached d (List.mem_append_right _ hd) fun p hp => ?_
  by_contra hnot
  exact absurd (hdone p (not_lt.mp hnot)) (h.mem_pending_iff.mp hp).ne'

end Keeping

/-- A tracker that is alone in its service is exact, whatever calls in order are made of it:

* the next time that is seeded or initiated in order is accepted;
* a completion is accepted if and only if the operation is pending, and changes nothing else;
* what is initiated is completed or pending, each as often as it should be, and the tracker counts
  what is pending;
* the times that completions submit go up, from the last seed on, and the global completion time is
  the last of them;
* as soon as all that was initiated up to an operation's time is completed, the global completion
  time has reached that time, and it stays so. -/
theorem tracker_exact {peer : String} {k : Nat} {s : CompletionService}
    (hclaim : (CompletionService.ofPeers [peer]).claim = .ok (k, s)) {cs : List TrackerCall}
    (hin : InOrder cs) {r : TrackerSession} (hr : (ofSlot k s).calls cs = r) :
    (∀ c, c.begun?.isSome → InOrder (cs ++ [c]) → (r.call c).1 = .ok ()) ∧
    (∀ time, ((r.call (.complete time)).1 = .ok () ↔ time ∈ r.tracker.pending) ∧
      ((r.call (.complete time)).1 ≠ .ok () → (r.call (.complete time)).2 = r)) ∧
    (initiates cs).Perm (r.completed ++ r.tracker.pending) ∧
    r.tracker.pendingCount + r.completed.length = (initiates cs).length ∧
    r.submitted.Pairwise (· > ·) ∧ (∀ mark ∈ r.submitted, ∀ d ∈ seeds cs, d < mark) ∧
    r.service.global = r.submitted.head?.or (seeds cs).getLast? ∧
    ∀ d ∈ initiates cs, (∀ x ≤ d, (initiates cs).count x = r.completed.count x) →
      ∀ more, InOrder (cs ++ more) → some d ≤ (r.calls more).service.global := by
  have hstart : Sound (seeds []) (initiates []) (ofSlot k s) := sound_ofSlot hclaim
  obtain ⟨hsound, -⟩ := hstart.calls hin
  rw [List.nil_append, hr] at hsound
  refine ⟨fun c hc hnext => (hsound.call hnext).1 hc, fun time => hsound.complete_iff,
    hsound.balance, ?_, hsound.reports.increasing, hsound.reports.afterSeeds,
    hsound.global_eq.trans hsound.reports.last_eq, fun d hd hdone more hmore => ?_⟩
  · rw [hsound.balance.length_eq, List.length_append, Nat.add_comm]
    rfl
  · exact optionLe_trans (hsound.le_global hd hdone) (hsound.calls hmore).2.global

/-- Two operations share a time, one of them is completed before an earlier operation, and a
completion is refused in between. When all is completed, the global completion time has reached the
operations, also if another one is initiated after them. -/
theorem tracker_exact_sharedTime :
    let cs : List TrackerCall := [.seed ⟨5, by decide⟩, .seed ⟨5, by decide⟩,
      .initiate ⟨7, by decide⟩, .initiate ⟨9, by decide⟩, .complete ⟨9, by decide⟩,
      .initiate ⟨9, by decide⟩, .complete ⟨3, by decide⟩, .complete ⟨7, by decide⟩,
      .complete ⟨9, by decide⟩]
    ∃ k s, (CompletionService.ofPeers ["local"]).claim = .ok (k, s) ∧ InOrder cs ∧
      ∃ r, (ofSlot k s).calls cs = r ∧
        r.submitted = [⟨9, by decide⟩, ⟨8, by decide⟩, ⟨6, by decide⟩] ∧
        (r.call (.initiate ⟨20, by decide⟩)).1 = .ok () ∧
        (r.call (.complete ⟨20, by decide⟩)).2 = r ∧
        some ⟨9, by decide⟩ ≤ (r.calls [.initiate ⟨20, by decide⟩]).service.global := by
  intro cs
  have hin : InOrder (cs ++ [.initiate ⟨20, by decide⟩]) := ⟨by decide, by decide⟩
  have hrun : (CompletionService.ofPeers ["local"]).claim.map (fun (k, s) =>
      let r := (ofSlot k s).calls cs
      (r.submitted, r.tracker.pending)) =
        .ok ([⟨9, by decide⟩, ⟨8, by decide⟩, ⟨6, by decide⟩], []) := rfl
  cases hclaim : (CompletionService.ofPeers ["local"]).claim with
  | error e => simp [hclaim, Except.map] at hrun
  | ok claimed =>
    obtain ⟨k, s⟩ := claimed
    simp only [hclaim, Except.map, Except.ok.injEq, Prod.mk.injEq] at hrun
    generalize hr : (ofSlot k s).calls cs = r at hrun
    obtain ⟨hsubmitted, hpending⟩ := hrun
    obtain ⟨haccepts, hcompletes, hbalance, -, -, -, -, hreaches⟩ :=
      tracker_exact hclaim hin.of_append hr
    refine ⟨k, s, rfl, hin.of_append, r, hr, hsubmitted, haccepts _ rfl hin, ?_,
      hreaches _ (by decide) (fun x _ => ?_) _ hin⟩
    · obtain ⟨hiff, hrefused⟩ := hcompletes ⟨20, by decide⟩
      exact hrefused fun hok => by simpa [hpending] using hiff.mp hok
    · rw [hbalance.count_eq, hpending, List.append_nil]

end TrackerSession

end WorkloadReplay
