import Mathlib.Data.List.Sort
import WorkloadReplay.Completion.Tracker
import WorkloadReplay.Proofs.Completion.Soundness

/-!
# The watermark of a completion tracker

A tracker lets operations complete in any order and yet reports completed times that do not go back.
`CompletionTracker.Accounts` says what it knows at any time: `initiated` and `completed` list the
times of the operations that it has initiated and completed, as often as it has, and the tracker
holds just the difference. `Accounts.kept` is what the watermark is for: nothing that is pending
lies before the completed time that was reported last.

A time that is reported while an operation of that very time is pending is no contradiction, since
operations may share a time. `Accounts.reported` says when it happens: only if another operation of
that time has completed already.

Every call of a tracker keeps the account. `CompletionTracker.Linked` puts the tracker into a
service where other peers report as well: its calls touch no slot but its own, and the calls of
others do not touch that.
-/

namespace WorkloadReplay

namespace CompletionTracker

/-! ## The calls of a tracker -/

/-- A time is put among times in order as the library does it. -/
theorem insertTime_eq_orderedInsert (time : Instant) (ts : List Instant) :
    insertTime time ts = ts.orderedInsert (· ≤ ·) time := by
  induction ts with
  | nil => rfl
  | cons t ts ih => rw [insertTime, List.orderedInsert_cons, ih]

/-- The second half of a seed: its time is reported as completed. -/
def finishSeed (t : CompletionTracker) (s : CompletionService) (time : Instant) : Call :=
  match s.reportCompleted t.slot time with
  | .error e => (.error e, t, s)
  | .ok s => (.ok (), { t.raise time with lastSubmitted := some time }, s)

/-- A seed is a report of an initiated time, and, if that is accepted, the second half. -/
theorem seed_eq (t : CompletionTracker) (s : CompletionService) (time : Instant) :
    t.seed s time = match s.reportInitiated t.slot time with
      | .error e => (.error e, t, s)
      | .ok s => t.finishSeed s time := rfl

/-- The second half of a seed is refused, or the completed time is accepted and kept. -/
theorem finishSeed_cases (t : CompletionTracker) (s : CompletionService) (time : Instant) :
    (∃ e, t.finishSeed s time = (.error e, t, s)) ∨
    ∃ s', s.reportCompleted t.slot time = .ok s' ∧
      t.finishSeed s time = (.ok (), { t.raise time with lastSubmitted := some time }, s') := by
  unfold finishSeed
  cases s.reportCompleted t.slot time with
  | error e => exact .inl ⟨e, rfl⟩
  | ok s' => exact .inr ⟨s', rfl, rfl⟩

/-- An operation is refused, or its initiated time is accepted and the operation pending. -/
theorem initiate_cases (t : CompletionTracker) (s : CompletionService) (time : Instant) :
    (∃ e, t.initiate s time = (.error e, t, s)) ∨
    ∃ s', s.reportInitiated t.slot time = .ok s' ∧ t.initiate s time =
      (.ok (), { t.raise time with pending := insertTime time t.pending }, s') := by
  unfold initiate
  cases s.reportInitiated t.slot time with
  | error e => exact .inl ⟨e, rfl⟩
  | ok s' => exact .inr ⟨s', rfl, rfl⟩

/-- A submission changes nothing, or the watermark is accepted and kept. -/
theorem submit_cases (t : CompletionTracker) (s : CompletionService) :
    (t.submit s).2 = (t, s) ∨
    ∃ time s', t.watermark? = some time ∧ s.reportCompleted t.slot time = .ok s' ∧
      (t.submit s).2 = ({ t with lastSubmitted := some time }, s') := by
  unfold submit
  cases hw : t.watermark? with
  | none => exact .inl rfl
  | some time =>
    simp only
    split_ifs with h
    · exact .inl rfl
    · cases hr : s.reportCompleted t.slot time with
      | error e => exact .inl rfl
      | ok s' => exact .inr ⟨time, s', rfl, hr, rfl⟩

/-! ## The account of a tracker -/

/-- The account of a tracker with a slot is right, where it has initiated and completed operations
of these times. -/
structure Accounts (t : CompletionTracker) (slot : PeerSlot) (initiated completed : List Instant) :
    Prop where
  /-- The completed time in the slot is the one the tracker has submitted last. -/
  submitted : slot.lastCompleted = t.lastSubmitted
  highest : t.highestInitiated ≤ slot.lastInitiated
  sorted : t.pending.Pairwise (· ≤ ·)
  /-- Nothing that is pending is later than the highest initiated time. -/
  raised : ∀ p ∈ t.pending, some p ≤ t.highestInitiated
  /-- Nothing that is pending is earlier than the completed time in the slot. -/
  kept : ∀ p ∈ t.pending, t.lastSubmitted ≤ some p
  /-- What is initiated is completed or pending. -/
  balance : initiated.Perm (completed ++ t.pending)
  /-- The highest initiated time is that of an operation. -/
  source : ∀ time, t.highestInitiated = some time → time ∈ initiated
  /-- The completed time in the slot is that of a completed operation, unless it lies strictly
  before everything that is pending and before the highest initiated time. -/
  reported : ∀ time, t.lastSubmitted = some time → time ∈ completed ∨
    some time < t.highestInitiated ∧ ∀ p ∈ t.pending, time < p

section Keeping

variable {t : CompletionTracker} {slot : PeerSlot} {initiated completed : List Instant}

/-- A tracker that has done nothing has an account with a slot that nothing was reported through. -/
theorem accounts_ofSlot {k : Nat} (h : slot.lastCompleted = none) :
    (ofSlot k).Accounts slot [] [] where
  submitted := h
  highest := Option.none_le
  sorted := List.Pairwise.nil
  raised _ hp := by simp [ofSlot] at hp
  kept _ hp := by simp [ofSlot] at hp
  balance := List.Perm.refl _
  source _ ht := by simp [ofSlot] at ht
  reported _ ht := by simp [ofSlot] at ht

/-- An operation that is pending when its time is the completed time in the slot shares that time
with an operation that has completed. -/
theorem Accounts.mem_completed (h : t.Accounts slot initiated completed) {time : Instant}
    (hp : time ∈ t.pending) (hs : some time ≤ t.lastSubmitted) : time ∈ completed := by
  obtain ⟨last, hlast, hle⟩ := some_optionLe_iff.mp hs
  have hkept := h.kept time hp
  rw [hlast] at hkept
  obtain rfl := le_antisymm hle (Option.some_le_some.mp hkept)
  -- The completed time is not strictly before all that is pending, so it is that of an operation.
  exact (h.reported time hlast).resolve_right fun hr => lt_irrefl _ (hr.2 time hp)

/-- A time that has been reported is no later than some initiated one. -/
theorem Accounts.exists_initiated (h : t.Accounts slot initiated completed) {time : Instant}
    (hreported : some time ≤ t.lastSubmitted) : ∃ later ∈ initiated, time ≤ later := by
  obtain ⟨last, hlast, hle⟩ := some_optionLe_iff.mp hreported
  rcases h.reported last hlast with hdone | ⟨hbelow, -⟩
  · exact ⟨last, h.balance.mem_iff.mpr (List.mem_append_left _ hdone), hle⟩
  · obtain ⟨highest, hhighest, hlt⟩ := some_optionLt_iff.mp hbelow
    exact ⟨highest, h.source highest hhighest, (lt_of_le_of_lt hle hlt).le⟩

/-- An operation that is initiated and not completed does not lie before the completed time in the
slot. -/
theorem Accounts.count_eq (h : t.Accounts slot initiated completed) {time : Instant}
    (hs : some time < t.lastSubmitted) : initiated.count time = completed.count time := by
  obtain ⟨last, hlast, hlt⟩ := some_optionLt_iff.mp hs
  have hp : time ∉ t.pending := fun hp => by
    have hkept := h.kept time hp
    rw [hlast] at hkept
    exact absurd (Option.some_le_some.mp hkept) (not_le.mpr hlt)
  rw [h.balance.count_eq, List.count_append, List.count_eq_zero.mpr hp, Nat.add_zero]

/-- The order in which operations are listed does not matter. -/
theorem Accounts.perm (h : t.Accounts slot initiated completed)
    {initiated' completed' : List Instant} (hi : initiated.Perm initiated')
    (hc : completed.Perm completed') :
    t.Accounts slot initiated' completed' :=
  { h with
    balance := hi.symm.trans (h.balance.trans (hc.append_right t.pending))
    source := fun time ht => hi.mem_iff.mp (h.source time ht)
    reported := fun time ht => (h.reported time ht).imp_left hc.mem_iff.mp }

/-- A later initiated time in the slot keeps the account. -/
theorem Accounts.initiated_slot (h : t.Accounts slot initiated completed) {time : Instant}
    (hle : slot.lastInitiated ≤ some time) :
    t.Accounts { slot with lastInitiated := some time } initiated completed :=
  { h with highest := optionLe_trans h.highest hle }

/-- A time that is at least the highest initiated one becomes the highest. -/
theorem raise_highestInitiated {time : Instant} (h : t.highestInitiated ≤ some time) :
    (t.raise time).highestInitiated = some time := by
  unfold raise
  cases ht : t.highestInitiated with
  | none => rfl
  | some highest =>
    rw [ht] at h
    simp [Instant.later_eq_max, max_eq_right (Option.some_le_some.mp h)]

/-- An operation that is initiated keeps the account. -/
theorem Accounts.initiate (h : t.Accounts slot initiated completed) {time : Instant}
    (hordered : slot.lastCompleted ≤ slot.lastInitiated) (hle : slot.lastInitiated ≤ some time) :
    Accounts { t.raise time with pending := insertTime time t.pending }
      { slot with lastInitiated := some time } (time :: initiated) completed := by
  have hhighest := raise_highestInitiated (optionLe_trans h.highest hle)
  have hmem : ∀ p, p ∈ insertTime time t.pending ↔ p = time ∨ p ∈ t.pending := fun p => by
    rw [insertTime_eq_orderedInsert, List.mem_orderedInsert]
  refine ⟨h.submitted, ?_, ?_, ?_, ?_, ?_, ?_, ?_⟩
  · rw [hhighest]
    exact optionLe_refl _
  · rw [insertTime_eq_orderedInsert]
    exact h.sorted.orderedInsert time t.pending
  · intro p hp
    rw [hhighest]
    rcases (hmem p).mp hp with rfl | hp
    · exact optionLe_refl _
    · exact optionLe_trans (h.raised p hp) (optionLe_trans h.highest hle)
  · intro p hp
    -- What the slot has completed is at most what it has initiated, and so at most the new time.
    rcases (hmem p).mp hp with rfl | hp
    · exact h.submitted ▸ optionLe_trans hordered hle
    · exact h.kept p hp
  · have hperm : (insertTime time t.pending).Perm (time :: t.pending) := by
      rw [insertTime_eq_orderedInsert]
      exact List.perm_orderedInsert _ _ _
    calc (time :: initiated).Perm (time :: (completed ++ t.pending)) := h.balance.cons time
      _ |>.Perm (completed ++ time :: t.pending) := List.perm_middle.symm
      _ |>.Perm (completed ++ insertTime time t.pending) := hperm.symm.append_left completed
  · intro u hu
    rw [hhighest] at hu
    rw [← Option.some.inj hu]
    exact List.mem_cons_self
  · intro u hu
    refine (h.reported u hu).imp_right fun ⟨hlt, hpending⟩ => ?_
    -- The new time is at least the highest one so far, which the completed time does not reach.
    have hnew : u < time := by
      obtain ⟨highest, hhighest', hbelow⟩ := some_optionLt_iff.mp hlt
      have hup := optionLe_trans h.highest hle
      rw [hhighest'] at hup
      exact lt_of_lt_of_le hbelow (Option.some_le_some.mp hup)
    refine ⟨by rw [hhighest]; exact Option.some_lt_some.mpr hnew, fun p hp => ?_⟩
    rcases (hmem p).mp hp with rfl | hp
    · exact hnew
    · exact hpending p hp

/-- A seed keeps the account, if nothing is pending. -/
theorem Accounts.finishSeed (h : t.Accounts slot initiated completed) {time : Instant}
    (hp : t.pending = []) (ht : slot.lastInitiated = some time) :
    Accounts { t.raise time with lastSubmitted := some time }
      { slot with lastCompleted := some time } (time :: initiated) (time :: completed) := by
  have hhighest := raise_highestInitiated (ht ▸ h.highest)
  have hnone : ∀ p, p ∉ t.pending := by simp [hp]
  refine ⟨rfl, ?_, h.sorted, fun p hmem => absurd hmem (hnone p),
    fun p hmem => absurd hmem (hnone p), h.balance.cons time, ?_, ?_⟩
  · rw [hhighest, ht]
    exact optionLe_refl _
  · intro u hu
    rw [hhighest] at hu
    rw [← Option.some.inj hu]
    exact List.mem_cons_self
  · intro u hu
    rw [← Option.some.inj hu]
    exact .inl List.mem_cons_self

/-- An operation that is not pending any more is completed. -/
theorem Accounts.erase (h : t.Accounts slot initiated completed) {time : Instant}
    (hp : time ∈ t.pending) :
    Accounts { t with pending := t.pending.erase time } slot initiated (time :: completed) where
  submitted := h.submitted
  highest := h.highest
  sorted := h.sorted.sublist List.erase_sublist
  raised p hmem := h.raised p (List.mem_of_mem_erase hmem)
  kept p hmem := h.kept p (List.mem_of_mem_erase hmem)
  balance := calc
    initiated.Perm (completed ++ t.pending) := h.balance
    _ |>.Perm (completed ++ time :: t.pending.erase time) :=
      (List.perm_cons_erase hp).append_left completed
    _ |>.Perm (time :: (completed ++ t.pending.erase time)) := List.perm_middle
  source := h.source
  reported u hu := (h.reported u hu).imp (List.mem_cons_of_mem time) fun ⟨hlt, hpending⟩ =>
    ⟨hlt, fun p hmem => hpending p (List.mem_of_mem_erase hmem)⟩

/-- The watermark keeps the account when it becomes the completed time in the slot. -/
theorem Accounts.submit (h : t.Accounts slot initiated completed) {time : Instant}
    (hw : t.watermark? = some time) :
    Accounts { t with lastSubmitted := some time } { slot with lastCompleted := some time }
      initiated completed := by
  unfold watermark? at hw
  split at hw
  · -- With something pending the watermark lies just before the earliest of it.
    rename_i lowest rest hp
    have hlowest : ∀ p ∈ t.pending, lowest ≤ p := fun p hmem => by
      have hsorted := h.sorted
      rw [hp] at hmem hsorted
      rcases List.mem_cons.mp hmem with rfl | hmem
      · exact le_refl _
      · exact List.rel_of_pairwise_cons hsorted hmem
    have hbelow : ∀ p ∈ t.pending, time < p := fun p hmem =>
      (Instant.sub?_one hw p).mpr (hlowest p hmem)
    have hfirst : lowest ∈ t.pending := hp ▸ List.mem_cons_self
    refine { h with submitted := rfl, kept := ?_, reported := ?_ }
    · intro p hmem
      exact Option.some_le_some.mpr (le_of_lt (hbelow p hmem))
    · intro u hu
      obtain rfl := Option.some.inj hu
      obtain ⟨highest, hhighest, hle⟩ := some_optionLe_iff.mp (h.raised lowest hfirst)
      have hlt : time < highest := lt_of_lt_of_le (hbelow lowest hfirst) hle
      exact .inr ⟨some_optionLt_iff.mpr ⟨highest, hhighest, hlt⟩, hbelow⟩
  · -- With nothing pending the watermark is the highest initiated time.
    rename_i hp
    have hnone : ∀ p, p ∉ t.pending := by simp [hp]
    refine { h with submitted := rfl, kept := fun p hmem => absurd hmem (hnone p), reported := ?_ }
    · intro u hu
      obtain rfl := Option.some.inj hu
      -- The highest initiated time is that of an operation, and all operations are completed.
      have hmem := h.balance.mem_iff.mp (h.source time hw)
      rw [hp, List.append_nil] at hmem
      exact .inl hmem

/-- The watermark does not go beyond the highest initiated time. -/
theorem Accounts.watermark_le (h : t.Accounts slot initiated completed) {time : Instant}
    (hw : t.watermark? = some time) : some time ≤ t.highestInitiated := by
  unfold watermark? at hw
  split at hw
  · rename_i lowest rest hp
    have hlowest : lowest ∈ t.pending := hp ▸ List.mem_cons_self
    have hlt : time < lowest := (Instant.sub?_one hw lowest).mpr (le_refl _)
    exact optionLe_trans (Option.some_le_some.mpr hlt.le) (h.raised lowest hlowest)
  · exact hw ▸ optionLe_refl _

end Keeping

/-! ## Trackers in a service -/

/-- The tracker reports through a slot of a service that is claimed while the service is open, and
its account with that slot is right. -/
def Linked (t : CompletionTracker) (s : CompletionService) (initiated completed : List Instant) :
    Prop :=
  ∃ slot, s.slots[t.slot]? = some slot ∧ (s.closed = false → slot.claimed = true) ∧
    t.Accounts slot initiated completed

section Calls

variable {t t' : CompletionTracker} {s s' : CompletionService} {initiated completed : List Instant}

/-- What has been reported through the slot of a tracker is no earlier than the global completion
time. -/
theorem Linked.global_le (h : t.Linked s initiated completed) (hs : s.Sound) :
    s.global ≤ t.lastSubmitted := by
  obtain ⟨slot, hk, -, haccounts⟩ := h
  rw [← haccounts.submitted]
  exact hs.global.le (List.mem_map_of_mem (List.mem_of_getElem? hk))

/-- The order in which operations are listed does not matter. -/
theorem Linked.perm (h : t.Linked s initiated completed) {initiated' completed' : List Instant}
    (hi : initiated.Perm initiated') (hc : completed.Perm completed') :
    t.Linked s initiated' completed' := by
  obtain ⟨slot, hk, hclaimed, haccounts⟩ := h
  exact ⟨slot, hk, hclaimed, haccounts.perm hi hc⟩

/-- Reports through another slot leave the tracker as it is. -/
theorem Linked.of_touches (h : t.Linked s initiated completed) {k : Nat} (hne : k ≠ t.slot)
    (ht : s.Touches k s') : t.Linked s' initiated completed := by
  obtain ⟨slot, hk, hclaimed, haccounts⟩ := h
  exact ⟨slot, (ht.others t.slot hne).trans hk, fun hc => hclaimed (ht.closed ▸ hc), haccounts⟩

/-- The claim of a slot leaves the tracker as it is, and takes another slot than its own. -/
theorem Linked.claim (h : t.Linked s initiated completed) {k : Nat} (hs : s.claim = .ok (k, s')) :
    k ≠ t.slot ∧ t.Linked s' initiated completed := by
  obtain ⟨slot, hk, hclaimed, haccounts⟩ := h
  obtain ⟨hc, -, slot', hk', hfree, rfl⟩ := CompletionService.claim_ok hs
  -- The slot that is claimed was free, and the tracker's slot is not.
  have hne : k ≠ t.slot := by
    rintro rfl
    rw [hk] at hk'
    obtain rfl := Option.some.inj hk'
    rw [hclaimed hc] at hfree
    simp at hfree
  exact ⟨hne, slot, (List.getElem?_set_ne hne).trans hk, hclaimed, haccounts⟩

/-- Shutdown of the service leaves the tracker as it is. -/
theorem Linked.shutdown (h : t.Linked s initiated completed) :
    t.Linked s.shutdown initiated completed := by
  obtain ⟨slot, hk, hclaimed, haccounts⟩ := h
  unfold CompletionService.shutdown
  split_ifs with hc
  · exact ⟨slot, hk, hclaimed, haccounts⟩
  · exact ⟨{ slot with claimed := false }, by simp [hk], by simp, { haccounts with }⟩

/-- A tracker for a slot that has just been claimed is linked. -/
theorem linked_ofSlot {k : Nat} (hsound : s.Sound) (hs : s.claim = .ok (k, s')) :
    (ofSlot k).Linked s' [] [] := by
  obtain ⟨hc, -, slot, hk, hfree, rfl⟩ := CompletionService.claim_ok hs
  have hm : slot ∈ s.slots := List.mem_of_getElem? hk
  have hnone : slot.lastCompleted = none := by
    have hle := hsound.ordered slot hm
    rw [hsound.untouched hc slot hm hfree] at hle
    exact Option.le_none.mp hle
  exact ⟨{ slot with claimed := true },
    List.getElem?_set_self (List.getElem?_eq_some_iff.mp hk).1, fun _ => rfl, accounts_ofSlot hnone⟩

/-- The first half of a seed keeps the link. -/
theorem Linked.beginSeed (h : t.Linked s initiated completed) (hsound : s.Sound) {time : Instant}
    (hs : s.reportInitiated t.slot time = .ok s') : s.Touches t.slot s' ∧
      t.Linked s' initiated completed ∧
      ∀ slot, s'.slots[t.slot]? = some slot → slot.lastInitiated = some time := by
  obtain ⟨slot, hk, hclaimed, haccounts⟩ := h
  obtain ⟨htouches, hle, hk'⟩ := CompletionService.touches_reportInitiated hsound hk hclaimed hs
  refine ⟨htouches, ⟨_, hk', fun hc => hclaimed (htouches.closed ▸ hc),
    haccounts.initiated_slot hle⟩, fun slot' hs' => ?_⟩
  rw [hk'] at hs'
  rw [← Option.some.inj hs']

/-- The second half of a seed keeps the link, if nothing is pending. -/
theorem Linked.finishSeed (h : t.Linked s initiated completed) (hsound : s.Sound) {time : Instant}
    (hp : t.pending = [])
    (ht : ∀ slot, s.slots[t.slot]? = some slot → slot.lastInitiated = some time)
    (hs : s.reportCompleted t.slot time = .ok s') : s.Touches t.slot s' ∧
      Linked { t.raise time with lastSubmitted := some time } s' (time :: initiated)
        (time :: completed) := by
  obtain ⟨slot, hk, hclaimed, haccounts⟩ := h
  obtain ⟨htouches, hk'⟩ := CompletionService.touches_reportCompleted hsound hk hs
  exact ⟨htouches, _, hk', fun hc => hclaimed (htouches.closed ▸ hc),
    haccounts.finishSeed hp (ht slot hk)⟩

/-- A seed that is made in one go touches no other slot, and keeps the link if it is accepted. -/
theorem Linked.seed (h : t.Linked s initiated completed) (hsound : s.Sound) {time : Instant}
    {answer : Except ReplayError Unit} (hp : t.pending = [])
    (hs : t.seed s time = (answer, t', s')) : s.Touches t.slot s' ∧ (answer = .ok () →
      t'.slot = t.slot ∧ t'.pending = [] ∧
        t'.Linked s' (time :: initiated) (time :: completed)) := by
  rw [seed_eq] at hs
  split at hs
  · obtain ⟨rfl, -, rfl⟩ := hs
    exact ⟨CompletionService.Touches.refl _ hsound, by simp⟩
  · rename_i service hr
    obtain ⟨htouches, hlinked, hlast⟩ := h.beginSeed hsound hr
    rcases t.finishSeed_cases service time with ⟨e, he⟩ | ⟨service', hr', he⟩
    · rw [he] at hs
      obtain ⟨rfl, -, rfl⟩ := hs
      exact ⟨htouches, by simp⟩
    · rw [he] at hs
      obtain ⟨rfl, rfl, rfl⟩ := hs
      obtain ⟨htouches', hlinked'⟩ := hlinked.finishSeed htouches.sound hp hlast hr'
      exact ⟨htouches.trans htouches', fun _ => ⟨rfl, hp, hlinked'⟩⟩

/-- An operation that is initiated keeps the link. -/
theorem Linked.initiate (h : t.Linked s initiated completed) (hsound : s.Sound) {time : Instant}
    (hs : t.initiate s time = (.ok (), t', s')) : s.Touches t.slot s' ∧ t'.slot = t.slot ∧
      t'.Linked s' (time :: initiated) completed ∧ t'.pending = insertTime time t.pending := by
  rcases initiate_cases t s time with ⟨e, he⟩ | ⟨service, hr, he⟩
  · rw [he] at hs
    simp at hs
  · rw [he] at hs
    obtain ⟨-, rfl, rfl⟩ := hs
    obtain ⟨slot, hk, hclaimed, haccounts⟩ := h
    obtain ⟨htouches, hle, hk'⟩ := CompletionService.touches_reportInitiated hsound hk hclaimed hr
    have hordered := hsound.ordered slot (List.mem_of_getElem? hk)
    exact ⟨htouches, rfl, ⟨_, hk', fun hc => hclaimed (htouches.closed ▸ hc),
      haccounts.initiate hordered hle⟩, rfl⟩

/-- An operation that is completed keeps the link, whether the watermark is accepted or not. -/
theorem Linked.complete (h : t.Linked s initiated completed) (hsound : s.Sound) {time : Instant}
    {answer : Except ReplayError Unit} (hp : time ∈ t.pending)
    (hs : t.complete s time = (answer, t', s')) : s.Touches t.slot s' ∧ t'.slot = t.slot ∧
      t'.Linked s' initiated (time :: completed) ∧ t'.pending = t.pending.erase time := by
  obtain ⟨slot, hk, hclaimed, haccounts⟩ := h
  have herase := haccounts.erase hp
  unfold CompletionTracker.complete at hs
  rw [if_pos hp] at hs
  -- The answer does not matter: the operation is not pending any more in either case.
  have hs' := congrArg Prod.snd hs
  rcases submit_cases { t with pending := t.pending.erase time } s with he |
    ⟨watermark, service, hw, hr, he⟩
  · rw [he] at hs'
    obtain ⟨rfl, rfl⟩ := hs'
    exact ⟨CompletionService.Touches.refl _ hsound, rfl, ⟨slot, hk, hclaimed, herase⟩, rfl⟩
  · rw [he] at hs'
    obtain ⟨rfl, rfl⟩ := hs'
    obtain ⟨htouches, hk'⟩ := CompletionService.touches_reportCompleted hsound hk hr
    exact ⟨htouches, rfl, ⟨_, hk', fun hc => hclaimed (htouches.closed ▸ hc), herase.submit hw⟩,
      rfl⟩

/-- The completion of an operation that is not pending changes nothing. -/
theorem complete_of_not_mem {time : Instant} (hp : time ∉ t.pending) :
    (t.complete s time).2 = (t, s) := by
  unfold CompletionTracker.complete
  rw [if_neg hp]

/-- The completion of a pending operation is accepted while the service is open. -/
theorem Linked.complete_ok (h : t.Linked s initiated completed) (hopen : s.closed = false)
    {time : Instant} (hp : time ∈ t.pending) : (t.complete s time).1 = .ok () := by
  obtain ⟨slot, hk, -, haccounts⟩ := h
  have herase := haccounts.erase hp
  unfold CompletionTracker.complete
  rw [if_pos hp]
  generalize ht : { t with pending := t.pending.erase time } = u at herase
  have hslot : u.slot = t.slot := ht ▸ rfl
  unfold submit
  split
  · rfl
  · rename_i mark hw
    split_ifs with hlast
    · rfl
    · -- The mark is later than the one reported last, and not beyond what is initiated.
      have hlow : slot.lastCompleted ≤ some mark := by
        rw [herase.submitted]
        cases hu : u.lastSubmitted with
        | none => exact Option.none_le
        | some last =>
          rw [hu] at hlast
          exact Option.some_le_some.mpr (le_of_lt (by simpa using hlast))
      have hhigh : some mark ≤ slot.lastInitiated :=
        optionLe_trans (herase.watermark_le hw) herase.highest
      have haccepted := CompletionService.reportCompleted_eq_ok.mpr
        ⟨hopen, slot, hslot ▸ hk, hlow, hhigh, rfl⟩
      rw [haccepted]

end Calls

end CompletionTracker

namespace CompletionService

variable {p : CompletionService → Prop} {s : CompletionService}

/-- A seed takes nothing lasting away. -/
theorem Lasting.seed (hp : Lasting p) (h : p s) (t : CompletionTracker) (time : Instant) :
    p (t.seed s time).2.2 := by
  rw [CompletionTracker.seed_eq]
  split
  · exact h
  · rename_i s' hs
    rcases t.finishSeed_cases s' time with ⟨e, he⟩ | ⟨s'', hs', he⟩
    · rw [he]
      exact hp.initiated hs h
    · rw [he]
      exact hp.completed hs' (hp.initiated hs h)

/-- The initiation of an operation takes nothing lasting away. -/
theorem Lasting.initiate (hp : Lasting p) (h : p s) (t : CompletionTracker) (time : Instant) :
    p (t.initiate s time).2.2 := by
  rcases t.initiate_cases s time with ⟨e, he⟩ | ⟨s', hs, he⟩
  · rw [he]
    exact h
  · rw [he]
    exact hp.initiated hs h

/-- The completion of an operation takes nothing lasting away. -/
theorem Lasting.complete (hp : Lasting p) (h : p s) (t : CompletionTracker) (time : Instant) :
    p (t.complete s time).2.2 := by
  unfold CompletionTracker.complete
  split_ifs
  · rcases CompletionTracker.submit_cases { t with pending := t.pending.erase time } s with
      he | ⟨mark, s', -, hs, he⟩
    · rw [he]
      exact h
    · rw [he]
      exact hp.completed hs h
  · exact h

end CompletionService

end WorkloadReplay
