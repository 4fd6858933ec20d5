import WorkloadReplay.Proofs.Completion.Watermark

/-!
# Trackers that are level with their slots

Between two calls of a tracker that has been seeded, the time that its slot took last as initiated
is the highest one that the tracker knows of (`CompletionTracker.Level`). So an operation is
accepted if it starts no earlier than that (`Level.initiate_ok`).

The watermark is reported by completions alone, and only if it goes up. Nevertheless, whenever a
completion that is accepted leaves nothing pending, all that was initiated has been reported
(`complete_caughtUp`).
-/

namespace WorkloadReplay

namespace CompletionTracker

/-- What the tracker's slot took last as initiated is the highest time that was initiated. -/
def Level (t : CompletionTracker) (s : CompletionService) : Prop :=
  ∀ slot, s.slots[t.slot]? = some slot → slot.lastInitiated = t.highestInitiated

section Calls

variable {t t' : CompletionTracker} {s s' : CompletionService} {initiated completed : List Instant}
  {time : Instant}

/-- A tracker stays level where its slot stays as it is. -/
theorem Level.congr (h : t.Level s) (hslot : s'.slots[t.slot]? = s.slots[t.slot]?) : t.Level s' :=
  fun slot hk => h slot (hslot ▸ hk)

/-- Shutdown of the service leaves the tracker level. -/
theorem Level.shutdown (h : t.Level s) : t.Level s.shutdown := by
  intro slot hk
  unfold CompletionService.shutdown at hk
  split_ifs at hk
  · exact h slot hk
  · rw [List.getElem?_map, Option.map_eq_some_iff] at hk
    obtain ⟨slot', hk', rfl⟩ := hk
    exact h slot' hk'

/-- A seed that is accepted makes the tracker level: its time is the highest one, and the one
reported last. -/
theorem Linked.level_seed (h : t.Linked s initiated completed) (hsound : s.Sound)
    (hs : t.seed s time = (.ok (), t', s')) :
    t'.Level s' ∧ t'.highestInitiated = some time ∧ t'.lastSubmitted = some time := by
  obtain ⟨slot, hk, hclaimed, haccounts⟩ := h
  rw [seed_eq] at hs
  split at hs
  · simp at hs
  · rename_i s₁ hinitiated
    obtain ⟨htouches, hle, hk₁⟩ :=
      CompletionService.touches_reportInitiated hsound hk hclaimed hinitiated
    have hhighest := raise_highestInitiated (optionLe_trans haccounts.highest hle)
    rcases t.finishSeed_cases s₁ time with ⟨e, he⟩ | ⟨s₂, hcompleted, he⟩
    · rw [he] at hs
      simp at hs
    · rw [he] at hs
      obtain ⟨-, rfl, rfl⟩ := hs
      obtain ⟨-, hk₂⟩ := CompletionService.touches_reportCompleted htouches.sound hk₁ hcompleted
      refine ⟨fun slot₂ hslot₂ => ?_, hhighest, rfl⟩
      obtain rfl := Option.some.inj (hk₂.symm.trans hslot₂)
      exact hhighest.symm

/-- An operation that is initiated leaves the tracker level, and its time is the highest one. -/
theorem Linked.level_initiate (h : t.Linked s initiated completed) (hsound : s.Sound)
    (hs : t.initiate s time = (.ok (), t', s')) :
    t'.Level s' ∧ t'.highestInitiated = some time ∧ t.highestInitiated ≤ some time := by
  obtain ⟨slot, hk, hclaimed, haccounts⟩ := h
  rcases initiate_cases t s time with ⟨e, he⟩ | ⟨s₁, hinitiated, he⟩
  · rw [he] at hs
    simp at hs
  · rw [he] at hs
    obtain ⟨-, rfl, rfl⟩ := hs
    obtain ⟨-, hle, hk₁⟩ := CompletionService.touches_reportInitiated hsound hk hclaimed hinitiated
    have hle' := optionLe_trans haccounts.highest hle
    refine ⟨fun slot₁ hslot₁ => ?_, raise_highestInitiated hle', hle'⟩
    obtain rfl := Option.some.inj (hk₁.symm.trans hslot₁)
    exact (raise_highestInitiated hle').symm

/-- A completion leaves the tracker level, whether it is accepted or not, and the highest time as it
is. -/
theorem Level.complete (h : t.Level s) {answer : Except ReplayError Unit}
    (hs : t.complete s time = (answer, t', s')) :
    t'.Level s' ∧ t'.highestInitiated = t.highestInitiated := by
  have hs' := congrArg Prod.snd hs
  unfold CompletionTracker.complete at hs'
  split_ifs at hs'
  · rcases submit_cases { t with pending := t.pending.erase time } s with he |
      ⟨mark, s₁, -, hreport, he⟩
    · rw [he] at hs'
      obtain ⟨rfl, rfl⟩ := hs'
      exact ⟨h, rfl⟩
    · rw [he] at hs'
      obtain ⟨rfl, rfl⟩ := hs'
      -- What a slot took as initiated does not change with what it takes as completed.
      refine ⟨fun slot₁ hslot₁ => ?_, rfl⟩
      obtain ⟨-, slot, hk, -, -, rfl⟩ := CompletionService.reportCompleted_eq_ok.mp hreport
      rw [CompletionService.advance_slots,
        List.getElem?_set_self (List.getElem?_eq_some_iff.mp hk).1] at hslot₁
      obtain rfl := Option.some.inj hslot₁
      exact h slot hk
  · obtain ⟨rfl, rfl⟩ := hs'
    exact ⟨h, rfl⟩

/-- A level tracker of an open service accepts an operation that starts no earlier than the highest
time. -/
theorem Level.initiate_ok (h : t.Level s) (hlinked : t.Linked s initiated completed)
    (hopen : s.closed = false) (hle : t.highestInitiated ≤ some time) :
    (t.initiate s time).1 = .ok () := by
  obtain ⟨slot, hk, -⟩ := hlinked
  have haccepted := CompletionService.reportInitiated_eq_ok.mpr
    ⟨hopen, slot, hk, h slot hk ▸ hle, rfl⟩
  unfold CompletionTracker.initiate
  rw [haccepted]

/-- When a submission is accepted, the watermark is no later than what is reported. -/
theorem watermark?_le_of_submit (hs : t.submit s = (.ok (), t', s')) :
    t'.watermark? ≤ t'.lastSubmitted := by
  unfold submit at hs
  split at hs
  · rename_i hnone
    obtain ⟨-, rfl, -⟩ := hs
    rw [hnone]
    exact Option.none_le
  · rename_i mark hmark
    split_ifs at hs with hlast
    · obtain ⟨-, rfl, -⟩ := hs
      rw [hmark]
      cases hsubmitted : t.lastSubmitted with
      | none => simp [hsubmitted] at hlast
      | some last => simpa [hsubmitted] using hlast
    · split at hs
      · simp at hs
      · -- What is reported does not change the watermark.
        obtain ⟨-, rfl, -⟩ := hs
        exact le_of_eq_of_le hmark (optionLe_refl _)

/-- When a completion is accepted, the watermark is no later than what is reported. -/
theorem watermark?_le_of_complete (hs : t.complete s time = (.ok (), t', s')) :
    t'.watermark? ≤ t'.lastSubmitted := by
  unfold CompletionTracker.complete at hs
  split_ifs at hs
  · exact watermark?_le_of_submit hs
  · simp at hs

/-- When a completion is accepted and leaves nothing pending, all that was initiated is reported. -/
theorem complete_caughtUp (hs : t.complete s time = (.ok (), t', s')) (hpending : t'.pending = []) :
    t'.highestInitiated ≤ t'.lastSubmitted := by
  have hreported := watermark?_le_of_complete hs
  -- With nothing pending the watermark is the highest time.
  simpa only [watermark?, hpending] using hreported

end Calls

end CompletionTracker

end WorkloadReplay
