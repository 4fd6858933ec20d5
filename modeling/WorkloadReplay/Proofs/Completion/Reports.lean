import WorkloadReplay.Completion.Service
import WorkloadReplay.Proofs.Time.Order

/-!
# What reports do to the completion time service

Each function of the service has one lemma here that says when it succeeds and what it changes:
`claim_ok` for a claim, `reportInitiated_eq_ok` and `reportCompleted_eq_ok` for the two reports.
Everything else about the service is derived from these.

`CompletionService.Sound` is the invariant of the service. Its last clause is the point: the global
completion time is kept as a number of its own and moved up with every accepted report, and yet it
is always the least of the completed times that the slots hold, and unknown as long as a slot holds
none (`LowMark`).
-/

namespace WorkloadReplay

namespace PeerSlot

/-- A slot takes an initiated time unless an earlier one was later, and keeps just that time. -/
theorem initiated_eq_ok {s s' : PeerSlot} {time : Instant} :
    s.initiated time = .ok s' ↔
      s.lastInitiated ≤ some time ∧ s' = { s with lastInitiated := some time } := by
  unfold initiated
  cases hs : s.lastInitiated with
  | none => simp [eq_comm]
  | some previous =>
    by_cases h : time < previous
    · simp [h]
    · simp [h, not_lt.mp h, eq_comm]

/-- A slot takes a completed time that lies between the last completed and the last initiated one,
and keeps just that time. -/
theorem completed_eq_ok {s s' : PeerSlot} {time : Instant} :
    s.completed time = .ok s' ↔ s.lastCompleted ≤ some time ∧ some time ≤ s.lastInitiated ∧
      s' = { s with lastCompleted := some time } := by
  have hc : s.lastCompleted.any (time < ·) = true ↔ ¬ s.lastCompleted ≤ some time := by
    cases s.lastCompleted <;> simp
  have hi : s.lastInitiated.any (time ≤ ·) = true ↔ some time ≤ s.lastInitiated := by
    cases s.lastInitiated <;> simp
  unfold completed
  split_ifs with h1 h2
  · simp [hc.mp h1]
  · rw [hc, not_not] at h1
    simp [h1, hi.mp h2, eq_comm]
  · simp [mt hi.mpr h2]

end PeerSlot

/-- `g` is the least of some times that may be missing: there is no least time as long as one of
them is missing. -/
def LowMark (times : List (Option Instant)) : Option Instant → Prop
  | none => none ∈ times
  | some g => (∀ t ∈ times, some g ≤ t) ∧ some g ∈ times

/-- The least time is at most every other one. -/
theorem LowMark.le {times : List (Option Instant)} {g : Option Instant} (h : LowMark times g)
    {t : Option Instant} (ht : t ∈ times) : g ≤ t := by
  cases g with
  | none => exact Option.none_le
  | some g => exact h.1 t ht

namespace CompletionService

/-- The earliest contribution is the least one. -/
theorem lowMark_earliest? {slots : List PeerSlot} (h : slots ≠ []) :
    LowMark (slots.map PeerSlot.contribution?) (earliest? slots) := by
  fun_induction earliest? slots with
  | case1 => simp at h
  | case2 s => cases hs : s.contribution? <;> simp [LowMark, hs]
  | case3 s t rest a b hb ha ih =>
    -- The first slot and some later one contribute: the earlier of the two times is the least.
    have ih := ih (by simp)
    rw [hb] at ih
    rw [Instant.earlier_eq_min]
    refine ⟨?_, ?_⟩
    · intro x hx
      rcases List.mem_cons.mp hx with rfl | hx
      · simp [ha]
      · exact optionLe_trans (by simp) (ih.1 x hx)
    · rcases min_choice a b with hab | hab
      · simp [hab, ha]
      · rw [hab]; exact List.mem_cons_of_mem _ ih.2
  | case4 s t rest x ih =>
    -- Some slot contributes nothing, and then there is no earliest time.
    have ih := ih (by simp)
    cases hs : s.contribution? with
    | none => simp [LowMark, hs]
    | some a =>
      cases hr : earliest? (t :: rest) with
      | none => rw [hr] at ih; exact List.mem_cons_of_mem _ ih
      | some b => exact absurd hr (x a b hs)

/-! ## The functions of the service -/

/-- A claim takes a slot that nobody has claimed, and changes nothing but its mark. -/
theorem claimSlot_eq_some {i k : Nat} {slots slots' : List PeerSlot}
    (h : claimSlot i slots = some (k, slots')) :
    ∃ j slot, k = i + j ∧ slots[j]? = some slot ∧ slot.claimed = false ∧
      slots' = slots.set j { slot with claimed := true } := by
  induction slots generalizing i k slots' with
  | nil => simp [claimSlot] at h
  | cons slot rest ih =>
    unfold claimSlot at h
    split at h
    · obtain ⟨⟨k', rest'⟩, hr, heq⟩ := Option.map_eq_some_iff.mp h
      obtain ⟨j, slot', rfl, hj, hc, rfl⟩ := ih hr
      obtain ⟨rfl, rfl⟩ := Prod.mk.inj heq
      exact ⟨j + 1, slot', by omega, hj, hc, rfl⟩
    · rename_i hc
      obtain ⟨rfl, rfl⟩ := Prod.mk.inj (Option.some.inj h)
      exact ⟨0, slot, rfl, rfl, by simpa using hc, rfl⟩

/-- What a claim that succeeds does. -/
theorem claim_ok {s s' : CompletionService} {k : Nat} (h : s.claim = .ok (k, s')) :
    s.closed = false ∧ s.peerIds ≠ [] ∧ ∃ slot, s.slots[k]? = some slot ∧ slot.claimed = false ∧
      s' = { s with slots := s.slots.set k { slot with claimed := true } } := by
  unfold claim claimFree at h
  split_ifs at h with hp hc
  split at h
  · rename_i k' slots' hs
    obtain ⟨j, slot, rfl, hj, hf, rfl⟩ := claimSlot_eq_some hs
    obtain ⟨rfl, rfl⟩ := Prod.mk.inj (Except.ok.inj h)
    rw [Nat.zero_add]
    exact ⟨by simpa using hc, by simpa using hp, slot, hj, hf, rfl⟩
  · simp at h

/-- A report that succeeds replaces the slot of an open service. -/
theorem report_eq_ok {s s' : CompletionService} {k : Nat}
    {f : PeerSlot → Except ReplayError PeerSlot} :
    s.report k f = .ok s' ↔ s.closed = false ∧ ∃ slot slot', s.slots[k]? = some slot ∧
      f slot = .ok slot' ∧ s' = { s with slots := s.slots.set k slot' } := by
  unfold report
  cases hc : s.closed with
  | true => simp
  | false =>
    cases hk : s.slots[k]? with
    | none => simp
    | some slot => cases hf : f slot <;> simp [Except.map, hf, eq_comm]

/-- What an initiated time that is accepted does. -/
theorem reportInitiated_eq_ok {s s' : CompletionService} {k : Nat} {time : Instant} :
    s.reportInitiated k time = .ok s' ↔ s.closed = false ∧ ∃ slot, s.slots[k]? = some slot ∧
      slot.lastInitiated ≤ some time ∧
      s' = { s with slots := s.slots.set k { slot with lastInitiated := some time } } := by
  simp only [reportInitiated, report_eq_ok, PeerSlot.initiated_eq_ok]
  constructor
  · rintro ⟨hc, slot, _, hk, ⟨hle, rfl⟩, rfl⟩
    exact ⟨hc, slot, hk, hle, rfl⟩
  · rintro ⟨hc, slot, hk, hle, rfl⟩
    exact ⟨hc, slot, _, hk, ⟨hle, rfl⟩, rfl⟩

/-- What a completed time that is accepted does. -/
theorem reportCompleted_eq_ok {s s' : CompletionService} {k : Nat} {time : Instant} :
    s.reportCompleted k time = .ok s' ↔ s.closed = false ∧ ∃ slot, s.slots[k]? = some slot ∧
      slot.lastCompleted ≤ some time ∧ some time ≤ slot.lastInitiated ∧
      s' = advance { s with slots := s.slots.set k { slot with lastCompleted := some time } } := by
  have hmap : s.reportCompleted k time = .ok s' ↔
      ∃ t, s.report k (·.completed time) = .ok t ∧ s' = advance t := by
    unfold reportCompleted
    cases s.report k (·.completed time) <;> simp [Except.map, eq_comm]
  simp only [hmap, report_eq_ok, PeerSlot.completed_eq_ok]
  constructor
  · rintro ⟨_, ⟨hc, slot, _, hk, ⟨hlo, hhi, rfl⟩, rfl⟩, rfl⟩
    exact ⟨hc, slot, hk, hlo, hhi, rfl⟩
  · rintro ⟨hc, slot, hk, hlo, hhi, rfl⟩
    exact ⟨_, ⟨hc, slot, _, hk, ⟨hlo, hhi, rfl⟩, rfl⟩, rfl⟩

/-- A time is reached if the global completion time is no earlier. -/
theorem hasReached_iff {s : CompletionService} {time : Instant} :
    s.hasReached time = true ↔ some time ≤ s.global := by
  unfold hasReached
  cases s.global <;> simp

/-- Moving the global completion time up leaves the slots alone. -/
@[simp] theorem advance_slots (s : CompletionService) : s.advance.slots = s.slots := by
  unfold advance; split <;> rfl

/-- Moving the global completion time up does not close the service. -/
@[simp] theorem advance_closed (s : CompletionService) : s.advance.closed = s.closed := by
  unfold advance; split <;> rfl

/-- A report of an initiated time does not close the service. -/
theorem closed_reportInitiated {s s' : CompletionService} {k : Nat} {time : Instant}
    (h : s.reportInitiated k time = .ok s') : s'.closed = s.closed := by
  obtain ⟨-, slot, -, -, rfl⟩ := reportInitiated_eq_ok.mp h
  rfl

/-- A report of a completed time does not close the service. -/
theorem closed_reportCompleted {s s' : CompletionService} {k : Nat} {time : Instant}
    (h : s.reportCompleted k time = .ok s') : s'.closed = s.closed := by
  obtain ⟨-, slot, -, -, -, rfl⟩ := reportCompleted_eq_ok.mp h
  exact advance_closed _

/-- The claim of a slot does not close the service. -/
theorem closed_claim {s s' : CompletionService} {k : Nat} (h : s.claim = .ok (k, s')) :
    s'.closed = s.closed := by
  obtain ⟨-, -, slot, -, -, rfl⟩ := claim_ok h
  rfl

/-- What no claim and no report takes away from the service. -/
structure Lasting (p : CompletionService → Prop) : Prop where
  claim : ∀ {s s' : CompletionService} {k : Nat}, s.claim = .ok (k, s') → p s → p s'
  initiated : ∀ {s s' : CompletionService} {k : Nat} {time : Instant},
    s.reportInitiated k time = .ok s' → p s → p s'
  completed : ∀ {s s' : CompletionService} {k : Nat} {time : Instant},
    s.reportCompleted k time = .ok s' → p s → p s'

/-- An open service stays open, and a closed one closed. -/
theorem lasting_closed (closed : Bool) : Lasting (·.closed = closed) where
  claim hs h := (closed_claim hs).trans h
  initiated hs h := (closed_reportInitiated hs).trans h
  completed hs h := (closed_reportCompleted hs).trans h

/-- Moving the global completion time up leaves the peers alone. -/
@[simp] theorem advance_peerIds (s : CompletionService) : s.advance.peerIds = s.peerIds := by
  unfold advance; split <;> rfl

/-- The global completion time moves up only. -/
theorem global_le_advance (s : CompletionService) : s.global ≤ s.advance.global := by
  unfold advance
  split
  · exact optionLe_refl _
  · cases s.global with
    | none => exact Option.none_le
    | some g => simp [Instant.later_eq_max]

end CompletionService

end WorkloadReplay
