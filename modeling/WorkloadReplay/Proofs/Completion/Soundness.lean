import WorkloadReplay.Proofs.Completion.Reports

/-!
# The invariant of the completion time service

`CompletionService.Sound` says what is true of the service at any time, whoever calls it and in
whatever order: no slot is completed beyond what it initiated, a slot that nobody has claimed has
reported nothing, and the global completion time is the least of the slots' completed times. Every
function of the service keeps it. `CompletionService.Grows` says what no function ever takes back:
the times of a slot, the global completion time, and the end of a closed service.
-/

namespace WorkloadReplay

/-- Replacing an item by one with the same image leaves the images as they are. -/
theorem map_set_of_eq {α β : Type} {f : α → β} {l : List α} {k : Nat} {a b : α}
    (hk : l[k]? = some a) (h : f b = f a) : (l.set k b).map f = l.map f := by
  apply List.ext_getElem?
  intro j
  rw [List.getElem?_map, List.getElem?_map, List.getElem?_set]
  by_cases hj : k = j
  · subst hj
    rw [if_pos rfl, if_pos (List.getElem?_eq_some_iff.mp hk).1, hk]
    simp [h]
  · rw [if_neg hj]

namespace CompletionService

/-- The invariant of the service. -/
structure Sound (s : CompletionService) : Prop where
  /-- No slot is completed beyond the last time that it initiated. -/
  ordered : ∀ slot ∈ s.slots, slot.lastCompleted ≤ slot.lastInitiated
  /-- A slot of an open service that nobody has claimed has initiated nothing. -/
  untouched : s.closed = false → ∀ slot ∈ s.slots, slot.claimed = false → slot.lastInitiated = none
  /-- The global completion time is the least completed time. -/
  global : LowMark (s.slots.map PeerSlot.lastCompleted) s.global

/-- What no call takes back. -/
structure Grows (s s' : CompletionService) : Prop where
  /-- The peers stay the same. -/
  peerIds : s'.peerIds = s.peerIds
  /-- There are as many slots as before. -/
  length : s'.slots.length = s.slots.length
  /-- The times of a slot do not go back. -/
  slots : ∀ (k : Nat) (a b : PeerSlot), s.slots[k]? = some a → s'.slots[k]? = some b →
    a.lastInitiated ≤ b.lastInitiated ∧ a.lastCompleted ≤ b.lastCompleted
  /-- The global completion time does not go back. -/
  global : s.global ≤ s'.global
  /-- A closed service does not change any more. -/
  closed : s.closed = true → s' = s

/-- A service that takes nothing back has as many slots as before. -/
theorem Grows.slotCount {s s' : CompletionService} (h : s.Grows s') :
    s'.slotCount = s.slotCount := by
  unfold CompletionService.slotCount
  rw [h.peerIds]

/-- A service that does not change takes nothing back. -/
theorem Grows.refl (s : CompletionService) : s.Grows s where
  peerIds := rfl
  length := rfl
  slots k a b ha hb := by
    rw [ha] at hb
    obtain rfl := Option.some.inj hb
    exact ⟨optionLe_refl _, optionLe_refl _⟩
  global := optionLe_refl _
  closed _ := rfl

/-- What takes nothing back step by step takes nothing back at all. -/
theorem Grows.trans {s t u : CompletionService} (h : s.Grows t) (h' : t.Grows u) : s.Grows u where
  peerIds := h'.peerIds.trans h.peerIds
  length := h'.length.trans h.length
  slots k a b ha hb := by
    have hk : k < t.slots.length := by
      rw [h.length]
      exact (List.getElem?_eq_some_iff.mp ha).1
    obtain ⟨hi, hc⟩ := h.slots k a _ ha (List.getElem?_eq_getElem hk)
    obtain ⟨hi', hc'⟩ := h'.slots k _ b (List.getElem?_eq_getElem hk) hb
    exact ⟨optionLe_trans hi hi', optionLe_trans hc hc'⟩
  global := optionLe_trans h.global h'.global
  closed hs := by
    have ht := h.closed hs
    rw [h'.closed (by rw [ht]; exact hs), ht]

/-- An open service takes nothing back when one slot is replaced by one with later times and the
global completion time moves up. -/
theorem Grows.of_set {s s' : CompletionService} {k : Nat} {a b : PeerSlot}
    (hc : s.closed = false) (hk : s.slots[k]? = some a) (hs : s'.slots = s.slots.set k b)
    (hp : s'.peerIds = s.peerIds) (hi : a.lastInitiated ≤ b.lastInitiated)
    (hl : a.lastCompleted ≤ b.lastCompleted) (hg : s.global ≤ s'.global) : s.Grows s' where
  peerIds := hp
  length := by rw [hs, List.length_set]
  slots j x y hx hy := by
    rw [hs, List.getElem?_set] at hy
    by_cases hj : k = j
    · subst hj
      rw [if_pos rfl, if_pos (List.getElem?_eq_some_iff.mp hk).1] at hy
      rw [hk] at hx
      obtain rfl := Option.some.inj hx
      obtain rfl := Option.some.inj hy
      exact ⟨hi, hl⟩
    · rw [if_neg hj, hx] at hy
      obtain rfl := Option.some.inj hy
      exact ⟨optionLe_refl _, optionLe_refl _⟩
  global := hg
  closed h := by rw [hc] at h; simp at h

/-- A slot of a list in which one was replaced is an old one or the new one. -/
theorem forall_mem_set {p : PeerSlot → Prop} {slots : List PeerSlot} {k : Nat} {b : PeerSlot}
    (h : ∀ slot ∈ slots, p slot) (hb : p b) : ∀ slot ∈ slots.set k b, p slot := fun slot hs =>
  (List.mem_or_eq_of_mem_set hs).elim (h slot) fun he => he ▸ hb

/-! ## Claims and shutdown -/

/-- The service for some peers begins sound. -/
theorem sound_ofPeers (peers : List String) : (ofPeers peers).Sound := by
  cases peers with
  | nil => exact ⟨by simp [ofPeers], by simp [ofPeers], by simp [ofPeers, LowMark]⟩
  | cons p ps =>
    refine ⟨?_, ?_, ?_⟩
    · simp [ofPeers, PeerSlot.free]
    · simp [ofPeers, PeerSlot.free]
    · exact List.mem_map.mpr ⟨PeerSlot.free p, by simp [ofPeers], rfl⟩

/-- A claim keeps the invariant. -/
theorem Sound.claim {s s' : CompletionService} {k : Nat} (h : s.Sound)
    (hs : s.claim = .ok (k, s')) : s'.Sound := by
  obtain ⟨-, -, slot, hk, -, rfl⟩ := claim_ok hs
  have hm : slot ∈ s.slots := List.mem_of_getElem? hk
  refine ⟨forall_mem_set h.ordered (h.ordered slot hm), ?_, ?_⟩
  · intro hc
    exact forall_mem_set (h.untouched hc) (by simp)
  · have hmap := map_set_of_eq (f := PeerSlot.lastCompleted) (b := { slot with claimed := true }) hk
      rfl
    exact hmap ▸ h.global

/-- A claim takes nothing back. -/
theorem grows_claim {s s' : CompletionService} {k : Nat} (hs : s.claim = .ok (k, s')) :
    s.Grows s' := by
  obtain ⟨hc, -, slot, hk, -, rfl⟩ := claim_ok hs
  exact Grows.of_set hc hk rfl rfl (optionLe_refl _) (optionLe_refl _) (optionLe_refl _)

/-- Shutdown keeps the invariant. -/
theorem Sound.shutdown {s : CompletionService} (h : s.Sound) : s.shutdown.Sound := by
  unfold CompletionService.shutdown
  split_ifs with hc
  · exact h
  · refine ⟨?_, by simp, ?_⟩
    · simpa using h.ordered
    · rw [List.map_map]
      exact h.global

/-- Shutdown takes nothing back. -/
theorem grows_shutdown (s : CompletionService) : s.Grows s.shutdown := by
  unfold CompletionService.shutdown
  split_ifs with hc
  · exact Grows.refl s
  · refine ⟨rfl, by simp, ?_, optionLe_refl _, fun h => absurd h hc⟩
    intro k a b ha hb
    simp only [List.getElem?_map, ha, Option.map_some, Option.some.injEq] at hb
    subst hb
    exact ⟨optionLe_refl _, optionLe_refl _⟩

/-! ## Reports -/

/-- An initiated time keeps the invariant, reported through a slot that somebody has claimed. -/
theorem Sound.reportInitiated {s s' : CompletionService} {k : Nat} {time : Instant} (h : s.Sound)
    (hclaimed : s.closed = false → ∀ slot, s.slots[k]? = some slot → slot.claimed = true)
    (hs : s.reportInitiated k time = .ok s') : s'.Sound := by
  obtain ⟨hc, slot, hk, hle, rfl⟩ := reportInitiated_eq_ok.mp hs
  have hm : slot ∈ s.slots := List.mem_of_getElem? hk
  refine ⟨forall_mem_set h.ordered (optionLe_trans (h.ordered slot hm) hle), ?_, ?_⟩
  · intro _
    refine forall_mem_set (h.untouched hc) ?_
    simp [hclaimed hc slot hk]
  · have hmap := map_set_of_eq (f := PeerSlot.lastCompleted)
      (b := { slot with lastInitiated := some time }) hk rfl
    exact hmap ▸ h.global

/-- An initiated time takes nothing back. -/
theorem grows_reportInitiated {s s' : CompletionService} {k : Nat} {time : Instant}
    (hs : s.reportInitiated k time = .ok s') : s.Grows s' := by
  obtain ⟨hc, slot, hk, hle, rfl⟩ := reportInitiated_eq_ok.mp hs
  exact Grows.of_set hc hk rfl rfl hle (optionLe_refl _) (optionLe_refl _)

/-- Where unclaimed slots have initiated nothing and none is completed beyond what it initiated,
what the slots contribute is what they have completed. -/
theorem map_contribution? {slots : List PeerSlot}
    (hordered : ∀ slot ∈ slots, slot.lastCompleted ≤ slot.lastInitiated)
    (huntouched : ∀ slot ∈ slots, slot.claimed = false → slot.lastInitiated = none) :
    slots.map PeerSlot.contribution? = slots.map PeerSlot.lastCompleted := by
  apply List.map_congr_left
  intro slot hs
  unfold PeerSlot.contribution?
  split_ifs with hclaimed
  · rfl
  · have hle := hordered slot hs
    rw [huntouched slot hs (by simpa using hclaimed)] at hle
    exact (Option.le_none.mp hle).symm

/-- A slot whose completed time moves up moves the least completed time up, if there was one. -/
theorem LowMark.le_of_set {times : List (Option Instant)} {k : Nat} {a b g m : Option Instant}
    (h : LowMark times g) (hk : times[k]? = some a) (hab : a ≤ b)
    (h' : LowMark (times.set k b) m) : g ≤ m := by
  have hm : m ∈ times.set k b := by
    cases m with
    | none => exact h'
    | some m => exact h'.2
  rcases List.mem_or_eq_of_mem_set hm with hm | rfl
  · exact h.le hm
  · exact optionLe_trans (h.le (List.mem_of_getElem? hk)) hab

/-- A completed time keeps the invariant: the global completion time, moved up by its own rule, is
again the least completed time. -/
theorem Sound.reportCompleted {s s' : CompletionService} {k : Nat} {time : Instant} (h : s.Sound)
    (hs : s.reportCompleted k time = .ok s') : s'.Sound := by
  obtain ⟨hc, slot, hk, hlo, hhi, rfl⟩ := reportCompleted_eq_ok.mp hs
  have hm : slot ∈ s.slots := List.mem_of_getElem? hk
  have hordered : ∀ x ∈ s.slots.set k { slot with lastCompleted := some time },
      x.lastCompleted ≤ x.lastInitiated := forall_mem_set h.ordered hhi
  have huntouched : ∀ x ∈ s.slots.set k { slot with lastCompleted := some time },
      x.claimed = false → x.lastInitiated = none :=
    forall_mem_set (h.untouched hc) (h.untouched hc slot hm)
  generalize hset : s.slots.set k { slot with lastCompleted := some time } = slots at *
  -- There is a slot, the one of the report, so the new slots have an earliest contribution.
  have hslots : slots ≠ [] := by
    rw [← hset, ← List.length_pos_iff, List.length_set]
    exact (List.getElem?_eq_some_iff.mp hk).1.trans_le' (Nat.zero_le _)
  have hmark := lowMark_earliest? hslots
  rw [map_contribution? hordered huntouched] at hmark
  -- The new least completed time is not before the old one.
  have hup : s.global ≤ earliest? slots := by
    refine LowMark.le_of_set h.global (k := k) (a := slot.lastCompleted) (b := some time) ?_ hlo ?_
    · rw [List.getElem?_map, hk]; rfl
    · rw [← hset, List.map_set] at hmark
      rw [hset] at hmark
      exact hmark
  refine ⟨by simpa using hordered, fun _ => by simpa using huntouched, ?_⟩
  rw [advance_slots]
  unfold advance
  cases he : earliest? slots with
  | none =>
    rw [he] at hup hmark
    rw [Option.le_none.mp hup]
    exact hmark
  | some m =>
    rw [he] at hup hmark
    cases hg : s.global with
    | none => exact hmark
    | some g =>
      rw [hg] at hup
      simp only [Option.elim_some, Instant.later_eq_max]
      rw [max_eq_right (Option.some_le_some.mp hup)]
      exact hmark

/-- A completed time takes nothing back. -/
theorem grows_reportCompleted {s s' : CompletionService} {k : Nat} {time : Instant}
    (hs : s.reportCompleted k time = .ok s') : s.Grows s' := by
  obtain ⟨hc, slot, hk, hlo, -, rfl⟩ := reportCompleted_eq_ok.mp hs
  exact Grows.of_set (b := { slot with lastCompleted := some time }) hc hk (by simp) (by simp)
    (optionLe_refl _) hlo
    (global_le_advance { s with slots := s.slots.set k { slot with lastCompleted := some time } })

/-! ## Reports through one slot -/

/-- What reports through one slot may do to a service. -/
structure Touches (k : Nat) (s s' : CompletionService) : Prop where
  /-- The service is sound afterwards. -/
  sound : s'.Sound
  /-- They take nothing back. -/
  grows : s.Grows s'
  /-- They do not close the service. -/
  closed : s'.closed = s.closed
  /-- They leave the other slots as they are. -/
  others : ∀ j, k ≠ j → s'.slots[j]? = s.slots[j]?
  /-- They leave it to others whether their slot is claimed. -/
  claimed : ∀ a b : PeerSlot, s.slots[k]? = some a → s'.slots[k]? = some b → b.claimed = a.claimed

/-- No report touches nothing. -/
theorem Touches.refl {s : CompletionService} (k : Nat) (h : s.Sound) : s.Touches k s where
  sound := h
  grows := Grows.refl s
  closed := rfl
  others _ _ := rfl
  claimed a b ha hb := by
    rw [ha] at hb
    rw [Option.some.inj hb]

/-- Reports after reports touch the same slot. -/
theorem Touches.trans {k : Nat} {s t u : CompletionService} (h : s.Touches k t)
    (h' : t.Touches k u) : s.Touches k u where
  sound := h'.sound
  grows := h.grows.trans h'.grows
  closed := h'.closed.trans h.closed
  others j hj := (h'.others j hj).trans (h.others j hj)
  claimed a b ha hb := by
    have hk : k < t.slots.length := by
      rw [h.grows.length]
      exact (List.getElem?_eq_some_iff.mp ha).1
    have ht := List.getElem?_eq_getElem hk
    exact (h'.claimed _ b ht hb).trans (h.claimed a _ ha ht)

/-- An initiated time touches its slot, and is the last initiated time in it. -/
theorem touches_reportInitiated {s s' : CompletionService} {k : Nat} {time : Instant}
    {slot : PeerSlot} (h : s.Sound) (hk : s.slots[k]? = some slot)
    (hclaimed : s.closed = false → slot.claimed = true)
    (hs : s.reportInitiated k time = .ok s') :
    s.Touches k s' ∧ slot.lastInitiated ≤ some time ∧
      s'.slots[k]? = some { slot with lastInitiated := some time } := by
  have hsound := h.reportInitiated
    (fun hc slot' hk' => by
      rw [hk] at hk'
      rw [← Option.some.inj hk']
      exact hclaimed hc) hs
  have hgrows := grows_reportInitiated hs
  obtain ⟨hc, slot', hk', hle, rfl⟩ := reportInitiated_eq_ok.mp hs
  rw [hk] at hk'
  obtain rfl := Option.some.inj hk'
  have hself : (s.slots.set k { slot with lastInitiated := some time })[k]? =
      some { slot with lastInitiated := some time } :=
    List.getElem?_set_self (List.getElem?_eq_some_iff.mp hk).1
  refine ⟨⟨hsound, hgrows, rfl, fun j hj => List.getElem?_set_ne hj, ?_⟩, hle, hself⟩
  intro a b ha hb
  rw [hk] at ha
  rw [hself] at hb
  rw [← Option.some.inj ha, ← Option.some.inj hb]

/-- A completed time touches its slot, and is the last completed time in it. -/
theorem touches_reportCompleted {s s' : CompletionService} {k : Nat} {time : Instant}
    {slot : PeerSlot} (h : s.Sound) (hk : s.slots[k]? = some slot)
    (hs : s.reportCompleted k time = .ok s') :
    s.Touches k s' ∧ s'.slots[k]? = some { slot with lastCompleted := some time } := by
  have hsound := h.reportCompleted hs
  have hgrows := grows_reportCompleted hs
  obtain ⟨hc, slot', hk', hlo, hhi, rfl⟩ := reportCompleted_eq_ok.mp hs
  rw [hk] at hk'
  obtain rfl := Option.some.inj hk'
  have hself : (s.slots.set k { slot with lastCompleted := some time })[k]? =
      some { slot with lastCompleted := some time } :=
    List.getElem?_set_self (List.getElem?_eq_some_iff.mp hk).1
  refine ⟨⟨hsound, hgrows, advance_closed _, ?_, ?_⟩, by rw [advance_slots]; exact hself⟩
  · intro j hj
    rw [advance_slots]
    exact List.getElem?_set_ne hj
  · intro a b ha hb
    rw [advance_slots, hself] at hb
    rw [hk] at ha
    rw [← Option.some.inj ha, ← Option.some.inj hb]

end CompletionService

end WorkloadReplay
