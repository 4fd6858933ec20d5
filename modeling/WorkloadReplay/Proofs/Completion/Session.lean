import Mathlib.Data.List.Nodup
import Mathlib.Data.List.Perm.Subperm
import WorkloadReplay.Proofs.Completion.Soundness

/-!
# Sessions with the completion time service

A session is everything that the users of one service do with it: they have writers bound to slots,
copy them, report through any of them in any order, and shut the service down. `ServiceSession.call`
is one call with its answer. A session keeps, beside the service, the slots of the writers handed
out and the completed times that were accepted, so that what the service computes can be compared
with what it was told.

`serviceSession_sound` holds after every list of calls. It is derived from what one call keeps
(`Sound.call`), by induction on the calls.
-/

namespace WorkloadReplay

/-- A call on a completion time service. Writers are numbered in the order in which they came to be,
copies included. -/
inductive ServiceCall where
  /-- A new writer is asked for. -/
  | create
  /-- A writer is copied. -/
  | clone (writer : Nat)
  /-- An initiated time is reported through a writer. -/
  | initiated (writer : Nat) (time : Instant)
  /-- A completed time is reported through a writer. -/
  | completed (writer : Nat) (time : Instant)
  | shutdown
  deriving DecidableEq

/-- The answer of a call. -/
inductive ServiceAnswer where
  /-- A new writer, bound to a slot. -/
  | bound (slot : Nat)
  | accepted
  | refused (e : ReplayError)
  deriving DecidableEq

/-- The call is a creation of a writer or a report through one. -/
def ServiceCall.NeedsService : ServiceCall → Prop
  | create => True
  | clone _ => False
  | initiated .. => True
  | completed .. => True
  | shutdown => False

/-- The slot that an answer binds a new writer to. -/
def ServiceAnswer.slot? : ServiceAnswer → Option Nat
  | bound slot => some slot
  | accepted => none
  | refused _ => none

/-- A service and what has been done with it. -/
structure ServiceSession where
  service : CompletionService
  /-- The slots of the writers, in the order in which the writers came to be. -/
  writers : List Nat
  /-- The completed times that were accepted, with their slots, the latest first. -/
  accepted : List (Nat × Instant)
  deriving DecidableEq

namespace ServiceSession

/-- A session that begins with a new service for some peers. -/
def ofPeers (peers : List String) : ServiceSession := ⟨CompletionService.ofPeers peers, [], []⟩

/-- The completed time that was last accepted for a slot. -/
def lastAccepted (s : ServiceSession) (k : Nat) : Option Instant :=
  (s.accepted.find? (·.1 = k)).map (·.2)

/-- The answer of a call and the session after it; `none` if the call goes through a writer that
does not exist. -/
def call (s : ServiceSession) : ServiceCall → Option (ServiceAnswer × ServiceSession)
  | .create =>
    match s.service.claim with
    | .error e => some (.refused e, s)
    | .ok (k, service) =>
      some (.bound k, { s with service := service, writers := s.writers ++ [k] })
  | .clone w => s.writers[w]?.map fun k => (.accepted, { s with writers := s.writers ++ [k] })
  | .initiated w time => s.writers[w]?.map fun k =>
    match s.service.reportInitiated k time with
    | .error e => (.refused e, s)
    | .ok service => (.accepted, { s with service := service })
  | .completed w time => s.writers[w]?.map fun k =>
    match s.service.reportCompleted k time with
    | .error e => (.refused e, s)
    | .ok service =>
      (.accepted, { s with service := service, accepted := (k, time) :: s.accepted })
  | .shutdown => some (.accepted, { s with service := s.service.shutdown })

/-- The answers of some calls, one after another, and the session after them. -/
def calls : ServiceSession → List ServiceCall → Option (List ServiceAnswer × ServiceSession)
  | s, [] => some ([], s)
  | s, c :: rest => (s.call c).bind fun (answer, s) =>
    (calls s rest).map fun (answers, s) => (answer :: answers, s)

/-- What the invariant of a session says, where the slots in `bound` are those that writers have
been bound to. -/
structure Sound (peers : List String) (bound : List Nat) (s : ServiceSession) : Prop where
  service : s.service.Sound
  peerIds : s.service.peerIds = peers
  /-- There is one slot for each peer. -/
  length : s.service.slots.length = peers.length
  /-- No slot is bound twice. -/
  nodup : bound.Nodup
  /-- A bound slot is claimed until the service is closed. -/
  claimed : ∀ k ∈ bound, ∃ slot, s.service.slots[k]? = some slot ∧
    (s.service.closed = false → slot.claimed = true)
  /-- Every writer has a bound slot. -/
  writers : ∀ k ∈ s.writers, k ∈ bound
  /-- The slots hold the completed times that were accepted last. -/
  accepted : (List.range peers.length).map s.lastAccepted =
    s.service.slots.map PeerSlot.lastCompleted

/-- Of the values of a function, the one at `k` is replaced by that of a function which is the same
elsewhere. -/
theorem map_range_set {α : Type} {f g : Nat → α} {n k : Nat} (h : ∀ j, k ≠ j → g j = f j) :
    ((List.range n).map f).set k (g k) = (List.range n).map g := by
  apply List.ext_getElem (by simp)
  intro j hj _
  rw [List.getElem_set, List.getElem_map, List.getElem_map, List.getElem_range]
  split_ifs with hkj
  · rw [hkj]
  · exact (h j hkj).symm

/-- Only the slot of the completed time that is accepted gets a new last one. -/
theorem lastAccepted_cons {service : CompletionService} {writers : List Nat}
    {accepted : List (Nat × Instant)} {k j : Nat} {time : Instant} :
    lastAccepted ⟨service, writers, (k, time) :: accepted⟩ j =
      if k = j then some time else lastAccepted ⟨service, writers, accepted⟩ j := by
  by_cases hj : k = j <;> simp [lastAccepted, hj]

/-- A session with a new service for some peers begins sound. -/
theorem sound_ofPeers {peers : List String} (h : peers ≠ []) : (ofPeers peers).Sound peers [] := by
  have hs : (CompletionService.ofPeers peers).slots = peers.map PeerSlot.free := by
    obtain ⟨p, ps, rfl⟩ := List.exists_cons_of_ne_nil h
    rfl
  have hp : (CompletionService.ofPeers peers).peerIds = peers := by
    obtain ⟨p, ps, rfl⟩ := List.exists_cons_of_ne_nil h
    rfl
  refine ⟨CompletionService.sound_ofPeers peers, hp, ?_, List.nodup_nil, by simp, by simp [ofPeers],
    ?_⟩
  · simp [ofPeers, hs]
  · simp only [ofPeers, hs, List.map_map]
    apply List.ext_getElem (by simp)
    intro j _ _
    simp [lastAccepted, PeerSlot.free]

section Keeping

variable {peers : List String} {bound : List Nat} {s : ServiceSession}

/-- A slot that writers have been bound to is claimed as long as the service is open. -/
theorem Sound.slot_claimed (h : s.Sound peers bound) {k : Nat} (hk : k ∈ bound)
    (hc : s.service.closed = false) (slot : PeerSlot) (hs : s.service.slots[k]? = some slot) :
    slot.claimed = true := by
  obtain ⟨slot', hs', hclaimed⟩ := h.claimed k hk
  rw [hs] at hs'
  obtain rfl := Option.some.inj hs'
  exact hclaimed hc

/-- Setting one slot keeps every bound slot claimed, if it keeps that slot's mark. -/
theorem Sound.claimed_set (h : s.Sound peers bound) {k : Nat} {a b : PeerSlot}
    (hk : s.service.slots[k]? = some a) (hb : a.claimed = true → b.claimed = true) :
    ∀ j ∈ bound, ∃ slot, (s.service.slots.set k b)[j]? = some slot ∧
      (s.service.closed = false → slot.claimed = true) := by
  intro j hj
  obtain ⟨slot, hs, hclaimed⟩ := h.claimed j hj
  by_cases hkj : k = j
  · subst hkj
    rw [hk] at hs
    obtain rfl := Option.some.inj hs
    exact ⟨b, List.getElem?_set_self (List.getElem?_eq_some_iff.mp hk).1,
      fun hc => hb (hclaimed hc)⟩
  · exact ⟨slot, by rw [List.getElem?_set_ne hkj]; exact hs, hclaimed⟩

/-- A creation of a writer keeps the invariant, with the new writer's slot bound. -/
theorem Sound.create (h : s.Sound peers bound) {k : Nat} {service : CompletionService}
    (hs : s.service.claim = .ok (k, service)) :
    Sound peers (bound ++ [k]) { s with service := service, writers := s.writers ++ [k] } := by
  have hsound := h.service.claim hs
  have hgrows := CompletionService.grows_claim hs
  obtain ⟨hc, -, slot, hk, hfree, rfl⟩ := CompletionService.claim_ok hs
  -- The slot that is claimed was free, and the bound slots are not.
  have hnew : k ∉ bound := fun hb => by
    rw [h.slot_claimed hb hc slot hk] at hfree
    simp at hfree
  refine ⟨hsound, h.peerIds, hgrows.length.trans h.length, ?_, ?_, ?_, ?_⟩
  · rw [List.nodup_append]
    exact ⟨h.nodup, List.nodup_singleton k, fun j hj i hi => by
      rw [List.mem_singleton.mp hi]
      rintro rfl
      exact hnew hj⟩
  · intro j hj
    rcases List.mem_append.mp hj with hj | hj
    · exact h.claimed_set hk (fun _ => rfl) j hj
    · rw [List.mem_singleton.mp hj]
      exact ⟨_, List.getElem?_set_self (List.getElem?_eq_some_iff.mp hk).1, fun _ => rfl⟩
  · intro j hj
    rcases List.mem_append.mp hj with hj | hj
    · exact List.mem_append_left _ (h.writers j hj)
    · exact List.mem_append_right _ hj
  · exact h.accepted.trans (map_set_of_eq (b := { slot with claimed := true }) hk rfl).symm

/-- A copy of a writer keeps the invariant. -/
theorem Sound.clone (h : s.Sound peers bound) {w k : Nat} (hw : s.writers[w]? = some k) :
    Sound peers bound { s with writers := s.writers ++ [k] } :=
  { h with
    writers := fun j hj => by
      rcases List.mem_append.mp hj with hj | hj
      · exact h.writers j hj
      · rw [List.mem_singleton.mp hj]
        exact h.writers k (List.mem_of_getElem? hw) }

/-- An initiated time that is accepted keeps the invariant. -/
theorem Sound.initiated (h : s.Sound peers bound) {k : Nat} {time : Instant}
    {service : CompletionService} (hk : k ∈ bound)
    (hs : s.service.reportInitiated k time = .ok service) :
    Sound peers bound { s with service := service } := by
  have hsound := h.service.reportInitiated (fun hc slot => h.slot_claimed hk hc slot) hs
  have hgrows := CompletionService.grows_reportInitiated hs
  obtain ⟨-, slot, hslot, -, rfl⟩ := CompletionService.reportInitiated_eq_ok.mp hs
  exact ⟨hsound, h.peerIds, hgrows.length.trans h.length, h.nodup,
    h.claimed_set hslot (b := { slot with lastInitiated := some time }) id, h.writers,
    h.accepted.trans (map_set_of_eq (b := { slot with lastInitiated := some time }) hslot rfl).symm⟩

/-- A completed time that is accepted keeps the invariant. -/
theorem Sound.completed (h : s.Sound peers bound) {k : Nat} {time : Instant}
    {service : CompletionService} (hs : s.service.reportCompleted k time = .ok service) :
    Sound peers bound
      { s with service := service, accepted := (k, time) :: s.accepted } := by
  have hsound := h.service.reportCompleted hs
  have hgrows := CompletionService.grows_reportCompleted hs
  obtain ⟨-, slot, hslot, -, -, rfl⟩ := CompletionService.reportCompleted_eq_ok.mp hs
  refine ⟨hsound, hgrows.peerIds.trans h.peerIds, hgrows.length.trans h.length, h.nodup, ?_,
    h.writers, ?_⟩
  · simpa using h.claimed_set hslot (b := { slot with lastCompleted := some time }) id
  · -- Both lists of completed times change in the slot's place, and to the same time.
    simp only [CompletionService.advance_slots, List.map_set, ← h.accepted]
    have hset := map_range_set (n := peers.length) (f := s.lastAccepted)
      (g := lastAccepted ⟨_, s.writers, (k, time) :: s.accepted⟩)
      fun j hj => by rw [lastAccepted_cons, if_neg hj]
    rw [lastAccepted_cons, if_pos rfl] at hset
    exact hset.symm

/-- Shutdown keeps the invariant. -/
theorem Sound.shutdown (h : s.Sound peers bound) :
    Sound peers bound { s with service := s.service.shutdown } := by
  have hsound := h.service.shutdown
  have hgrows := CompletionService.grows_shutdown s.service
  refine ⟨hsound, hgrows.peerIds.trans h.peerIds, hgrows.length.trans h.length, h.nodup, ?_,
    h.writers, ?_⟩
  · unfold CompletionService.shutdown
    split_ifs with hc
    · exact h.claimed
    · intro k hk
      obtain ⟨slot, hs, -⟩ := h.claimed k hk
      exact ⟨{ slot with claimed := false }, by simp [hs], by simp⟩
  · refine h.accepted.trans ?_
    unfold CompletionService.shutdown
    split_ifs
    · rfl
    · rw [List.map_map]; rfl

/-- One call keeps the invariant, with the slot bound that it answers, and takes nothing back. -/
theorem Sound.call {s' : ServiceSession} {c : ServiceCall} {a : ServiceAnswer}
    (h : s.Sound peers bound) (hs : s.call c = some (a, s')) :
    s'.Sound peers (bound ++ a.slot?.toList) ∧ s.service.Grows s'.service := by
  -- A call that is refused leaves all as it is, and binds no slot.
  have hsame : s.Sound peers (bound ++ []) ∧ s.service.Grows s.service :=
    ⟨by rwa [List.append_nil], CompletionService.Grows.refl _⟩
  cases c with
  | create =>
    simp only [ServiceSession.call] at hs
    split at hs
    · obtain ⟨rfl, rfl⟩ := Prod.mk.inj (Option.some.inj hs)
      exact hsame
    · rename_i k service hclaim
      obtain ⟨rfl, rfl⟩ := Prod.mk.inj (Option.some.inj hs)
      exact ⟨h.create hclaim, CompletionService.grows_claim hclaim⟩
  | clone w =>
    obtain ⟨k, hw, heq⟩ := Option.map_eq_some_iff.mp hs
    obtain ⟨rfl, rfl⟩ := Prod.mk.inj heq
    exact ⟨by simpa [ServiceAnswer.slot?] using h.clone hw, CompletionService.Grows.refl _⟩
  | initiated w time =>
    obtain ⟨k, hw, heq⟩ := Option.map_eq_some_iff.mp hs
    split at heq
    · obtain ⟨rfl, rfl⟩ := Prod.mk.inj heq
      exact hsame
    · rename_i service hr
      obtain ⟨rfl, rfl⟩ := Prod.mk.inj heq
      have hk := h.writers k (List.mem_of_getElem? hw)
      exact ⟨by simpa [ServiceAnswer.slot?] using h.initiated hk hr,
        CompletionService.grows_reportInitiated hr⟩
  | completed w time =>
    obtain ⟨k, hw, heq⟩ := Option.map_eq_some_iff.mp hs
    split at heq
    · obtain ⟨rfl, rfl⟩ := Prod.mk.inj heq
      exact hsame
    · rename_i service hr
      obtain ⟨rfl, rfl⟩ := Prod.mk.inj heq
      exact ⟨by simpa [ServiceAnswer.slot?] using h.completed hr,
        CompletionService.grows_reportCompleted hr⟩
  | shutdown =>
    obtain ⟨rfl, rfl⟩ := Prod.mk.inj (Option.some.inj hs)
    exact ⟨by simpa [ServiceAnswer.slot?] using h.shutdown, CompletionService.grows_shutdown _⟩

/-- Any calls keep the invariant, with the slots bound that they answer, and take nothing back. -/
theorem Sound.calls {s' : ServiceSession} {cs : List ServiceCall} {answers : List ServiceAnswer}
    (h : s.Sound peers bound) (hs : s.calls cs = some (answers, s')) :
    s'.Sound peers (bound ++ answers.filterMap ServiceAnswer.slot?) ∧
      s.service.Grows s'.service := by
  induction cs generalizing s bound answers with
  | nil =>
    obtain ⟨rfl, rfl⟩ := Prod.mk.inj (Option.some.inj hs)
    exact ⟨by simpa using h, CompletionService.Grows.refl _⟩
  | cons c cs ih =>
    obtain ⟨⟨a, t⟩, hc, hrest⟩ := Option.bind_eq_some_iff.mp hs
    obtain ⟨⟨as, u⟩, hcs, heq⟩ := Option.map_eq_some_iff.mp hrest
    obtain ⟨rfl, rfl⟩ := Prod.mk.inj heq
    obtain ⟨ht, hgrows⟩ := h.call hc
    obtain ⟨hu, hgrows'⟩ := ih ht hcs
    refine ⟨?_, hgrows.trans hgrows'⟩
    cases ha : a.slot? <;> simpa [ha] using hu

end Keeping

/-! ## Calls that change nothing -/

/-- A call that is refused changes nothing. -/
theorem call_refused {s s' : ServiceSession} {c : ServiceCall} {e : ReplayError}
    (hs : s.call c = some (.refused e, s')) : s' = s := by
  cases c with
  | create =>
    simp only [call] at hs
    split at hs
    · exact (Prod.mk.inj (Option.some.inj hs)).2.symm
    · simp at hs
  | clone w => simp [call] at hs
  | initiated w time =>
    obtain ⟨k, -, heq⟩ := Option.map_eq_some_iff.mp hs
    split at heq
    · exact (Prod.mk.inj heq).2.symm
    · simp at heq
  | completed w time =>
    obtain ⟨k, -, heq⟩ := Option.map_eq_some_iff.mp hs
    split at heq
    · exact (Prod.mk.inj heq).2.symm
    · simp at heq
  | shutdown => simp [call] at hs

/-- Shutdown closes the service and leaves the global completion time as it is. -/
theorem call_shutdown {s s' : ServiceSession} {a : ServiceAnswer}
    (hs : s.call .shutdown = some (a, s')) :
    s'.service.closed = true ∧ s'.service.global = s.service.global := by
  obtain ⟨-, rfl⟩ := Prod.mk.inj (Option.some.inj hs)
  unfold CompletionService.shutdown
  split_ifs with hc
  · exact ⟨hc, rfl⟩
  · exact ⟨rfl, rfl⟩

/-- A closed service does not change, and it refuses every creation of a writer and every report. -/
theorem call_closed {s s' : ServiceSession} {c : ServiceCall} {a : ServiceAnswer}
    (hc : s.service.closed = true) (hs : s.call c = some (a, s')) : s'.service = s.service ∧
      (c.NeedsService → a = .refused (.serviceClosed CompletionService.name)) := by
  cases c with
  | create =>
    have hclaim : s.service.claim = .error (.serviceClosed CompletionService.name) := by
      unfold CompletionService.claim CompletionService.claimFree
      rw [if_pos hc, if_pos hc, ite_self]
    simp only [call, hclaim, Option.some.injEq, Prod.mk.injEq] at hs
    obtain ⟨rfl, rfl⟩ := hs
    exact ⟨rfl, fun _ => rfl⟩
  | clone w =>
    obtain ⟨k, -, heq⟩ := Option.map_eq_some_iff.mp hs
    obtain ⟨rfl, rfl⟩ := Prod.mk.inj heq
    exact ⟨rfl, fun h => h.elim⟩
  | initiated w time =>
    obtain ⟨k, -, heq⟩ := Option.map_eq_some_iff.mp hs
    simp only [CompletionService.reportInitiated, CompletionService.report, if_pos hc,
      Prod.mk.injEq] at heq
    obtain ⟨rfl, rfl⟩ := heq
    exact ⟨rfl, fun _ => rfl⟩
  | completed w time =>
    obtain ⟨k, -, heq⟩ := Option.map_eq_some_iff.mp hs
    simp only [CompletionService.reportCompleted, CompletionService.report, if_pos hc, Except.map,
      Prod.mk.injEq] at heq
    obtain ⟨rfl, rfl⟩ := heq
    exact ⟨rfl, fun _ => rfl⟩
  | shutdown =>
    obtain ⟨-, rfl⟩ := Prod.mk.inj (Option.some.inj hs)
    unfold CompletionService.shutdown
    rw [if_pos hc]
    exact ⟨rfl, fun h => h.elim⟩

/-- Without peers there are no writers, and the global completion time is the last instant. -/
theorem calls_ofPeers_nil {s' : ServiceSession} {cs : List ServiceCall}
    {answers : List ServiceAnswer} {s : ServiceSession} (hp : s.service.peerIds = [])
    (hw : s.writers = []) (hs : s.calls cs = some (answers, s')) :
    s'.service.global = s.service.global := by
  induction cs generalizing s answers with
  | nil =>
    obtain ⟨-, rfl⟩ := Prod.mk.inj (Option.some.inj hs)
    rfl
  | cons c cs ih =>
    obtain ⟨⟨a, t⟩, hc, hrest⟩ := Option.bind_eq_some_iff.mp hs
    obtain ⟨⟨as, u⟩, hcs, heq⟩ := Option.map_eq_some_iff.mp hrest
    obtain ⟨-, rfl⟩ := Prod.mk.inj heq
    -- There is no slot to claim, so there is no writer, and only shutdown changes anything.
    have ht : t.service.peerIds = [] ∧ t.writers = [] ∧ t.service.global = s.service.global := by
      cases c with
      | create =>
        simp only [call] at hc
        split at hc
        · obtain ⟨-, rfl⟩ := Prod.mk.inj (Option.some.inj hc)
          exact ⟨hp, hw, rfl⟩
        · rename_i hclaim
          exact absurd hp (CompletionService.claim_ok hclaim).2.1
      | clone w => simp [call, hw] at hc
      | initiated w time => simp [call, hw] at hc
      | completed w time => simp [call, hw] at hc
      | shutdown =>
        have hg := (call_shutdown hc).2
        have hpeers := (CompletionService.grows_shutdown s.service).peerIds
        obtain ⟨-, rfl⟩ := Prod.mk.inj (Option.some.inj hc)
        exact ⟨hpeers.trans hp, hw, hg⟩
    obtain ⟨hp', hw', hg⟩ := ht
    exact (ih hp' hw' hcs).trans hg

/-! ## The service after any calls -/

/-- What is true of a completion time service after any calls. Without peers the global completion
time is the last instant. With peers:

* no slot is completed beyond what it initiated, and no later calls make a slot's times or the
  global completion time go back;
* the global completion time is unknown until a completed time has been accepted for every slot,
  and then it is the least of the times last accepted;
* a call that is refused changes nothing;
* the slots that writers are created for differ, so there are no more of them than peers;
* shutdown closes the service and keeps the global completion time, and a closed service refuses
  every creation and every report and does not change. -/
theorem serviceSession_sound (peers : List String) (cs : List ServiceCall)
    (answers : List ServiceAnswer) (s : ServiceSession)
    (hs : (ofPeers peers).calls cs = some (answers, s)) :
    (peers = [] → s.service.global = some Instant.greatest) ∧
    (peers ≠ [] →
      (∀ slot ∈ s.service.slots, slot.lastCompleted ≤ slot.lastInitiated) ∧
      (∀ more answers' s', s.calls more = some (answers', s') →
        (∀ (k : Nat) (slot slot' : PeerSlot), s.service.slots[k]? = some slot →
          s'.service.slots[k]? = some slot' →
          slot.lastInitiated ≤ slot'.lastInitiated ∧ slot.lastCompleted ≤ slot'.lastCompleted) ∧
        s.service.global ≤ s'.service.global) ∧
      LowMark ((List.range peers.length).map s.lastAccepted) s.service.global ∧
      (∀ c e s', s.call c = some (.refused e, s') → s' = s) ∧
      (answers.filterMap ServiceAnswer.slot?).Nodup ∧
      (answers.filterMap ServiceAnswer.slot?).length ≤ peers.length ∧
      (∀ a s', s.call .shutdown = some (a, s') →
        s'.service.closed = true ∧ s'.service.global = s.service.global) ∧
      (s.service.closed = true → ∀ c a s', s.call c = some (a, s') →
        s'.service = s.service ∧
          (c.NeedsService → a = .refused (.serviceClosed CompletionService.name)))) := by
  constructor
  · rintro rfl
    rw [calls_ofPeers_nil rfl rfl hs]
    rfl
  · intro hp
    obtain ⟨hsound, -⟩ := (sound_ofPeers hp).calls hs
    rw [List.nil_append] at hsound
    refine ⟨hsound.service.ordered, ?_, ?_, ?_, hsound.nodup, ?_, ?_, ?_⟩
    · intro more answers' s' hmore
      have hgrows := (hsound.calls hmore).2
      exact ⟨hgrows.slots, hgrows.global⟩
    · rw [hsound.accepted]
      exact hsound.service.global
    · intro c e s' hc
      exact call_refused hc
    · -- The bound slots differ and are among the slots, which are as many as the peers.
      have hsub : answers.filterMap ServiceAnswer.slot? ⊆ List.range peers.length := by
        intro k hk
        obtain ⟨slot, hslot, -⟩ := hsound.claimed k hk
        rw [List.mem_range, ← hsound.length]
        exact (List.getElem?_eq_some_iff.mp hslot).1
      simpa using (hsound.nodup.subperm hsub).length_le
    · intro a s' hshut
      exact call_shutdown hshut
    · intro hc c a s' hcall
      exact call_closed hc hcall

/-- Two peers of which one reports out of order, is refused, and goes on, until the service is shut
down. -/
theorem serviceSession_sound_two_peers :
    ∃ answers s, (ofPeers ["a", "b"]).calls [.create, .create, .create, .clone 0,
        .initiated 2 ⟨9, by decide⟩, .completed 0 ⟨5, by decide⟩, .initiated 1 ⟨4, by decide⟩,
        .completed 1 ⟨4, by decide⟩, .completed 2 ⟨3, by decide⟩, .completed 0 ⟨9, by decide⟩,
        .shutdown, .completed 0 ⟨9, by decide⟩] = some (answers, s) ∧
      s.service.global = some ⟨4, by decide⟩ ∧
      LowMark ((List.range 2).map s.lastAccepted) s.service.global ∧
      (answers.filterMap ServiceAnswer.slot?).length ≤ 2 := by
  let cs : List ServiceCall := [.create, .create, .create, .clone 0, .initiated 2 ⟨9, by decide⟩,
    .completed 0 ⟨5, by decide⟩, .initiated 1 ⟨4, by decide⟩, .completed 1 ⟨4, by decide⟩,
    .completed 2 ⟨3, by decide⟩, .completed 0 ⟨9, by decide⟩, .shutdown,
    .completed 0 ⟨9, by decide⟩]
  obtain ⟨⟨answers, s⟩, hs⟩ := Option.isSome_iff_exists.mp
    (by rfl : ((ofPeers ["a", "b"]).calls cs).isSome = true)
  have h := (serviceSession_sound ["a", "b"] cs answers s hs).2 (by decide)
  refine ⟨answers, s, hs, ?_, h.2.2.1, h.2.2.2.2.2.1⟩
  have hg : ((ofPeers ["a", "b"]).calls cs).map (·.2.service.global) =
      some (some ⟨4, by decide⟩) := rfl
  rw [hs] at hg
  exact Option.some.inj hg

end ServiceSession

end WorkloadReplay
