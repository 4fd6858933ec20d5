import WorkloadReplay.Proofs.Completion.Watermark

/-!
# Peers that share a completion time service

Peers that take part in one run share a completion time service. Each claims a slot and reports
through a tracker of its own, and their calls come in any order. `PeerGroup.call` is one call. Since
a seed consists of two reports, it is two calls here, and other peers may come in between. Calls
that the service refuses are calls like all others.

`global_isLowMark` says what peers may conclude from the global completion time: what was initiated
before it is completed, at every peer, and nothing will ever be initiated before it. It follows from
`PeerGroup.Sound`, which every call keeps: the trackers are linked to different slots of a sound
service.
-/

namespace WorkloadReplay

/-- A peer with the tracker that it reports through, and what it has done. -/
structure Peer where
  tracker : CompletionTracker
  /-- The time of a seed that is reported as initiated and not yet as completed. -/
  seeding : Option Instant
  /-- The times of the operations that it has initiated, the latest first. -/
  initiated : List Instant
  /-- The times of the operations that it has completed, the latest first. -/
  completed : List Instant
  deriving DecidableEq

/-- What a peer can do with its tracker. -/
inductive PeerAction where
  /-- It begins to seed a time. -/
  | seed (time : Instant)
  /-- It goes on with the seed that it has begun. -/
  | finishSeed
  | initiate (time : Instant)
  | complete (time : Instant)
  deriving DecidableEq

namespace Peer

/-- A peer that has just claimed a slot. -/
def ofSlot (k : Nat) : Peer := ⟨CompletionTracker.ofSlot k, none, [], []⟩

/-- The times of the operations that a peer has completed when it has completed one more; what is
not pending cannot be completed. -/
def after (p : Peer) (time : Instant) : List Instant :=
  if time ∈ p.tracker.pending then time :: p.completed else p.completed

/-- The answer of an action, and the peer and the service after it. A peer does one thing after
another, so there is no result while it has begun a seed, but for going on with it; and it does not
begin a seed while operations are pending. -/
def act (p : Peer) (s : CompletionService) :
    PeerAction → Option (Except ReplayError Unit × Peer × CompletionService)
  | .seed time =>
    if p.seeding = none ∧ p.tracker.pending = [] then
      match s.reportInitiated p.tracker.slot time with
      | .error e => some (.error e, p, s)
      | .ok s => some (.ok (), { p with seeding := some time }, s)
    else none
  | .finishSeed => p.seeding.map fun time =>
    match p.tracker.finishSeed s time with
    | (.error e, t, s) => (.error e, { p with tracker := t, seeding := none }, s)
    | (.ok (), t, s) => (.ok (), ⟨t, none, time :: p.initiated, time :: p.completed⟩, s)
  | .initiate time =>
    if p.seeding = none then
      match p.tracker.initiate s time with
      | (.error e, t, s) => some (.error e, { p with tracker := t }, s)
      | (.ok (), t, s) =>
        some (.ok (), { p with tracker := t, initiated := time :: p.initiated }, s)
    else none
  | .complete time =>
    if p.seeding = none then
      match p.tracker.complete s time with
      | (answer, t, s) => some (answer, { p with tracker := t, completed := p.after time }, s)
    else none

/-- The time of the operation that an action initiates if it succeeds. -/
def attempt? (p : Peer) : PeerAction → Option Instant
  | .seed time => some time
  | .finishSeed => p.seeding
  | .initiate time => some time
  | .complete _ => none

/-- A peer stands right with a service: its tracker is linked, with an account of what the peer has
done, and while it seeds, nothing is pending and the seed is the last initiated time in its slot. -/
structure Sound (p : Peer) (s : CompletionService) : Prop where
  linked : p.tracker.Linked s p.initiated p.completed
  pending : p.seeding ≠ none → p.tracker.pending = []
  seeding : ∀ time, p.seeding = some time → ∀ slot, s.slots[p.tracker.slot]? = some slot →
    slot.lastInitiated = some time

section Acting

variable {p p' : Peer} {s s' : CompletionService}

/-- A peer that has just claimed a slot stands right. -/
theorem sound_ofSlot {k : Nat} (hsound : s.Sound) (hs : s.claim = .ok (k, s')) :
    (ofSlot k).Sound s' :=
  ⟨CompletionTracker.linked_ofSlot hsound hs, fun _ => rfl, by simp [ofSlot]⟩

/-- A peer that seeds nothing stands right if its tracker is linked. -/
theorem sound_of_linked (h : p.tracker.Linked s p.initiated p.completed) (hs : p.seeding = none) :
    p.Sound s :=
  ⟨h, fun hne => absurd hs hne, by simp [hs]⟩

/-- A peer stands right after reports through another slot. -/
theorem Sound.of_touches (h : p.Sound s) {k : Nat} (hne : k ≠ p.tracker.slot)
    (ht : s.Touches k s') : p.Sound s' :=
  ⟨h.linked.of_touches hne ht, h.pending, fun time hp slot hk =>
    h.seeding time hp slot (ht.others _ hne ▸ hk)⟩

/-- A peer stands right after somebody has claimed a slot. -/
theorem Sound.claim (h : p.Sound s) {k : Nat} (hs : s.claim = .ok (k, s')) :
    k ≠ p.tracker.slot ∧ p.Sound s' := by
  obtain ⟨hne, hlinked⟩ := h.linked.claim hs
  refine ⟨hne, hlinked, h.pending, fun time hp slot hk => h.seeding time hp slot ?_⟩
  obtain ⟨-, -, slot', -, -, rfl⟩ := CompletionService.claim_ok hs
  exact (List.getElem?_set_ne hne).symm.trans hk

/-- A peer stands right after shutdown. -/
theorem Sound.shutdown (h : p.Sound s) : p.Sound s.shutdown := by
  refine ⟨h.linked.shutdown, h.pending, fun time hp slot hk => ?_⟩
  unfold CompletionService.shutdown at hk
  split_ifs at hk with hc
  · exact h.seeding time hp slot hk
  · rw [List.getElem?_map] at hk
    obtain ⟨slot', hk', rfl⟩ := Option.map_eq_some_iff.mp hk
    exact h.seeding time hp slot' hk'

/-- An action leaves the peer standing right, and touches no slot but its own. -/
theorem Sound.act (h : p.Sound s) (hsound : s.Sound) {a : PeerAction}
    {answer : Except ReplayError Unit} (hs : p.act s a = some (answer, p', s')) :
    p'.Sound s' ∧ p'.tracker.slot = p.tracker.slot ∧ s.Touches p.tracker.slot s' := by
  have hrefl := CompletionService.Touches.refl p.tracker.slot hsound
  -- Each action is a call of the tracker, which keeps the link, or is refused and changes nothing.
  cases a with
  | seed time =>
    simp only [Peer.act] at hs
    split_ifs at hs with hidle
    cases hr : s.reportInitiated p.tracker.slot time with
    | error e =>
      rw [hr] at hs
      obtain ⟨-, rfl, rfl⟩ := Option.some.inj hs
      exact ⟨h, rfl, hrefl⟩
    | ok service =>
      rw [hr] at hs
      obtain ⟨-, rfl, rfl⟩ := Option.some.inj hs
      obtain ⟨htouches, hlinked, hlast⟩ := h.linked.beginSeed hsound hr
      refine ⟨⟨hlinked, fun _ => hidle.2, fun u hu => ?_⟩, rfl, htouches⟩
      rw [← Option.some.inj hu]
      exact hlast
  | finishSeed =>
    obtain ⟨time, hp, heq⟩ := Option.map_eq_some_iff.mp hs
    have hpending := h.pending (by simp [hp])
    rcases p.tracker.finishSeed_cases s time with ⟨e, he⟩ | ⟨service, hr, he⟩
    · rw [he] at heq
      obtain ⟨-, rfl, rfl⟩ := heq
      exact ⟨sound_of_linked h.linked rfl, rfl, hrefl⟩
    · rw [he] at heq
      obtain ⟨-, rfl, rfl⟩ := heq
      obtain ⟨htouches, hlinked⟩ := h.linked.finishSeed hsound hpending (h.seeding time hp) hr
      exact ⟨sound_of_linked hlinked rfl, rfl, htouches⟩
  | initiate time =>
    simp only [Peer.act] at hs
    split_ifs at hs with hidle
    rcases p.tracker.initiate_cases s time with ⟨e, he⟩ | ⟨service, hr, he⟩
    · rw [he] at hs
      obtain ⟨-, rfl, rfl⟩ := Option.some.inj hs
      exact ⟨h, rfl, hrefl⟩
    · obtain ⟨htouches, -, hlinked, -⟩ := h.linked.initiate hsound he
      rw [he] at hs
      obtain ⟨-, rfl, rfl⟩ := Option.some.inj hs
      exact ⟨sound_of_linked hlinked hidle, rfl, htouches⟩
  | complete time =>
    simp only [Peer.act] at hs
    split_ifs at hs with hidle
    generalize hcomplete : p.tracker.complete s time = call at hs
    obtain ⟨answer', t, service⟩ := call
    obtain ⟨-, rfl, rfl⟩ := Option.some.inj hs
    by_cases hp : time ∈ p.tracker.pending
    · obtain ⟨htouches, hslot, hlinked, -⟩ := h.linked.complete hsound hp hcomplete
      exact ⟨sound_of_linked (by simpa [after, hp] using hlinked) hidle, hslot, htouches⟩
    · have heq := CompletionTracker.complete_of_not_mem (s := s) hp
      rw [hcomplete] at heq
      obtain ⟨rfl, rfl⟩ := heq
      exact ⟨sound_of_linked (by simpa [after, hp] using h.linked) hidle, rfl, hrefl⟩

/-- An operation that a peer initiates is no earlier than the global completion time. -/
theorem Sound.global_le (h : p.Sound s) (hsound : s.Sound) {a : PeerAction} {time : Instant}
    (ha : p.attempt? a = some time) (hs : p.act s a = some (.ok (), p', s')) :
    s.global ≤ some time := by
  obtain ⟨slot, hk, hclaimed, -⟩ := h.linked
  have hm : slot ∈ s.slots := List.mem_of_getElem? hk
  have hlast : s.global ≤ slot.lastInitiated :=
    optionLe_trans (hsound.global.le (List.mem_map_of_mem hm)) (hsound.ordered slot hm)
  -- The service accepts no initiated time before the last one of the slot.
  have haccepted : ∀ {service}, s.reportInitiated p.tracker.slot time = .ok service →
      s.global ≤ some time := fun hr =>
    optionLe_trans hlast (CompletionService.touches_reportInitiated hsound hk hclaimed hr).2.1
  cases a with
  | seed u =>
    obtain rfl := Option.some.inj ha
    simp only [Peer.act] at hs
    split_ifs at hs
    cases hr : s.reportInitiated p.tracker.slot u with
    | error e => rw [hr] at hs; simp at hs
    | ok service => exact haccepted hr
  -- A seed has been reported as initiated already when it is finished.
  | finishSeed => exact h.seeding time ha slot hk ▸ hlast
  | initiate u =>
    obtain rfl := Option.some.inj ha
    simp only [Peer.act] at hs
    split_ifs at hs
    rcases p.tracker.initiate_cases s u with ⟨e, he⟩ | ⟨service, hr, -⟩
    · rw [he] at hs
      simp at hs
    · exact haccepted hr
  | complete u => simp [attempt?] at ha

end Acting

end Peer

/-- Peers that share a service, in the order in which they have claimed their slots. -/
structure PeerGroup where
  service : CompletionService
  peers : List Peer
  deriving DecidableEq

/-- A call in a group of peers. -/
inductive PeerCall where
  /-- A peer claims a slot. -/
  | join
  /-- A peer does something with its tracker. -/
  | act (peer : Nat) (action : PeerAction)
  | shutdown
  deriving DecidableEq

namespace PeerGroup

/-- The service for some peers, none of which has claimed its slot. -/
def ofPeers (peerIds : List String) : PeerGroup := ⟨CompletionService.ofPeers peerIds, []⟩

/-- The answer of a call and the group after it; `none` for a call of a peer that does not exist or
is occupied. -/
def call (g : PeerGroup) : PeerCall → Option (Except ReplayError Unit × PeerGroup)
  | .join =>
    match g.service.claim with
    | .error e => some (.error e, g)
    | .ok (k, service) => some (.ok (), ⟨service, g.peers ++ [Peer.ofSlot k]⟩)
  | .act i action =>
    g.peers[i]?.bind fun p => (p.act g.service action).map fun (answer, p, service) =>
      (answer, ⟨service, g.peers.set i p⟩)
  | .shutdown => some (.ok (), { g with service := g.service.shutdown })

/-- The group after some calls, one after another. -/
def calls : PeerGroup → List PeerCall → Option PeerGroup
  | g, [] => some g
  | g, c :: rest => (g.call c).bind fun (_, g) => calls g rest

/-- The invariant of a group. -/
structure Sound (g : PeerGroup) : Prop where
  service : g.service.Sound
  peers : ∀ (i : Nat) (p : Peer), g.peers[i]? = some p → p.Sound g.service
  /-- No two peers share a slot. -/
  distinct : ∀ (i j : Nat) (p q : Peer), g.peers[i]? = some p → g.peers[j]? = some q →
    p.tracker.slot = q.tracker.slot → i = j

section Keeping

variable {g g' : PeerGroup}

/-- A group begins sound. -/
theorem sound_ofPeers (peerIds : List String) : (ofPeers peerIds).Sound :=
  ⟨CompletionService.sound_ofPeers peerIds, by simp [ofPeers], by simp [ofPeers]⟩

/-- A peer that joins keeps the invariant. -/
theorem Sound.join (h : g.Sound) {k : Nat} {service : CompletionService}
    (hs : g.service.claim = .ok (k, service)) :
    Sound ⟨service, g.peers ++ [Peer.ofSlot k]⟩ := by
  -- A peer of the larger group is one from before, or the new one at the end.
  have hnew : ∀ (i : Nat) (p : Peer), (g.peers ++ [Peer.ofSlot k])[i]? = some p →
      g.peers[i]? = some p ∨ i = g.peers.length ∧ p = Peer.ofSlot k := fun i p hp => by
    rcases Nat.lt_or_ge i g.peers.length with hi | hi
    · rw [List.getElem?_append_left hi] at hp
      exact .inl hp
    · rw [List.getElem?_append_right hi] at hp
      obtain ⟨hlt, heq⟩ := List.getElem?_eq_some_iff.mp hp
      simp only [List.length_singleton] at hlt
      have hi' : i = g.peers.length := by omega
      subst hi'
      exact .inr ⟨rfl, by simpa using heq.symm⟩
  have hne : ∀ (i : Nat) (p : Peer), g.peers[i]? = some p → k ≠ p.tracker.slot := fun i p hp =>
    ((h.peers i p hp).claim hs).1
  refine ⟨h.service.claim hs, fun i p hp => ?_, fun i j p q hp hq heq => ?_⟩
  · rcases hnew i p hp with hp | ⟨-, rfl⟩
    · exact ((h.peers i p hp).claim hs).2
    · exact Peer.sound_ofSlot h.service hs
  · rcases hnew i p hp with hp | ⟨hi, rfl⟩ <;> rcases hnew j q hq with hq | ⟨hj, rfl⟩
    · exact h.distinct i j p q hp hq heq
    · exact absurd heq.symm (hne i p hp)
    · exact absurd heq (hne j q hq)
    · rw [hi, hj]

/-- A peer that does something keeps the invariant, and takes nothing back. -/
theorem Sound.act (h : g.Sound) {i : Nat} {p p' : Peer} {a : PeerAction}
    {answer : Except ReplayError Unit} {service : CompletionService} (hp : g.peers[i]? = some p)
    (hs : p.act g.service a = some (answer, p', service)) :
    Sound ⟨service, g.peers.set i p'⟩ ∧ g.service.Grows service := by
  obtain ⟨hsound, hslot, htouches⟩ := (h.peers i p hp).act h.service hs
  -- All peers but the one that acts are as they were.
  have hset : ∀ (j : Nat) (q : Peer), (g.peers.set i p')[j]? = some q →
      j = i ∧ q = p' ∨ j ≠ i ∧ g.peers[j]? = some q := fun j q hq => by
    by_cases hj : i = j
    · subst hj
      rw [List.getElem?_set_self (List.getElem?_eq_some_iff.mp hp).1] at hq
      exact .inl ⟨rfl, (Option.some.inj hq).symm⟩
    · rw [List.getElem?_set_ne hj] at hq
      exact .inr ⟨Ne.symm hj, hq⟩
  refine ⟨⟨htouches.sound, fun j q hq => ?_, fun j l q r hq hr heq => ?_⟩, htouches.grows⟩
  · rcases hset j q hq with ⟨-, rfl⟩ | ⟨hj, hq⟩
    · exact hsound
    · refine (h.peers j q hq).of_touches (fun heq => hj ?_) htouches
      exact h.distinct j i q p hq hp heq.symm
  · rcases hset j q hq with ⟨hj, rfl⟩ | ⟨hj, hj'⟩ <;> rcases hset l r hr with ⟨hl, rfl⟩ | ⟨hl, hl'⟩
    · rw [hj, hl]
    · exact absurd (h.distinct l i r p hl' hp (heq.symm.trans hslot)) hl
    · exact absurd (h.distinct j i q p hj' hp (heq.trans hslot)) hj
    · exact h.distinct j l q r hj' hl' heq

/-- One call keeps the invariant, and takes nothing back. -/
theorem Sound.call (h : g.Sound) {c : PeerCall} {answer : Except ReplayError Unit}
    (hs : g.call c = some (answer, g')) : g'.Sound ∧ g.service.Grows g'.service := by
  cases c with
  | join =>
    simp only [PeerGroup.call] at hs
    split at hs
    · obtain ⟨-, rfl⟩ := Option.some.inj hs
      exact ⟨h, CompletionService.Grows.refl _⟩
    · rename_i k service hclaim
      obtain ⟨-, rfl⟩ := Option.some.inj hs
      exact ⟨h.join hclaim, CompletionService.grows_claim hclaim⟩
  | act i a =>
    obtain ⟨p, hp, hmap⟩ := Option.bind_eq_some_iff.mp hs
    obtain ⟨⟨answer', p', service⟩, hact, heq⟩ := Option.map_eq_some_iff.mp hmap
    obtain ⟨-, rfl⟩ := heq
    exact h.act hp hact
  | shutdown =>
    obtain ⟨-, rfl⟩ := Option.some.inj hs
    exact ⟨⟨h.service.shutdown, fun i p hp => (h.peers i p hp).shutdown, h.distinct⟩,
      CompletionService.grows_shutdown _⟩

/-- Any calls keep the invariant, and take nothing back. -/
theorem Sound.calls (h : g.Sound) {cs : List PeerCall} (hs : g.calls cs = some g') :
    g'.Sound ∧ g.service.Grows g'.service := by
  induction cs generalizing g with
  | nil =>
    obtain rfl := Option.some.inj hs
    exact ⟨h, CompletionService.Grows.refl _⟩
  | cons c cs ih =>
    obtain ⟨⟨answer, t⟩, hc, hrest⟩ := Option.bind_eq_some_iff.mp hs
    obtain ⟨ht, hgrows⟩ := h.call hc
    obtain ⟨hg', hgrows'⟩ := ih ht hrest
    exact ⟨hg', hgrows.trans hgrows'⟩

end Keeping

/-- The global completion time is a low-water mark of the operations of all peers. Whatever the
peers have called, and in whatever order, once the global completion time is known:

* every peer has completed all operations that it has initiated before that time, each as often as
  it has initiated it;
* whatever is called from then on, no peer succeeds in initiating an operation before that time. -/
theorem global_isLowMark (peerIds : List String) (cs : List PeerCall) (g : PeerGroup)
    (mark : Instant) (hs : (ofPeers peerIds).calls cs = some g)
    (hg : g.service.global = some mark) :
    (∀ p ∈ g.peers, ∀ time < mark, p.initiated.count time = p.completed.count time) ∧
    (∀ more g', g.calls more = some g' → ∀ (i : Nat) p a time g'', g'.peers[i]? = some p →
      p.attempt? a = some time → g'.call (.act i a) = some (.ok (), g'') → mark ≤ time) := by
  have hsound := ((sound_ofPeers peerIds).calls hs).1
  constructor
  · -- What lies before the mark lies before what the peer itself has reported as completed.
    intro p hp time hlt
    obtain ⟨i, hi⟩ := List.getElem?_of_mem hp
    have hlinked := (hsound.peers i p hi).linked
    have hmark := hlinked.global_le hsound.service
    obtain ⟨slot, -, -, haccounts⟩ := hlinked
    rw [hg] at hmark
    obtain ⟨last, hlast, hle⟩ := some_optionLe_iff.mp hmark
    exact haccounts.count_eq (some_optionLt_iff.mpr ⟨last, hlast, lt_of_lt_of_le hlt hle⟩)
  · -- The mark does not go back, and at any time no operation is initiated before it.
    intro more g' hmore i p a time g'' hp ha hcall
    obtain ⟨hsound', hgrows⟩ := hsound.calls hmore
    obtain ⟨q, hq, hmap⟩ := Option.bind_eq_some_iff.mp hcall
    rw [hp] at hq
    obtain rfl := Option.some.inj hq
    obtain ⟨⟨answer, p', service⟩, hact, heq⟩ := Option.map_eq_some_iff.mp hmap
    obtain ⟨rfl, -⟩ := Prod.mk.inj heq
    have hle := (hsound'.peers i p hp).global_le hsound'.service ha hact
    have hup := optionLe_trans hgrows.global hle
    rw [hg] at hup
    exact Option.some_le_some.mp hup

/-- Two peers seed at the same time, and each has a call refused. One of them has two operations of
one time, of which it has completed one: the mark stays just before that time. -/
theorem global_isLowMark_two_peers :
    ∃ g, (ofPeers ["a", "b"]).calls [.join, .join, .join, .act 0 (.seed ⟨8, by decide⟩),
        .act 1 (.seed ⟨7, by decide⟩), .act 1 .finishSeed, .act 0 .finishSeed,
        .act 0 (.initiate ⟨10, by decide⟩), .act 0 (.initiate ⟨10, by decide⟩),
        .act 1 (.initiate ⟨11, by decide⟩), .act 1 (.initiate ⟨9, by decide⟩),
        .act 1 (.complete ⟨11, by decide⟩), .act 0 (.complete ⟨11, by decide⟩),
        .act 0 (.complete ⟨10, by decide⟩)] = some g ∧
      g.service.global = some ⟨9, by decide⟩ ∧
      (∀ p ∈ g.peers, ∀ time < ⟨9, by decide⟩,
        p.initiated.count time = p.completed.count time) ∧
      ∃ g', g.call (.act 0 (.initiate ⟨10, by decide⟩)) = some (.ok (), g') ∧
        (⟨9, by decide⟩ : Instant) ≤ ⟨10, by decide⟩ := by
  let cs : List PeerCall := [.join, .join, .join, .act 0 (.seed ⟨8, by decide⟩),
    .act 1 (.seed ⟨7, by decide⟩), .act 1 .finishSeed, .act 0 .finishSeed,
    .act 0 (.initiate ⟨10, by decide⟩), .act 0 (.initiate ⟨10, by decide⟩),
    .act 1 (.initiate ⟨11, by decide⟩), .act 1 (.initiate ⟨9, by decide⟩),
    .act 1 (.complete ⟨11, by decide⟩), .act 0 (.complete ⟨11, by decide⟩),
    .act 0 (.complete ⟨10, by decide⟩)]
  have hrun : ((ofPeers ["a", "b"]).calls cs).bind (fun g =>
      (g.call (.act 0 (.initiate ⟨10, by decide⟩))).map fun (answer, _) =>
        (g.service.global, answer)) = some (some ⟨9, by decide⟩, .ok ()) := rfl
  obtain ⟨g, hs, hmore⟩ := Option.bind_eq_some_iff.mp hrun
  obtain ⟨⟨answer, g'⟩, hcall, heq⟩ := Option.map_eq_some_iff.mp hmore
  obtain ⟨hg, rfl⟩ := Prod.mk.inj heq
  obtain ⟨hpast, hfuture⟩ := global_isLowMark ["a", "b"] cs g ⟨9, by decide⟩ hs hg
  obtain ⟨p, hp, -⟩ := Option.bind_eq_some_iff.mp hcall
  exact ⟨g, hs, hg, hpast, g', hcall, hfuture [] g rfl 0 p _ _ g' hp rfl hcall⟩

end PeerGroup

end WorkloadReplay
