import WorkloadReplay.Proofs.Numeric.Significand
import WorkloadReplay.Proofs.Stream.TimeMapping

/-!
# Moving streams in time without changing their pace

At the ratio one, a time map should move the origin and nothing else. Yet every distance from the
anchor is turned into a floating-point number on its way, and comes back rounded to 53 significant
bits (`Duration.scale_one`). So a time keeps its distance exactly if that has no more of them, as
all distances up to `2 ^ 53` nanoseconds do, which is some hundred days (`Stream.movedTime?_one_iff`
and `Binary64.isExact_of_le`). `Stream.timeMap_one` says so of all streams, operation by operation.
-/

namespace WorkloadReplay

variable {P : Type}

open Binary64 (nearestInt IsExact)

/-! ## Times -/

/-- Scaled by one, a duration is rounded to 53 significant bits. There is no result at or beyond the
ends of the range. -/
theorem Duration.scale_one {d d' : Duration} :
    d.scale (.ofNat 1) = some d' ↔ leastNanos < d'.nanos ∧ d'.nanos = nearestInt d.nanos := by
  have hsize : d.nanos.natAbs ≤ 2 ^ 63 := by
    obtain ⟨hleast, hgreatest⟩ := d.fits
    unfold leastNanos at hleast
    unfold greatestNanos at hgreatest
    omega
  obtain ⟨m, e, hround, hwhole⟩ := Binary64.exists_round_mul_one hsize
  have hscale : d.scale (.ofNat 1) =
      if h : leastNanos < nearestInt d.nanos ∧ nearestInt d.nanos < greatestNanos + 1 then
        some ⟨nearestInt d.nanos, h.1.le, Int.le_of_lt_add_one h.2⟩
      else none := by
    unfold scale
    simp only [hround, hwhole, decide_eq_true_eq]
    rfl
  rw [hscale, Option.dite_none_right_eq_some]
  constructor
  · rintro ⟨hinside, hd⟩
    obtain rfl := Option.some.inj hd
    exact ⟨hinside.1, rfl⟩
  · rintro ⟨hleast, hnanos⟩
    refine ⟨⟨hnanos ▸ hleast, hnanos ▸ Int.lt_add_one_of_le d'.fits.2⟩, ?_⟩
    exact congrArg some (Duration.ext hnanos.symm)

/-- The instant `u` is as far from `start` as `t` is from `anchor`, and this distance is a duration
other than the least one. -/
structure Instant.KeepsDistance (anchor start t u : Instant) : Prop where
  distance : u.nanos - start.nanos = t.nanos - anchor.nanos
  fits : FitsNanos (t.nanos - anchor.nanos)
  inside : leastNanos < t.nanos - anchor.nanos

namespace Stream

section Times

variable {anchor start t u : Instant} {shift : Duration}

/-- A time that is moved at the ratio one has its distance rounded to 53 significant bits. -/
theorem nanos_of_movedTime?_one (hshift : start.since? anchor = some shift)
    (h : movedTime? (.ofNat 1) anchor shift t = some u) :
    u.nanos = start.nanos + nearestInt (t.nanos - anchor.nanos) := by
  obtain ⟨gap, scaled, v, hgap, hscaled, hv, hu⟩ := movedTime?_eq_some.mp h
  obtain ⟨-, hnanos⟩ := Duration.scale_one.mp hscaled
  rw [Instant.nanos_of_add? hu, Instant.nanos_of_add? hv, hnanos, Instant.nanos_of_since? hgap,
    Instant.nanos_of_since? hshift]
  omega

/-- It keeps its distance exactly if this has at most 53 significant bits. -/
theorem movedTime?_one_iff (hshift : start.since? anchor = some shift)
    (hkeeps : anchor.KeepsDistance start t u) :
    movedTime? (.ofNat 1) anchor shift t = some u ↔ IsExact (t.nanos - anchor.nanos) := by
  obtain ⟨hdistance, hfits, hinside⟩ := hkeeps
  rw [← Binary64.nearestInt_eq_iff]
  constructor
  · intro h
    have hnanos := nanos_of_movedTime?_one hshift h
    omega
  · intro hexact
    refine movedTime?_eq_some.mpr ⟨⟨_, hfits⟩, ⟨_, hfits⟩, t, ?_, ?_, ?_, ?_⟩
    · unfold Instant.since? Duration.ofNanos?
      rw [dif_pos hfits]
    · exact Duration.scale_one.mpr ⟨hinside, hexact.symm⟩
    · unfold Instant.add? Instant.ofNanos?
      simp only [add_sub_cancel, dif_pos t.fits]
    · have hnanos : t.nanos + shift.nanos = u.nanos := by
        rw [Instant.nanos_of_since? hshift]
        omega
      unfold Instant.add? Instant.ofNanos?
      simp only [hnanos, dif_pos u.fits]

end Times

end Stream

/-! ## Operations and streams -/

/-- What becomes of an operation when its times are moved from an anchor to a start at the ratio
one. The distances of both times are rounded to 53 significant bits; an operation whose times can
keep their distances does so exactly if neither has more of them. -/
structure Operation.IsShifted (anchor start : Instant) (op : Operation P)
    (item : Except WorkloadError (Operation P)) : Prop where
  rounded : ∀ op', item = .ok op' → ∃ t u, op' = op.withTimes t u ∧
    t.nanos = start.nanos + nearestInt (op.scheduledStart.nanos - anchor.nanos) ∧
    u.nanos = start.nanos + nearestInt (op.dependencyTime.nanos - anchor.nanos)
  exact : ∀ t u, anchor.KeepsDistance start op.scheduledStart t →
    anchor.KeepsDistance start op.dependencyTime u →
    (item = .ok (op.withTimes t u) ↔ IsExact (op.scheduledStart.nanos - anchor.nanos) ∧
      IsExact (op.dependencyTime.nanos - anchor.nanos))

namespace Stream

section Streams

variable {anchor start : Instant} {shift : Duration}

/-- An operation that is placed at the ratio one is shifted. -/
theorem isShifted_of_isPlaced (hshift : start.since? anchor = some shift) {op : Operation P}
    {item : Except WorkloadError (Operation P)}
    (h : op.IsPlaced (movedTime? (.ofNat 1) anchor shift) item) :
    op.IsShifted anchor start item := by
  constructor
  · rintro op' rfl
    obtain ⟨t, u, ht, hu, hop⟩ := h
    exact ⟨t, u, hop, nanos_of_movedTime?_one hshift ht, nanos_of_movedTime?_one hshift hu⟩
  · intro t u ht hu
    rw [← movedTime?_one_iff hshift ht, ← movedTime?_one_iff hshift hu]
    constructor
    · rintro rfl
      obtain ⟨t', u', ht', hu', hop⟩ := h
      obtain ⟨rfl, rfl⟩ : t = t' ∧ u = u' :=
        ⟨congrArg Operation.scheduledStart hop, congrArg Operation.dependencyTime hop⟩
      exact ⟨ht', hu'⟩
    · rintro ⟨ht', hu'⟩
      cases item with
      | error w =>
        obtain ⟨-, hnone | hnone⟩ := h
        · simp [ht'] at hnone
        · simp [hu'] at hnone
      | ok op' =>
        obtain ⟨t'', u'', ht'', hu'', rfl⟩ := h
        rw [Option.some.inj (ht'.symm.trans ht''), Option.some.inj (hu'.symm.trans hu'')]

/-- The ratio one passes its check. -/
theorem positive_one : (Binary64.ofNat 1).Positive := ⟨by decide +kernel, by decide +kernel⟩

/-- A time map at the ratio one moves the earliest first operation to the chosen start, if this is a
duration away, and every other time with it: distances are rounded to 53 significant bits, so an
operation whose times can keep their distances does so exactly if these have no more of them.
Streams without an operation stay as they are. -/
theorem timeMap_one (streams : List (OperationStream P)) (start : Instant)
    (hfree : ∀ s ∈ streams, s.dependencies.ErrorFree ∧ s.others.ErrorFree)
    (hfits : ∀ anchor, anchor? streams = some anchor → FitsNanos (start.nanos - anchor.nanos)) :
    ∃ mapped, timeMap streams start (.ofNat 1) = .ok mapped ∧
      (anchor? streams = none → mapped = streams) ∧
      ∀ anchor, anchor? streams = some anchor →
        List.Forall₂ (fun s s' : OperationStream P => s'.operationType = s.operationType ∧
          List.Forall₂ (Operation.IsShifted anchor start) s.dependencies.operations
            s'.dependencies.toList ∧
          List.Forall₂ (Operation.IsShifted anchor start) s.others.operations s'.others.toList)
          streams mapped := by
  cases hanchor : anchor? streams with
  | none => exact ⟨streams, timeMap_eq_ok.mpr ⟨positive_one, .inl ⟨hanchor, rfl⟩⟩, by simp⟩
  | some anchor =>
    have hshift : start.since? anchor = some ⟨_, hfits anchor hanchor⟩ := by
      unfold Instant.since? Duration.ofNanos?
      rw [dif_pos (hfits anchor hanchor)]
    refine ⟨_, timeMap_eq_ok.mpr ⟨positive_one, .inr ⟨anchor, _, hanchor, hshift, rfl⟩⟩, by simp,
      fun anchor' hanchor' => ?_⟩
    obtain rfl := Option.some.inj hanchor'
    rw [List.forall₂_map_right_iff, List.forall₂_same]
    intro s hs
    exact ⟨rfl, (items_movedSequence (hfree s hs).1).imp fun _ _ => isShifted_of_isPlaced hshift,
      (items_movedSequence (hfree s hs).2).imp fun _ _ => isShifted_of_isPlaced hshift⟩

end Streams

/-- Two updates four nanoseconds apart are still so at the ratio one. -/
theorem timeMap_one_updates :
    let start := Instant.saturating 10
    (∀ s ∈ [updateStream], s.dependencies.ErrorFree ∧ s.others.ErrorFree) ∧
    (∀ anchor, anchor? [updateStream] = some anchor → FitsNanos (start.nanos - anchor.nanos)) ∧
    ∃ mapped, timeMap [updateStream] start (.ofNat 1) = .ok mapped ∧
      mapped.map (·.dependencies.toList) = [[.ok (.independent "update" (.saturating 10) 0),
        .ok (.independent "update" (.saturating 14) 1)]] := by
  intro start
  have hanchor : anchor? [updateStream] = some (.saturating 4) := by decide +kernel
  have hfree : ∀ s ∈ [updateStream], s.dependencies.ErrorFree ∧ s.others.ErrorFree := by
    decide +kernel
  have hfits : ∀ anchor, anchor? [updateStream] = some anchor →
      FitsNanos (start.nanos - anchor.nanos) := by
    rintro anchor h
    obtain rfl := Option.some.inj (hanchor.symm.trans h)
    decide
  refine ⟨hfree, hfits, ?_⟩
  obtain ⟨mapped, hmap, -, hshifted⟩ := timeMap_one [updateStream] start hfree hfits
  refine ⟨mapped, hmap, ?_⟩
  obtain ⟨s', _, ⟨-, hdependencies, -⟩, hnil, rfl⟩ :=
    List.forall₂_cons_left_iff.mp (hshifted _ hanchor)
  obtain rfl := List.forall₂_nil_left_iff.mp hnil
  have hops : updateStream.dependencies.operations =
      [.independent "update" (.saturating 4) 0, .independent "update" (.saturating 8) 1] := by
    decide
  rw [hops] at hdependencies
  obtain ⟨first, _, hfirst, hrest, heq⟩ := List.forall₂_cons_left_iff.mp hdependencies
  obtain ⟨second, _, hsecond, hnil, rfl⟩ := List.forall₂_cons_left_iff.mp hrest
  obtain rfl := List.forall₂_nil_left_iff.mp hnil
  -- Distances of none and of four nanoseconds are kept.
  have hfour : Instant.KeepsDistance (.saturating 4) start (.saturating 4) (.saturating 10) :=
    ⟨by decide, by decide, by decide⟩
  have height : Instant.KeepsDistance (.saturating 4) start (.saturating 8) (.saturating 14) :=
    ⟨by decide, by decide, by decide⟩
  have hfirst := (hfirst.exact _ _ hfour hfour).mpr ⟨by decide +kernel, by decide +kernel⟩
  have hsecond := (hsecond.exact _ _ height height).mpr ⟨by decide +kernel, by decide +kernel⟩
  rw [List.map_singleton, heq, hfirst, hsecond]
  rfl

/-- Two operations of which the second one is far away: no number of 53 significant bits says how
far. -/
def distantStream : OperationStream Nat :=
  ⟨"read", .nil, .ofList [.ok (.independent "read" .epoch 0),
    .ok (.independent "read" (.saturating 9007199254740993) 1)]⟩

/-- Not every distance is kept at the ratio one. Moved from its start to that same start, the second
of two operations comes a nanosecond early. -/
theorem timeMap_one_early :
    let late := Instant.saturating 9007199254740993
    let mapped := [distantStream].map (movedStream (.ofNat 1) .epoch .zero)
    (∀ s ∈ [distantStream], s.dependencies.Proper ∧ s.others.Proper) ∧
    anchor? [distantStream] = some .epoch ∧
    Instant.KeepsDistance .epoch .epoch late late ∧
    timeMap [distantStream] .epoch (.ofNat 1) = .ok mapped ∧
    mapped.map (·.others.operations.map (·.scheduledStart.nanos)) = [[0, 9007199254740992]] := by
  intro late mapped
  refine ⟨fun s hs => ?_, by decide +kernel, ⟨by decide, by decide, by decide⟩,
    timeMap_eq_ok.mpr ⟨positive_one,
      .inr ⟨.epoch, .zero, by decide +kernel, by decide +kernel, rfl⟩⟩, by decide +kernel⟩
  obtain rfl := List.mem_singleton.mp hs
  exact ⟨⟨by decide, by decide, by decide⟩, ⟨by decide, by decide, by decide⟩⟩

end Stream

end WorkloadReplay
