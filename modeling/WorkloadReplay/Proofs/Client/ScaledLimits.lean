import WorkloadReplay.Client.Execution
import WorkloadReplay.Proofs.Stream.Limits
import WorkloadReplay.Proofs.Stream.Placement

/-!
# Limits in the time of the workload

A limit on the duration is given in the time of the workload. A replay at another pace is limited to
that duration scaled by the same ratio as all distances, and both are rounded to nanoseconds, each
by itself. Rounding keeps the order, so an operation within the limit stays within it, and one
beyond the limit can at most come to start at its very end (`Stream.exists_anchor_crossing`). Those
that do are replayed as well: what is left of the replay is what is left of the workload together
with them (`Stream.limit_merge_timeMap`).
-/

namespace WorkloadReplay

variable {P : Type}

/-- A limit is scaled as distances are. -/
theorem Client.scale_of_scaledDuration {ratio : Binary64} {d d' : Duration}
    (h : scaledDuration ratio (some d) = .ok (some d')) : d.scale ratio = some d' := by
  unfold scaledDuration at h
  cases hscaled : d.scale ratio with
  | none => simp [hscaled] at h
  | some scaled => simpa [hscaled] using h

/-- An operation whose start is moved starts then. -/
theorem ScheduledOperation.start_moved {f : Instant → Option Instant} {x : ScheduledOperation P}
    {t : Instant} (h : f x.start = some t) : (x.moved f).start = t := by
  change (f x.start).getD x.start = t
  rw [h, Option.getD_some]

namespace Stream

section Crossing

variable {l l' : Limits} {ratio : Binary64} {anchor start u t : Instant} {shift d d' : Duration}

/-- A time that is moved comes as far from the start as its distance from the anchor is scaled. -/
theorem exists_scaled_of_movedTime? (hshift : start.since? anchor = some shift)
    (h : movedTime? ratio anchor shift u = some t) : ∃ gap scaled, u.since? anchor = some gap ∧
      gap.scale ratio = some scaled ∧ t.nanos - start.nanos = scaled.nanos := by
  obtain ⟨gap, scaled, v, hgap, hscaled, hv, ht⟩ := movedTime?_eq_some.mp h
  refine ⟨gap, scaled, hgap, hscaled, ?_⟩
  rw [Instant.nanos_of_add? ht, Instant.nanos_of_add? hv, Instant.nanos_of_since? hshift]
  omega

/-- A time that is not late is not late when it is moved and the limit is scaled. A late one is late
unless it is moved to the very end. -/
theorem isLate_movedTime? (hl : l.duration = some d) (hl' : l'.duration = some d')
    (hratio : ratio.Positive) (hshift : start.since? anchor = some shift)
    (hscaled : d.scale ratio = some d') (hd : 0 ≤ d.nanos)
    (h : movedTime? ratio anchor shift u = some t) :
    (l.isLate anchor u = false → l'.isLate start t = false) ∧
      (l.isLate anchor u = true → (l'.isLate start t = false ↔ t = start.addOrGreatest d')) := by
  have hd' : 0 ≤ d'.nanos := Duration.scale_nonneg hratio hd hscaled
  obtain ⟨gap, scaled, hgap, hgapScaled, hnanos⟩ := exists_scaled_of_movedTime? hshift h
  have hwithin : l.isLate anchor u = false ↔ gap ≤ d := by
    rw [Limits.isLate_eq_false_iff hl hd, Duration.le_iff, Instant.nanos_of_since? hgap]
  constructor
  · intro hu
    rw [Limits.isLate_eq_false_iff hl' hd', hnanos]
    exact Duration.scale_mono hratio (hwithin.mp hu) hgapScaled hscaled
  · intro hu
    refine Limits.isLate_eq_false_iff_eq hl' hd' ?_
    have hlate : ¬ gap ≤ d := fun hle => by simp [hwithin.mpr hle] at hu
    rw [Duration.le_iff] at hlate
    rw [hnanos]
    exact Duration.scale_mono hratio (Duration.le_iff.mpr (by omega)) hscaled hgapScaled

end Crossing

section Merging

variable {streams mapped : List (OperationStream P)} {start : Instant} {ratio : Binary64}

/-- What a merge of proper sequences gives is in order, and consists of all of them. -/
theorem merge_of_proper (hproper : ∀ s ∈ streams, s.dependencies.Proper ∧ s.others.Proper) :
    (merge streams).ErrorFree ∧ (merge streams).operations.Perm (concatenation streams) ∧
      (merge streams).operations.Pairwise (·.start ≤ ·.start) := by
  obtain ⟨hfree, hops⟩ := Schedule.operations_of_toList (toList_merge hproper)
  rw [hops]
  exact ⟨hfree, List.mergeSort_perm _ _, pairwise_mergeSort_key _⟩

/-- Where some operations are not late when they are moved and all others are late unless they are
moved to an end, the former and those at the end are the ones that are not late. -/
theorem filter_map_moved {time : Instant → Option Instant} {l : Limits} {last : Instant}
    {kept late : List (ScheduledOperation P)}
    (hkept : ∀ x ∈ kept, ∃ t, time x.start = some t ∧ l.isLate start t = false)
    (hlate : ∀ x ∈ late, ∃ t, time x.start = some t ∧ (l.isLate start t = false ↔ t = last)) :
    ((kept ++ late).map (·.moved time)).filter (!l.isLate start ·.start) =
      (kept ++ late.filter (time ·.start = some last)).map (·.moved time) := by
  rw [List.filter_map, List.filter_append]
  congr 2
  · refine List.filter_eq_self.mpr fun x hx => ?_
    obtain ⟨t, ht, hin⟩ := hkept x hx
    rw [Function.comp_apply, ScheduledOperation.start_moved ht, hin]
    rfl
  · refine List.filter_congr fun x hx => ?_
    obtain ⟨t, ht, hout⟩ := hlate x hx
    rw [Function.comp_apply, ScheduledOperation.start_moved ht, ht, Bool.eq_iff_iff]
    simpa using hout

/-- The operations of a merge of proper sequences begin at an anchor. Those that are not late after
it are not late when they are mapped and the limit is scaled, and the late ones are late unless they
are mapped to the very end. -/
theorem exists_anchor_crossing {l l' : Limits} {d d' : Duration} (hl : l.duration = some d)
    (hl' : l'.duration = some d') (hd : 0 ≤ d.nanos)
    (hproper : ∀ s ∈ streams, s.dependencies.Proper ∧ s.others.Proper)
    (hmap : timeMap streams start ratio = .ok mapped)
    (hfits : ∀ s ∈ mapped, s.dependencies.ErrorFree ∧ s.others.ErrorFree)
    (hscaled : d.scale ratio = some d') : ∃ anchor : Instant,
      (∀ x, (merge streams).operations.head? = some x → x.start = anchor) ∧
      ∀ x ∈ (merge streams).operations, ∃ t, mappedTime? streams start ratio x.start = some t ∧
        (l.isLate anchor x.start = false → l'.isLate start t = false) ∧
        (l.isLate anchor x.start = true →
          (l'.isLate start t = false ↔ t = start.addOrGreatest d')) := by
  obtain ⟨-, hmoved, -⟩ := concatenation_timeMap hproper hmap hfits
  obtain ⟨-, hperm, hordered⟩ := merge_of_proper hproper
  obtain ⟨hratio, ⟨hanchor, -⟩ | ⟨anchor, shift, hanchor, hshift, -⟩⟩ := timeMap_eq_ok.mp hmap
  · -- Without an anchor there is no operation at all.
    have hempty := concatenation_of_anchor?_eq_none
      (fun s hs => ⟨(hproper s hs).1.errorFree, (hproper s hs).2.errorFree⟩) hanchor
    rw [hempty] at hperm
    rw [hperm.eq_nil]
    exact ⟨start, by simp, by simp⟩
  · refine ⟨anchor, fun x hx => ?_, fun x hx => ?_⟩
    · -- The first operation starts no later than the one that starts at the anchor.
      obtain ⟨hleast, y, hy, hyanchor⟩ := anchor?_isLeast hproper hanchor
      refine le_antisymm ?_ (hleast x (hperm.mem_iff.mp (List.mem_of_head? hx)))
      obtain ⟨rest, hrest⟩ := List.head?_eq_some_iff.mp hx
      have hy := hperm.mem_iff.mpr hy
      rw [hrest] at hy hordered
      rcases List.mem_cons.mp hy with rfl | hy
      · exact hyanchor.le
      · exact hyanchor ▸ (List.pairwise_cons.mp hordered).1 y hy
    · obtain ⟨t, -, ht, -, -⟩ := hmoved x (hperm.mem_iff.mp hx)
      refine ⟨t, ht, isLate_movedTime? hl hl' hratio hshift hscaled hd ?_⟩
      simpa [mappedTime?, hanchor, hshift] using ht

end Merging

/-- A limit on the duration keeps, at another pace, the operations that it keeps in the time of the
workload, and of those beyond it the ones that are mapped to the end of the scaled duration. So it
keeps the same operations exactly if there are none of these. -/
theorem limit_merge_timeMap (streams mapped : List (OperationStream P)) (start : Instant)
    (ratio : Binary64) (d d' : Duration) (hd : 0 ≤ d.nanos)
    (hproper : ∀ s ∈ streams, s.dependencies.Proper ∧ s.others.Proper)
    (hmap : timeMap streams start ratio = .ok mapped)
    (hfits : ∀ s ∈ mapped, s.dependencies.ErrorFree ∧ s.others.ErrorFree)
    (hscaled : Client.scaledDuration ratio (some d) = .ok (some d')) :
    let time := mappedTime? streams start ratio
    let kept := limit ⟨none, some d⟩ (merge streams)
    let kept' := limit ⟨none, some d'⟩ (merge mapped)
    kept.ErrorFree ∧ kept'.ErrorFree ∧
    (∀ x ∈ (merge streams).operations, x.IsMoved time (x.moved time)) ∧
    ∃ late, (merge streams).operations = kept.operations ++ late ∧
      kept'.operations.Perm ((kept.operations ++
        late.filter (time ·.start = some (start.addOrGreatest d'))).map (·.moved time)) ∧
      (kept'.operations.Perm (kept.operations.map (·.moved time)) ↔
        ∀ x ∈ late, time x.start ≠ some (start.addOrGreatest d')) := by
  intro time kept kept'
  have hscaled := Client.scale_of_scaledDuration hscaled
  obtain ⟨hproper', hmoved, hconcatenation⟩ := concatenation_timeMap hproper hmap hfits
  obtain ⟨hfree, hperm, hordered⟩ := merge_of_proper hproper
  obtain ⟨hfree', hperm', hordered'⟩ := merge_of_proper hproper'
  have hl : Limits.duration ⟨none, some d⟩ = some d := rfl
  have hl' : Limits.duration ⟨none, some d'⟩ = some d' := rfl
  obtain ⟨anchor, hfirst, hcrossing⟩ :=
    exists_anchor_crossing hl hl' hd hproper hmap hfits hscaled
  obtain ⟨late, hlate, hwithin, hbeyond⟩ :
      ∃ late, (merge streams).operations = kept.operations ++ late ∧ _ ∧ _ :=
    exists_late rfl hordered hfirst
  have hsame : kept'.operations.Perm ((kept.operations ++
      late.filter (time ·.start = some (start.addOrGreatest d'))).map (·.moved time)) := by
    have hkept' : kept'.operations = _ :=
      operations_limit rfl hordered' (beginsAt_merge_timeMap hmap).first
    have hops : (merge mapped).operations.Perm
        ((merge streams).operations.map (·.moved time)) := by
      rw [hconcatenation] at hperm'
      exact hperm'.trans (hperm.map _).symm
    rw [hkept', ← filter_map_moved (l := ⟨none, some d'⟩), ← hlate]
    · exact hops.filter _
    · intro x hx
      obtain ⟨t, ht, hin, -⟩ := hcrossing x (hlate ▸ List.mem_append_left late hx)
      exact ⟨t, ht, hin (hwithin x hx)⟩
    · intro x hx
      obtain ⟨t, ht, -, hout⟩ := hcrossing x (hlate ▸ List.mem_append_right _ hx)
      exact ⟨t, ht, hout (hbeyond x hx)⟩
  refine ⟨limit_errorFree hfree, limit_errorFree hfree', fun x hx => ?_, late, hlate, hsame, ?_⟩
  · exact ⟨hmoved x (hperm.mem_iff.mp hx), rfl⟩
  · have hnone : late.filter (time ·.start = some (start.addOrGreatest d')) = [] ↔
        ∀ x ∈ late, time x.start ≠ some (start.addOrGreatest d') := by
      simp [List.filter_eq_nil_iff]
    rw [← hnone]
    constructor
    · intro h
      have hlength := (h.symm.trans hsame).length_eq
      rw [List.length_map, List.length_map, List.length_append] at hlength
      exact List.length_eq_zero_iff.mp (by omega)
    · intro h
      rwa [h, List.append_nil] at hsame

/-- Limited to one nanosecond, the first update and its read are left, also at a quarter of their
distances, where the limit is rounded to nothing. -/
theorem limit_merge_timeMap_quarter :
    let streams := [updateStream, readStream]
    let start := Instant.saturating 10
    let mapped := streams.map (movedStream quarter (.saturating 4) (.saturating 6))
    let kept := limit ⟨none, some .one⟩ (merge streams)
    let kept' := limit ⟨none, some .zero⟩ (merge mapped)
    0 ≤ Duration.one.nanos ∧ (∀ s ∈ streams, s.dependencies.Proper ∧ s.others.Proper) ∧
    timeMap streams start quarter = .ok mapped ∧
    (∀ s ∈ mapped, s.dependencies.ErrorFree ∧ s.others.ErrorFree) ∧
    Client.scaledDuration quarter (some .one) = .ok (some .zero) ∧
    kept.operations.map (·.operation.payload) = [0, 2] ∧
    kept'.operations.Perm (kept.operations.map (·.moved (mappedTime? streams start quarter))) := by
  intro streams start mapped kept kept'
  have hmerge : (merge [updateStream, readStream]).ErrorFree := by decide +kernel
  have hproper := proper_of_merge hmerge
  have hmap : timeMap streams start quarter = .ok mapped :=
    timeMap_eq_ok.mpr ⟨⟨by decide +kernel, by decide +kernel⟩,
      .inr ⟨.saturating 4, .saturating 6, by decide +kernel, by decide +kernel, rfl⟩⟩
  have hfits : ∀ s ∈ [updateStream, readStream].map
      (movedStream quarter (.saturating 4) (.saturating 6)),
        s.dependencies.ErrorFree ∧ s.others.ErrorFree := by decide +kernel
  have hscaled : Client.scaledDuration quarter (some .one) = .ok (some .zero) := by
    have hscale : Duration.one.scale quarter = some .zero := by decide +kernel
    simp [Client.scaledDuration, hscale]
  have hkept : (limit ⟨none, some .one⟩ (merge [updateStream, readStream])).operations.map
      (·.operation.payload) = [0, 2] := by decide +kernel
  obtain ⟨-, -, -, late, hlate, -, hsame⟩ := limit_merge_timeMap streams mapped start quarter
    .one .zero (by decide) hproper hmap hfits hscaled
  refine ⟨by decide, hproper, hmap, hfits, hscaled, hkept, hsame.mpr ?_⟩
  -- The late operations are the second update and its read, which start a nanosecond later.
  have hrest : late = (merge [updateStream, readStream]).operations.drop
      (limit ⟨none, some .one⟩ (merge [updateStream, readStream])).operations.length := by
    change late = (merge streams).operations.drop kept.operations.length
    rw [hlate, List.drop_left]
  rw [hrest]
  decide +kernel

/-- The limit does not always keep the same operations. Limited to four nanoseconds, the second
read, which comes after five, is left out; at a quarter of the distances both are one nanosecond,
and the read is kept. -/
theorem limit_merge_timeMap_extra :
    let streams := [updateStream, readStream]
    let start := Instant.saturating 10
    let mapped := streams.map (movedStream quarter (.saturating 4) (.saturating 6))
    (∀ s ∈ streams, s.dependencies.Proper ∧ s.others.Proper) ∧
    timeMap streams start quarter = .ok mapped ∧
    (∀ s ∈ mapped, s.dependencies.ErrorFree ∧ s.others.ErrorFree) ∧
    Client.scaledDuration quarter (some (.saturating 4)) = .ok (some .one) ∧
    (limit ⟨none, some (.saturating 4)⟩ (merge streams)).operations.map (·.operation.payload) =
      [0, 2, 1] ∧
    (limit ⟨none, some .one⟩ (merge mapped)).operations.map (·.operation.payload) =
      [0, 2, 1, 3] := by
  intro streams start mapped
  have hmerge : (merge [updateStream, readStream]).ErrorFree := by decide +kernel
  refine ⟨proper_of_merge hmerge,
    timeMap_eq_ok.mpr ⟨⟨by decide +kernel, by decide +kernel⟩,
      .inr ⟨.saturating 4, .saturating 6, by decide +kernel, by decide +kernel, rfl⟩⟩, ?_, ?_,
    by decide +kernel, by decide +kernel⟩
  · change ∀ s ∈ [updateStream, readStream].map
      (movedStream quarter (.saturating 4) (.saturating 6)),
        s.dependencies.ErrorFree ∧ s.others.ErrorFree
    decide +kernel
  · have hscale : (Duration.saturating 4).scale quarter = some .one := by decide +kernel
    simp [Client.scaledDuration, hscale]

end Stream

end WorkloadReplay
