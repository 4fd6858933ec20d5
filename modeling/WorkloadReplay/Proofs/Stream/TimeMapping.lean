import WorkloadReplay.Proofs.Stream.Retiming

/-!
# Merging streams that were moved in time

A time map never gives a later time an earlier one. So it takes proper sequences to proper
sequences, and the merge of the mapped streams is the stable sort of the same operations by their
mapped starts. It agrees with the merge of the streams as they were but for ties: rounding may give
one start to operations that started at different times, and these come in the order of their
sequences. Which ties change the order is said by `mergeSort_eq_mergeSort_iff`, and `merge_timeMap`
puts all together.
-/

namespace WorkloadReplay

variable {P : Type}

/-! ## Sorting by a coarser key -/

section Sorting

variable {α : Type} {key coarse : α → Instant} {l : List α}

/-- Sorting by a key or by a coarser one, the coarse keys come in the same order. -/
theorem map_mergeSort_coarse (hmono : ∀ a ∈ l, ∀ b ∈ l, key a ≤ key b → coarse a ≤ coarse b) :
    (l.mergeSort (coarse · ≤ coarse ·)).map coarse = (l.mergeSort (key · ≤ key ·)).map coarse := by
  have hperm : (l.mergeSort (coarse · ≤ coarse ·)).Perm (l.mergeSort (key · ≤ key ·)) :=
    (List.mergeSort_perm l _).trans (List.mergeSort_perm l _).symm
  refine (hperm.map coarse).eq_of_pairwise' (r := (· ≤ ·)) ?_ ?_
  · exact List.pairwise_map.mpr (pairwise_mergeSort_key l)
  · refine List.pairwise_map.mpr ((pairwise_mergeSort_key l).imp_of_mem fun ha hb hab => ?_)
    exact hmono _ (List.mem_mergeSort.mp ha) _ (List.mem_mergeSort.mp hb) hab

/-- Sorting by a coarser key gives the same list exactly when items with the same coarse key are in
order already. -/
theorem mergeSort_eq_mergeSort_iff
    (hmono : ∀ a ∈ l, ∀ b ∈ l, key a ≤ key b → coarse a ≤ coarse b) :
    l.mergeSort (coarse · ≤ coarse ·) = l.mergeSort (key · ≤ key ·) ↔
      l.Pairwise fun a b => coarse a = coarse b → key a ≤ key b := by
  constructor
  · intro heq
    refine List.pairwise_iff_forall_sublist.mpr fun {a b} hab hcoarse => ?_
    -- Items with one coarse key keep their order in the sort by it, and so in the other one.
    have hfilter : [a, b].filter (coarse · = coarse b) = [a, b] := by simp [hcoarse]
    have hsub : [a, b].Sublist (l.filter (coarse · = coarse b)) := hfilter ▸ hab.filter _
    rw [← filter_mergeSort, heq] at hsub
    exact List.pairwise_iff_forall_sublist.mp (pairwise_mergeSort_key l)
      (hsub.trans List.filter_sublist)
  · intro hties
    refine eq_of_filter_eq (pairwise_mergeSort_key l) ?_ fun t => ?_
    · refine (pairwise_mergeSort_key l).imp_of_mem fun ha hb hab => ?_
      exact hmono _ (List.mem_mergeSort.mp ha) _ (List.mem_mergeSort.mp hb) hab
    rw [filter_mergeSort]
    -- For one coarse key, both lists are in order of the key and hold the same items for each.
    have hsorted : (l.filter (coarse · = t)).Pairwise (key · ≤ key ·) := by
      refine (hties.filter _).imp_of_mem fun ha hb hab => hab ?_
      have ha := (List.mem_filter.mp ha).2
      have hb := (List.mem_filter.mp hb).2
      simp only [decide_eq_true_eq] at ha hb
      rw [ha, hb]
    refine eq_of_filter_eq hsorted ((pairwise_mergeSort_key l).filter _) fun u => ?_
    rw [List.filter_comm _ _ l, List.filter_comm _ _ (l.mergeSort _), filter_mergeSort]

end Sorting

/-! ## The start of a time map -/

namespace Stream

/-- The starts of the first operations of all sequences. -/
def firstStarts (streams : List (OperationStream P)) : List Instant :=
  (streams.flatMap fun s => [firstStart? s.dependencies, firstStart? s.others]).filterMap id

/-- These starts are those of the sequences that begin with an operation. -/
theorem mem_firstStarts {streams : List (OperationStream P)} {t : Instant} :
    t ∈ firstStarts streams ↔ ∃ s ∈ streams,
      firstStart? s.dependencies = some t ∨ firstStart? s.others = some t := by
  simp [firstStarts, List.mem_filterMap, List.mem_flatMap, eq_comm]

/-- The first starts are those of the sequences of streams that begin with an operation. -/
theorem mem_firstStarts_iff_source {streams : List (OperationStream P)} {t : Instant} :
    t ∈ firstStarts streams ↔ ∃ s ∈ Source.ofStreams streams, firstStart? s.rest = some t := by
  rw [mem_firstStarts]
  constructor
  · rintro ⟨s, hs, h | h⟩
    · exact ⟨_, Source.mem_ofStreams.mpr ⟨s, hs, .inl rfl⟩, h⟩
    · exact ⟨_, Source.mem_ofStreams.mpr ⟨s, hs, .inr rfl⟩, h⟩
  · rintro ⟨source, hsource, h⟩
    obtain ⟨s, hs, rfl | rfl⟩ := Source.mem_ofStreams.mp hsource
    · exact ⟨s, hs, .inl h⟩
    · exact ⟨s, hs, .inr h⟩

/-- Where a least time is looked for, there is one, and it is the least of all. -/
theorem foldl_earlier_eq (firsts : List Instant) (t : Instant) : ∃ least ∈ t :: firsts,
    firsts.foldl (fun earliest first => some (earliest.elim first (Instant.earlier · first)))
      (some t) = some least ∧ ∀ first ∈ t :: firsts, least ≤ first := by
  induction firsts generalizing t with
  | nil => exact ⟨t, List.mem_cons_self, rfl, by simp⟩
  | cons first firsts ih =>
    obtain ⟨least, hmem, hfold, hall⟩ := ih (t.earlier first)
    rw [Instant.earlier_eq_min] at hmem hall
    obtain ⟨hmin, hrest⟩ := List.forall_mem_cons.mp hall
    obtain ⟨hle, hle'⟩ := le_min_iff.mp hmin
    refine ⟨least, ?_, hfold,
      List.forall_mem_cons.mpr ⟨hle, List.forall_mem_cons.mpr ⟨hle', hrest⟩⟩⟩
    rcases List.mem_cons.mp hmem with rfl | hmem
    · rcases min_choice t first with h | h <;> simp [h]
    · simp [hmem]

/-- There is no anchor only where no sequence begins with an operation. -/
theorem firstStarts_of_anchor?_eq_none {streams : List (OperationStream P)}
    (h : anchor? streams = none) : firstStarts streams = [] := by
  change (firstStarts streams).foldl _ none = none at h
  cases hfirsts : firstStarts streams with
  | nil => rfl
  | cons first firsts =>
    obtain ⟨least, -, hfold, -⟩ := foldl_earlier_eq firsts first
    rw [hfirsts] at h
    exact absurd (hfold.symm.trans h) (by simp)

/-- The anchor is the least start with which a sequence begins. -/
theorem anchor?_spec {streams : List (OperationStream P)} {anchor : Instant}
    (h : anchor? streams = some anchor) :
    anchor ∈ firstStarts streams ∧ ∀ t ∈ firstStarts streams, anchor ≤ t := by
  change (firstStarts streams).foldl _ none = some anchor at h
  cases hfirsts : firstStarts streams with
  | nil => simp [hfirsts] at h
  | cons first firsts =>
    obtain ⟨least, hmem, hfold, hall⟩ := foldl_earlier_eq firsts first
    rw [hfirsts] at h
    obtain rfl := Option.some.inj (hfold.symm.trans h)
    exact ⟨hmem, hall⟩

/-- A sequence without errors that does not begin with an operation is empty. -/
theorem operations_of_firstStart?_eq_none {q : OperationSequence P} (hq : q.ErrorFree)
    (h : firstStart? q = none) : q.operations = [] := by
  cases q with
  | nil => rfl
  | cons item tail =>
    cases item with
    | error e => simpa [Except.isOk, Except.toBool] using hq _ List.mem_cons_self
    | ok op => simp [firstStart?] at h

/-- Where no stream begins with an operation, sequences without errors have none. -/
theorem concatenation_of_anchor?_eq_none {streams : List (OperationStream P)}
    (hfree : ∀ s ∈ streams, s.dependencies.ErrorFree ∧ s.others.ErrorFree)
    (h : anchor? streams = none) : concatenation streams = [] := by
  have hnone : ∀ s ∈ streams, firstStart? s.dependencies = none ∧ firstStart? s.others = none := by
    have hmem : ∀ t, t ∉ firstStarts streams := by simp [firstStarts_of_anchor?_eq_none h]
    intro s hs
    exact
      ⟨Option.eq_none_iff_forall_ne_some.mpr fun t ht =>
        hmem t (mem_firstStarts.mpr ⟨s, hs, .inl ht⟩),
      Option.eq_none_iff_forall_ne_some.mpr fun t ht =>
        hmem t (mem_firstStarts.mpr ⟨s, hs, .inr ht⟩)⟩
  refine List.flatMap_eq_nil_iff.mpr fun s hs => ?_
  rw [operations_of_firstStart?_eq_none (hfree s hs).1 (hnone s hs).1,
    operations_of_firstStart?_eq_none (hfree s hs).2 (hnone s hs).2]
  rfl

/-- The lanes of sequences come with the first operations of these. -/
theorem firstStart?_of_ofSources {n : Nat} {sources : List (Source P)} {as lanes : List (Lane P)}
    (h : Lane.ofSources n sources as = .ok lanes) : ∀ a ∈ lanes, a ∈ as ∨
      ∃ s ∈ sources, firstStart? s.rest = some a.head.scheduledStart := by
  induction sources generalizing n as with
  | nil =>
    obtain rfl := Except.ok.inj h
    exact fun a ha => .inl ha
  | cons s ss ih =>
    have hlater : ∀ a : Lane P, (∃ s ∈ ss, firstStart? s.rest = some a.head.scheduledStart) →
        ∃ s' ∈ s :: ss, firstStart? s'.rest = some a.head.scheduledStart :=
      fun a ⟨s', hs', hfirst⟩ => ⟨s', List.mem_cons_of_mem s hs', hfirst⟩
    unfold Lane.ofSources at h
    split at h
    · simp at h
    · exact fun a ha => (ih h a ha).imp_right (hlater a)
    · rename_i b hb
      obtain ⟨hpull, -⟩ := Lane.ofSource_eq_some hb
      obtain ⟨tail, hrest, -⟩ := Source.pull_eq_some.mp hpull
      intro a ha
      rcases ih h a ha with ha | ha
      · rcases Lane.mem_insert.mp ha with rfl | ha
        · exact .inr ⟨s, List.mem_cons_self, by rw [hrest]; rfl⟩
        · exact .inl ha
      · exact .inr (hlater a ha)

/-- No operation of a merge starts before the first operations of all sequences. -/
theorem exists_firstStart_le {streams : List (OperationStream P)} {x : ScheduledOperation P}
    (hx : x ∈ (merge streams).operations) :
    ∃ t ∈ firstStarts streams, t ≤ x.operation.scheduledStart := by
  unfold merge at hx
  split at hx
  · simp [Schedule.operations] at hx
  · rename_i lanes hlanes
    obtain ⟨a, ha, hle⟩ := (Lane.ordered_nil.ofSources (by simp) hlanes).merge.2 x hx
    rcases firstStart?_of_ofSources hlanes a ha with hnil | ⟨s, hs, hfirst⟩
    · simp at hnil
    · exact ⟨_, mem_firstStarts_iff_source.mpr ⟨s, hs, hfirst⟩, hle⟩

/-- Streams that were moved to a start merge into operations none of which starts earlier. -/
theorem le_of_mem_merge_timeMap {streams mapped : List (OperationStream P)} {start : Instant}
    {ratio : Binary64} (hmap : timeMap streams start ratio = .ok mapped)
    {x : ScheduledOperation P} (hx : x ∈ (merge mapped).operations) :
    start ≤ x.operation.scheduledStart := by
  obtain ⟨t, ht, hle⟩ := exists_firstStart_le hx
  refine le_trans ?_ hle
  obtain ⟨hratio, ⟨hanchor, rfl⟩ | ⟨anchor, shift, hanchor, hshift, rfl⟩⟩ := timeMap_eq_ok.mp hmap
  · -- Without an anchor no sequence begins with an operation.
    rw [firstStarts_of_anchor?_eq_none hanchor] at ht
    simp at ht
  · obtain ⟨source, hsource, hfirst⟩ := mem_firstStarts_iff_source.mp ht
    obtain ⟨s, hs, rfl⟩ := mem_ofStreams_movedStream.mp hsource
    obtain ⟨u, hu, htime⟩ := firstStart?_movedSequence hfirst
    have hle' := (anchor?_spec hanchor).2 u (mem_firstStarts_iff_source.mpr ⟨s, hs, hu⟩)
    exact le_movedTime? hratio hshift hle' htime

/-! ## The merge of a time map -/

section Mapping

variable {ratio : Binary64} {anchor : Instant} {shift : Duration}

/-- A moved sequence is proper if the sequence is, and its operations are those of the sequence with
moved times. -/
theorem proper_movedSequence (hratio : ratio.Positive) {q : OperationSequence P} (hq : q.Proper)
    (hfree : (movedSequence ratio anchor shift q).ErrorFree) :
    (movedSequence ratio anchor shift q).Proper ∧
    (∀ op ∈ q.operations, Operation.IsMoved (movedTime? ratio anchor shift) op
      (op.moved (movedTime? ratio anchor shift))) ∧
    (movedSequence ratio anchor shift q).operations =
      q.operations.map (·.moved (movedTime? ratio anchor shift)) := by
  have hitems : List.Forall₂ (Operation.IsPlaced (movedTime? ratio anchor shift)) q.operations
      (movedSequence ratio anchor shift q).toList := items_movedSequence hq.errorFree
  exact ⟨⟨hfree, ordered_of_isPlaced (movedTime?_mono hratio) hitems hq.ordered,
    dependencies_of_isPlaced (movedTime?_mono hratio) hitems hq.dependencies⟩,
    operations_of_isPlaced hitems hfree⟩

/-- The sequences of a time map are proper, and their operations are those of the streams, one after
another, with mapped times. -/
theorem concatenation_timeMap {streams mapped : List (OperationStream P)} {start : Instant}
    (hproper : ∀ s ∈ streams, s.dependencies.Proper ∧ s.others.Proper)
    (hmap : timeMap streams start ratio = .ok mapped)
    (hfits : ∀ s ∈ mapped, s.dependencies.ErrorFree ∧ s.others.ErrorFree) :
    (∀ s ∈ mapped, s.dependencies.Proper ∧ s.others.Proper) ∧
    (∀ x ∈ concatenation streams,
      Operation.IsMoved (mappedTime? streams start ratio) x.operation
        (x.operation.moved (mappedTime? streams start ratio))) ∧
    concatenation mapped = (concatenation streams).map
      (·.moved (mappedTime? streams start ratio)) := by
  obtain ⟨hratio, ⟨hanchor, rfl⟩ | ⟨anchor, shift, hanchor, hshift, rfl⟩⟩ := timeMap_eq_ok.mp hmap
  · have hempty := concatenation_of_anchor?_eq_none hfits hanchor
    exact ⟨hproper, by simp [hempty], by simp [hempty]⟩
  · have hmapped : mappedTime? streams start ratio = movedTime? ratio anchor shift := by
      funext t
      simp [mappedTime?, hanchor, hshift]
    rw [hmapped]
    have hstreams : ∀ s ∈ streams,
        (movedSequence ratio anchor shift s.dependencies).ErrorFree ∧
        (movedSequence ratio anchor shift s.others).ErrorFree := fun s hs =>
      hfits _ (List.mem_map_of_mem hs)
    refine ⟨fun s' hs' => ?_, fun x hx => ?_, ?_⟩
    · obtain ⟨s, hs, rfl⟩ := List.mem_map.mp hs'
      obtain ⟨hdependencies, -⟩ := proper_movedSequence hratio (hproper s hs).1 (hstreams s hs).1
      obtain ⟨hothers, -⟩ := proper_movedSequence hratio (hproper s hs).2 (hstreams s hs).2
      exact ⟨hdependencies, hothers⟩
    · obtain ⟨s, hs, hx⟩ := List.mem_flatMap.mp hx
      rcases List.mem_append.mp hx with hx | hx
      · obtain ⟨op, hop, rfl⟩ := List.mem_map.mp hx
        exact (proper_movedSequence hratio (hproper s hs).1 (hstreams s hs).1).2.1 op hop
      · obtain ⟨op, hop, rfl⟩ := List.mem_map.mp hx
        exact (proper_movedSequence hratio (hproper s hs).2 (hstreams s hs).2).2.1 op hop
    · unfold concatenation
      rw [List.flatMap_map, List.map_flatMap]
      refine List.flatMap_congr fun s hs => ?_
      obtain ⟨-, -, hdependencies⟩ := proper_movedSequence hratio (hproper s hs).1 (hstreams s hs).1
      obtain ⟨-, -, hothers⟩ := proper_movedSequence hratio (hproper s hs).2 (hstreams s hs).2
      simp only [movedStream, hdependencies, hothers, List.map_append, List.map_map]
      rfl

end Mapping

/-- A merge that finds no error finds none after the streams have been mapped in time, if no time
overflows. It gives the same operations with mapped times: the mapped starts at each position are
those of the streams as they were, and operations with the same mapped start come in the order of
their sequences. So the operations come in the order that they had exactly when, of operations with
the same mapped start, none comes from a later place in the sequences and starts earlier. -/
theorem merge_timeMap (streams mapped : List (OperationStream P)) (start : Instant)
    (ratio : Binary64) (hmerge : (merge streams).ErrorFree)
    (hmap : timeMap streams start ratio = .ok mapped)
    (hfits : ∀ s ∈ mapped, s.dependencies.ErrorFree ∧ s.others.ErrorFree) :
    let time := mappedTime? streams start ratio
    (merge mapped).ErrorFree ∧
    ∃ ops : List (ScheduledOperation P),
      List.Forall₂ (ScheduledOperation.IsMoved time) ops (merge mapped).operations ∧
      ops.Perm (merge streams).operations ∧
      ops.map (time ·.operation.scheduledStart) =
        (merge streams).operations.map (time ·.operation.scheduledStart) ∧
      (∀ t, ops.filter (time ·.operation.scheduledStart = some t) =
        (concatenation streams).filter (time ·.operation.scheduledStart = some t)) ∧
      (ops = (merge streams).operations ↔ (concatenation streams).Pairwise fun x y =>
        time x.operation.scheduledStart = time y.operation.scheduledStart →
          x.operation.scheduledStart ≤ y.operation.scheduledStart) := by
  intro time
  have hproper := proper_of_merge hmerge
  obtain ⟨hproper', hmoved, hconcatenation⟩ := concatenation_timeMap hproper hmap hfits
  obtain ⟨hfree, hops⟩ := Schedule.operations_of_toList (toList_merge hproper')
  obtain ⟨-, hops₀⟩ := Schedule.operations_of_toList (toList_merge hproper)
  -- The start that an operation is mapped to: there is one for every operation of the streams.
  let coarse : ScheduledOperation P → Instant := fun x =>
    (time x.operation.scheduledStart).getD x.operation.scheduledStart
  have hcoarse : ∀ x ∈ concatenation streams,
      time x.operation.scheduledStart = some (coarse x) := by
    intro x hx
    obtain ⟨t, -, ht, -, -⟩ := hmoved x hx
    simp only [coarse, time, ht, Option.getD_some]
  have hmono : ∀ x ∈ concatenation streams, ∀ y ∈ concatenation streams,
      x.operation.scheduledStart ≤ y.operation.scheduledStart → coarse x ≤ coarse y :=
    fun x hx y hy => mappedTime?_mono (timeMap_eq_ok.mp hmap).1 (hcoarse x hx) (hcoarse y hy)
  let ops := (concatenation streams).mergeSort (coarse · ≤ coarse ·)
  have hmem : ∀ x ∈ ops, x ∈ concatenation streams := fun x hx => List.mem_mergeSort.mp hx
  have hmem₀ : ∀ x ∈ (merge streams).operations, x ∈ concatenation streams := fun x hx =>
    List.mem_mergeSort.mp (hops₀ ▸ hx)
  have hmapped : (merge mapped).operations = ops.map (·.moved time) := by
    rw [hops, hconcatenation]
    exact (List.map_mergeSort (f := ScheduledOperation.moved time) fun _ _ _ _ => rfl).symm
  refine ⟨hfree, ops, ?_, ?_, ?_, fun t => ?_, ?_⟩
  · rw [hmapped, List.forall₂_map_right_iff, List.forall₂_same]
    exact fun x hx => ⟨hmoved x (hmem x hx), rfl⟩
  · rw [hops₀]
    exact (List.mergeSort_perm _ _).trans (List.mergeSort_perm _ _).symm
  · rw [List.map_congr_left fun x hx => hcoarse x (hmem x hx),
      List.map_congr_left fun x hx => hcoarse x (hmem₀ x hx), hops₀]
    have hcoarses := congrArg (List.map some) (map_mergeSort_coarse hmono)
    rwa [List.map_map, List.map_map] at hcoarses
  · have hfilter : ∀ {l : List (ScheduledOperation P)}, (∀ x ∈ l, x ∈ concatenation streams) →
        l.filter (time ·.operation.scheduledStart = some t) = l.filter (coarse · = t) := by
      intro l hl
      refine List.filter_congr fun x hx => ?_
      rw [hcoarse x (hl x hx)]
      simp
    rw [hfilter hmem, hfilter fun x hx => hx]
    exact filter_mergeSort (concatenation streams) t
  · rw [hops₀, mergeSort_eq_mergeSort_iff hmono]
    refine List.Pairwise.iff_of_mem fun {x y} hx hy => ?_
    rw [hcoarse x hx, hcoarse y hy, Option.some_inj]

/-- A quarter, which is a number of the format. -/
def quarter : Binary64 := Binary64.ofRatio false 1 4

/-- Two updates. -/
def updateStream : OperationStream Nat :=
  ⟨"update", .ofList [.ok (.independent "update" ⟨4, by decide⟩ 0),
    .ok (.independent "update" ⟨8, by decide⟩ 1)], .nil⟩

/-- A read for each of the updates, a nanosecond later, that waits for it. -/
def readStream : OperationStream Nat :=
  ⟨"read", .nil, .ofList [.ok ⟨"read", ⟨5, by decide⟩, ⟨4, by decide⟩, .gated, 2⟩,
    .ok ⟨"read", ⟨9, by decide⟩, ⟨8, by decide⟩, .gated, 3⟩]⟩

/-- At a quarter of its distance, each read starts together with its update. The operations keep
their order, since the updates are in the first stream. -/
theorem merge_timeMap_quarter :
    let streams := [updateStream, readStream]
    let start : Instant := ⟨10, by decide⟩
    let mapped := streams.map (movedStream quarter ⟨4, by decide⟩ ⟨6, by decide⟩)
    (merge streams).ErrorFree ∧ timeMap streams start quarter = .ok mapped ∧
    (∀ s ∈ mapped, s.dependencies.ErrorFree ∧ s.others.ErrorFree) ∧
    List.Forall₂ (ScheduledOperation.IsMoved (mappedTime? streams start quarter))
      (merge streams).operations (merge mapped).operations ∧
    (merge mapped).operations.map
      (fun x => (x.operation.payload, x.operation.scheduledStart.nanos)) =
        [(0, 10), (2, 10), (1, 11), (3, 11)] := by
  intro streams start mapped
  have hmerge : (merge [updateStream, readStream]).ErrorFree := by decide +kernel
  have hmap : timeMap streams start quarter = .ok mapped :=
    timeMap_eq_ok.mpr ⟨⟨by decide +kernel, by decide +kernel⟩,
      .inr ⟨⟨4, by decide⟩, ⟨6, by decide⟩, by decide +kernel, by decide +kernel, rfl⟩⟩
  have hfits : ∀ s ∈ [updateStream, readStream].map
      (movedStream quarter ⟨4, by decide⟩ ⟨6, by decide⟩),
        s.dependencies.ErrorFree ∧ s.others.ErrorFree := by decide +kernel
  obtain ⟨-, ops, hmoved, -, -, -, horder⟩ :=
    merge_timeMap streams mapped start quarter hmerge hmap hfits
  refine ⟨hmerge, hmap, hfits, ?_, by decide +kernel⟩
  rwa [horder.mpr (by decide +kernel)] at hmoved

/-- The order is not always kept. With the reads in the first stream, the first read comes before
the update that it waits for. -/
theorem merge_timeMap_tie :
    let streams := [readStream, updateStream]
    let start : Instant := ⟨10, by decide⟩
    let mapped := streams.map (movedStream quarter ⟨4, by decide⟩ ⟨6, by decide⟩)
    (merge streams).ErrorFree ∧ timeMap streams start quarter = .ok mapped ∧
    (∀ s ∈ mapped, s.dependencies.ErrorFree ∧ s.others.ErrorFree) ∧
    (merge streams).operations.map (·.operation.payload) = [0, 2, 1, 3] ∧
    (merge mapped).operations.map (·.operation.payload) = [2, 0, 3, 1] ∧
    ¬ List.Forall₂ (ScheduledOperation.IsMoved (mappedTime? streams start quarter))
      (merge streams).operations (merge mapped).operations := by
  intro streams start mapped
  have hbefore : (merge [readStream, updateStream]).operations.map (·.operation.payload) =
      [0, 2, 1, 3] := by decide +kernel
  have hafter : (merge ([readStream, updateStream].map
      (movedStream quarter ⟨4, by decide⟩ ⟨6, by decide⟩))).operations.map (·.operation.payload) =
      [2, 0, 3, 1] := by decide +kernel
  have hmap : timeMap streams start quarter = .ok mapped :=
    timeMap_eq_ok.mpr ⟨⟨by decide +kernel, by decide +kernel⟩,
      .inr ⟨⟨4, by decide⟩, ⟨6, by decide⟩, by decide +kernel, by decide +kernel, rfl⟩⟩
  have hfits : ∀ s ∈ [readStream, updateStream].map
      (movedStream quarter ⟨4, by decide⟩ ⟨6, by decide⟩),
        s.dependencies.ErrorFree ∧ s.others.ErrorFree := by decide +kernel
  refine ⟨by decide +kernel, hmap, hfits, hbefore, hafter, fun h => ?_⟩
  -- A moved operation keeps its payload.
  have hpayload : List.Forall₂ (· = ·) ((merge streams).operations.map (·.operation.payload))
      ((merge mapped).operations.map (·.operation.payload)) := by
    rw [List.forall₂_map_left_iff, List.forall₂_map_right_iff]
    refine h.imp fun x y hxy => ?_
    obtain ⟨⟨start', dependency, -, -, hop⟩, -⟩ := hxy
    rw [hop]
    rfl
  rw [List.forall₂_eq_eq_eq, hbefore, hafter] at hpayload
  simp at hpayload

end Stream

end WorkloadReplay
