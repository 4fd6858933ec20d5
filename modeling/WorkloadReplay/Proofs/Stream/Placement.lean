import WorkloadReplay.Proofs.Stream.TimeMapping

/-!
# Streams that are moved in time stay in order

What becomes of a sequence of a well-formed workload when it is moved in time is decided item by
item. The operations that are left beside errors of overflows are in order, none before the chosen
start, and none depends on a time after its own start (`OperationSequence.IsPlaced`). A merge of
them therefore finds no fault but such an error (`Stream.timeMap_isPlaced`).

Of any workload, well-formed or not, what is merged after a time map begins right at the chosen
start, and every operation is a duration away from it (`Stream.beginsAt_merge_timeMap`).
-/

namespace WorkloadReplay

variable {P : Type}

/-! ## Sequences -/

/-- The sequence `q'` is what becomes of `q` when its times are taken through `f`: item by item its
operations or errors of overflows. The operations, before and after such errors, are in order, none
before `start`, and none depends on a time after its own start. -/
structure OperationSequence.IsPlaced (f : Instant → Option Instant) (start : Instant)
    (q q' : OperationSequence P) : Prop where
  items : List.Forall₂ (Operation.IsPlaced f) q.operations q'.toList
  ordered : q'.operations.Pairwise (·.scheduledStart ≤ ·.scheduledStart)
  dependencies : ∀ op ∈ q'.operations, op.dependencyTime ≤ op.scheduledStart
  begins : ∀ op ∈ q'.operations, start ≤ op.scheduledStart

section Placing

variable {f : Instant → Option Instant} {start : Instant}

/-- Nothing becomes of nothing. -/
theorem OperationSequence.IsPlaced.of_eq_nil {q : OperationSequence P} (hfree : q.ErrorFree)
    (h : q.operations = []) : q.IsPlaced f start q := by
  have hlist := OperationSequence.toList_of_errorFree hfree
  refine ⟨?_, ?_, ?_, ?_⟩ <;> simp [hlist, h]

/-- An operation both of whose times have results is placed with these. -/
theorem OperationSequence.IsPlaced.mem_operations {q q' : OperationSequence P}
    (h : q.IsPlaced f start q') {op : Operation P} (hop : op ∈ q.operations) {t u : Instant}
    (ht : f op.scheduledStart = some t) (hu : f op.dependencyTime = some u) :
    op.withTimes t u ∈ q'.operations := by
  obtain ⟨item, hitem, hplaced⟩ := exists_of_mem_right h.items.flip hop
  cases item with
  | error w =>
    obtain ⟨-, hnone | hnone⟩ := hplaced
    · simp [ht] at hnone
    · simp [hu] at hnone
  | ok op' =>
    obtain ⟨t', u', ht', hu', rfl⟩ := hplaced
    rw [← Option.some.inj (ht.symm.trans ht'), ← Option.some.inj (hu.symm.trans hu')] at hitem
    exact List.mem_filterMap.mpr ⟨_, hitem, rfl⟩

end Placing

namespace Stream

section Mapping

variable {ratio : Binary64} {anchor start : Instant} {shift : Duration}

/-- What becomes of a proper sequence that is moved in time. -/
theorem isPlaced_movedSequence (hratio : ratio.Positive)
    (hshift : start.since? anchor = some shift) {q : OperationSequence P} (hq : q.Proper)
    (hanchor : ∀ op ∈ q.operations, anchor ≤ op.scheduledStart) :
    q.IsPlaced (movedTime? ratio anchor shift) start (movedSequence ratio anchor shift q) := by
  have hitems : List.Forall₂ (Operation.IsPlaced (movedTime? ratio anchor shift)) q.operations
      (movedSequence ratio anchor shift q).toList := items_movedSequence hq.errorFree
  refine ⟨hitems, ordered_of_isPlaced (movedTime?_mono hratio) hitems hq.ordered,
    dependencies_of_isPlaced (movedTime?_mono hratio) hitems hq.dependencies, fun op' hop' => ?_⟩
  obtain ⟨op, hop, start', dependency', hstart', -, rfl⟩ := exists_isMoved_of_isPlaced hitems hop'
  exact le_movedTime? hratio hshift (hanchor op hop) hstart'

/-- No operation of a proper sequence starts before one of the starts with which sequences begin. -/
theorem exists_firstStart?_le {q : OperationSequence P} (hq : q.Proper) {op : Operation P}
    (hop : op ∈ q.operations) : ∃ t, firstStart? q = some t ∧ t ≤ op.scheduledStart := by
  cases q with
  | nil => simp [OperationSequence.operations] at hop
  | cons item tail =>
    cases item with
    | error e => simpa [Except.isOk, Except.toBool] using hq.errorFree _ List.mem_cons_self
    | ok first =>
      have hfirst := (List.pairwise_cons.mp hq.ordered).1
      refine ⟨first.scheduledStart, rfl, ?_⟩
      rcases List.mem_cons.mp hop with rfl | hop
      · exact le_refl _
      · exact hfirst op hop

/-- The start with which a sequence begins is that of one of its operations. -/
theorem exists_of_firstStart? {q : OperationSequence P} {t : Instant} (h : firstStart? q = some t) :
    ∃ op ∈ q.operations, op.scheduledStart = t := by
  cases q with
  | nil => simp [firstStart?] at h
  | cons item tail =>
    cases item with
    | error e => simp [firstStart?] at h
    | ok op => exact ⟨op, List.mem_cons_self, Option.some.inj h⟩

end Mapping

/-- The anchor is the start of the earliest operations. -/
theorem anchor?_isLeast {streams : List (OperationStream P)} {anchor : Instant}
    (hproper : ∀ s ∈ streams, s.dependencies.Proper ∧ s.others.Proper)
    (hanchor : anchor? streams = some anchor) :
    (∀ x ∈ concatenation streams, anchor ≤ x.start) ∧
    ∃ x ∈ concatenation streams, x.start = anchor := by
  obtain ⟨hmem, hleast⟩ := anchor?_spec hanchor
  simp only [← flatMap_ofStreams, List.mem_flatMap]
  refine ⟨fun x ⟨s, hs, hx⟩ => ?_, ?_⟩
  · obtain ⟨op, hop, rfl⟩ := List.mem_map.mp hx
    obtain ⟨t, ht, hle⟩ := exists_firstStart?_le (proper_ofStreams hproper s hs).rest hop
    exact le_trans (hleast t (mem_firstStarts_iff_source.mpr ⟨s, hs, ht⟩)) hle
  · obtain ⟨s, hs, hfirst⟩ := mem_firstStarts_iff_source.mp hmem
    obtain ⟨op, hop, hstart⟩ := exists_of_firstStart? hfirst
    exact ⟨⟨op, s.tracked⟩, ⟨s, hs, List.mem_map_of_mem hop⟩, hstart⟩

/-- Every sequence of a well-formed workload is placed by a time map. -/
theorem forall₂_isPlaced {streams mapped : List (OperationStream P)} {start : Instant}
    {ratio : Binary64} (hproper : ∀ s ∈ streams, s.dependencies.Proper ∧ s.others.Proper)
    (hmap : timeMap streams start ratio = .ok mapped) :
    List.Forall₂ (fun s s' : OperationStream P => s'.operationType = s.operationType ∧
      s.dependencies.IsPlaced (mappedTime? streams start ratio) start s'.dependencies ∧
      s.others.IsPlaced (mappedTime? streams start ratio) start s'.others) streams mapped := by
  obtain ⟨hratio, ⟨hanchor, rfl⟩ | ⟨anchor, shift, hanchor, hshift, rfl⟩⟩ := timeMap_eq_ok.mp hmap
  · -- Without an anchor there is no operation at all.
    have hempty := concatenation_of_anchor?_eq_none
      (fun s hs => ⟨(hproper s hs).1.errorFree, (hproper s hs).2.errorFree⟩) hanchor
    rw [List.forall₂_same]
    intro s hs
    obtain ⟨hdependencies, hothers⟩ :=
      List.append_eq_nil_iff.mp (List.flatMap_eq_nil_iff.mp hempty s hs)
    exact ⟨rfl, .of_eq_nil (hproper s hs).1.errorFree (List.map_eq_nil_iff.mp hdependencies),
      .of_eq_nil (hproper s hs).2.errorFree (List.map_eq_nil_iff.mp hothers)⟩
  · have hmapped : mappedTime? streams start ratio = movedTime? ratio anchor shift := by
      funext t
      simp [mappedTime?, hanchor, hshift]
    have hleast := (anchor?_isLeast hproper hanchor).1
    rw [hmapped, List.forall₂_map_right_iff, List.forall₂_same]
    intro s hs
    refine ⟨rfl, isPlaced_movedSequence hratio hshift (hproper s hs).1 fun op hop => ?_,
      isPlaced_movedSequence hratio hshift (hproper s hs).2 fun op hop => ?_⟩
    · exact hleast ⟨op, true⟩ (List.mem_flatMap.mpr
        ⟨s, hs, List.mem_append_left _ (List.mem_map_of_mem hop)⟩)
    · exact hleast ⟨op, false⟩ (List.mem_flatMap.mpr
        ⟨s, hs, List.mem_append_right _ (List.mem_map_of_mem hop)⟩)

/-- The earliest operation of a well-formed workload is mapped to the chosen start. -/
theorem mappedTime?_earliest {streams mapped : List (OperationStream P)} {start : Instant}
    {ratio : Binary64} (hproper : ∀ s ∈ streams, s.dependencies.Proper ∧ s.others.Proper)
    (hmap : timeMap streams start ratio = .ok mapped) {x : ScheduledOperation P}
    (hx : x ∈ concatenation streams) (hearliest : ∀ y ∈ concatenation streams, x.start ≤ y.start) :
    mappedTime? streams start ratio x.start = some start := by
  obtain ⟨hratio, ⟨hanchor, -⟩ | ⟨anchor, shift, hanchor, hshift, -⟩⟩ := timeMap_eq_ok.mp hmap
  · have hempty := concatenation_of_anchor?_eq_none
      (fun s hs => ⟨(hproper s hs).1.errorFree, (hproper s hs).2.errorFree⟩) hanchor
    simp [hempty] at hx
  · -- The earliest operation starts at the anchor.
    obtain ⟨hle, y, hy, hyanchor⟩ := anchor?_isLeast hproper hanchor
    have hxanchor : x.start = anchor := le_antisymm (hyanchor ▸ hearliest y hy) (hle x hx)
    simp only [mappedTime?, hanchor, hshift, hxanchor, Option.bind_some]
    exact movedTime?_anchor hratio hshift

section Placed

variable {f : Instant → Option Instant} {start : Instant}
  {streams mapped : List (OperationStream P)}
  (hplaced : List.Forall₂ (fun s s' : OperationStream P => s'.operationType = s.operationType ∧
    s.dependencies.IsPlaced f start s'.dependencies ∧ s.others.IsPlaced f start s'.others)
    streams mapped)

include hplaced

/-- An operation both of whose times have results is in the placed streams, with these. -/
theorem mem_concatenation_of_isPlaced {x : ScheduledOperation P} (hx : x ∈ concatenation streams)
    {t u : Instant} (ht : f x.start = some t) (hu : f x.operation.dependencyTime = some u) :
    ⟨x.operation.withTimes t u, x.tracked⟩ ∈ concatenation mapped := by
  obtain ⟨s, hs, hx⟩ := List.mem_flatMap.mp hx
  obtain ⟨s', hs', -, hdependencies, hothers⟩ := exists_of_mem_right hplaced.flip hs
  refine List.mem_flatMap.mpr ⟨s', hs', ?_⟩
  rcases List.mem_append.mp hx with hx | hx
  · obtain ⟨op, hop, rfl⟩ := List.mem_map.mp hx
    have hplace := hdependencies.mem_operations hop ht hu
    exact List.mem_append_left _ (List.mem_map_of_mem hplace)
  · obtain ⟨op, hop, rfl⟩ := List.mem_map.mp hx
    have hplace := hothers.mem_operations hop ht hu
    exact List.mem_append_right _ (List.mem_map_of_mem hplace)

/-- Each sequence of the placed streams is a placed one. -/
theorem exists_isPlaced {source : Source P} (hsource : source ∈ Source.ofStreams mapped) :
    ∃ q : OperationSequence P, q.IsPlaced f start source.rest := by
  obtain ⟨s', hs', rfl | rfl⟩ := Source.mem_ofStreams.mp hsource
  · obtain ⟨s, -, -, hdependencies, -⟩ := exists_of_mem_right hplaced hs'
    exact ⟨_, hdependencies⟩
  · obtain ⟨s, -, -, -, hothers⟩ := exists_of_mem_right hplaced hs'
    exact ⟨_, hothers⟩

/-- A merge of placed streams fails only with the error of an overflow. -/
theorem overflow_of_error_mem_merge {e : ReplayError} (he : .error e ∈ (merge mapped).toList) :
    ∃ s ∈ Source.ofStreams mapped, ∃ w, w.IsOverflow ∧
      .error w ∈ s.rest.toList ∧ e = .streamConstruction (s.label ++ ": " ++ w.message) := by
  obtain ⟨k, hk⟩ := defectOf?_of_mem_merge he
  obtain ⟨source, hsource, hdefect⟩ := Option.bind_eq_some_iff.mp hk
  have hmem := List.mem_of_getElem? hsource
  obtain ⟨q, hq⟩ := exists_isPlaced hplaced hmem
  obtain ⟨w, hw, hfault⟩ := Source.failure_of_defect? (Source.lastStart_of_mem_ofStreams hmem)
    hq.ordered hq.dependencies hdefect
  obtain ⟨op, -, hoverflow, -⟩ := exists_of_mem_right hq.items hw
  refine ⟨source, hmem, w, hoverflow, hw, ?_⟩
  cases hfault with
  | breakdown text =>
    obtain ⟨text, h | h⟩ := hoverflow <;> simp at h
  | failure => rfl

end Placed

/-- A time map keeps a well-formed workload well-formed. All times of all sequences are taken
through one function, item by item, and what is left of a sequence beside errors of overflows is in
order, begins no earlier than the chosen start, and depends on no later times. The earliest
operation goes to the chosen start if its dependency time does not overflow, and a merge of the
mapped streams fails only with the error of an overflow. -/
theorem timeMap_isPlaced (streams mapped : List (OperationStream P)) (start : Instant)
    (ratio : Binary64) (hproper : ∀ s ∈ streams, s.dependencies.Proper ∧ s.others.Proper)
    (hmap : timeMap streams start ratio = .ok mapped) :
    let time := mappedTime? streams start ratio
    List.Forall₂ (fun s s' : OperationStream P => s'.operationType = s.operationType ∧
      s.dependencies.IsPlaced time start s'.dependencies ∧
      s.others.IsPlaced time start s'.others) streams mapped ∧
    (∀ x ∈ concatenation streams, (∀ y ∈ concatenation streams, x.start ≤ y.start) →
      time x.start = some start ∧ ∀ t, time x.operation.dependencyTime = some t →
        ⟨x.operation.withTimes start t, x.tracked⟩ ∈ concatenation mapped) ∧
    ∀ e, .error e ∈ (merge mapped).toList → ∃ s ∈ Source.ofStreams mapped, ∃ w, w.IsOverflow ∧
      .error w ∈ s.rest.toList ∧ e = .streamConstruction (s.label ++ ": " ++ w.message) := by
  intro time
  have hplaced := forall₂_isPlaced hproper hmap
  refine ⟨hplaced, fun x hx hearliest => ?_, fun e he => overflow_of_error_mem_merge hplaced he⟩
  have hstart := mappedTime?_earliest hproper hmap hx hearliest
  exact ⟨hstart, fun t ht => mem_concatenation_of_isPlaced hplaced hx hstart ht⟩

/-- Three reads, of which the second depends on the first instant of all. -/
def deepStream : OperationStream Nat :=
  ⟨"read", .nil, .ofList [.ok (.independent "read" (.saturating 4) 0),
    .ok ((Operation.independent "read" (.saturating 8) 1).gatedOn .least),
    .ok (.independent "read" (.saturating 12) 2)]⟩

/-- At a quarter of their distances the first and the last read are placed, and the second one's
dependency time overflows. -/
theorem timeMap_isPlaced_deep :
    let start := Instant.saturating 10
    let mapped := [deepStream].map (movedStream quarter (.saturating 4) (.saturating 6))
    (∀ s ∈ [deepStream], s.dependencies.Proper ∧ s.others.Proper) ∧
    timeMap [deepStream] start quarter = .ok mapped ∧
    (∀ s ∈ mapped, deepStream.others.IsPlaced (mappedTime? [deepStream] start quarter) start
      s.others) ∧
    mapped.map (·.others.toList.map (·.toOption.map (·.scheduledStart.nanos))) =
      [[some 10, none, some 12]] ∧
    (merge mapped).toList.map (·.map (·.start.nanos)) = [.ok 10, .error (.streamConstruction
      ("read operations: " ++ (WorkloadError.stream
        "overflow compressing -9223372036854775808 around 4 by 0.25").message))] := by
  intro start mapped
  have hproper : ∀ s ∈ [deepStream], s.dependencies.Proper ∧ s.others.Proper := by
    intro s hs
    obtain rfl := List.mem_singleton.mp hs
    exact ⟨⟨by decide, by decide, by decide⟩, ⟨by decide, by decide, by decide⟩⟩
  have hmap : timeMap [deepStream] start quarter = .ok mapped :=
    timeMap_eq_ok.mpr ⟨⟨by decide +kernel, by decide +kernel⟩,
      .inr ⟨.saturating 4, .saturating 6, by decide +kernel, by decide +kernel, rfl⟩⟩
  obtain ⟨hplaced, -, -⟩ := timeMap_isPlaced [deepStream] mapped start quarter hproper hmap
  refine ⟨hproper, hmap, fun s hs => ?_, by decide +kernel, by decide +kernel⟩
  obtain ⟨s', hs', -, -, hothers⟩ := exists_of_mem_right hplaced hs
  rwa [List.mem_singleton.mp hs'] at hothers

/-! ## The beginning of a merge -/

/-- Operations of which the first one starts at an instant, and the others a duration after it. -/
structure BeginsAt (start : Instant) (ops : List (ScheduledOperation P)) : Prop where
  first : ∀ x, ops.head? = some x → x.start = start
  later : ∀ x ∈ ops, start ≤ x.start
  near : ∀ x ∈ ops, FitsNanos (x.start.nanos - start.nanos)

/-- So are the first ones among them. -/
theorem BeginsAt.front {start : Instant} {ops ops' : List (ScheduledOperation P)}
    (h : BeginsAt start ops) (hfront : ops' <+: ops) : BeginsAt start ops' where
  first x hx := by
    obtain ⟨rest, rfl⟩ := hfront
    refine h.first x ?_
    rw [List.head?_append, hx, Option.some_or]
  later x hx := h.later x (hfront.subset hx)
  near x hx := h.near x (hfront.subset hx)

section Mapping

variable {ratio : Binary64} {anchor start : Instant} {shift : Duration}

/-- A sequence that begins at the anchor has an operation at the chosen start after it has been
moved in time, unless it begins with a fault then. -/
theorem exists_offered_at_start (hratio : ratio.Positive)
    (hshift : start.since? anchor = some shift) {s : Source P}
    (hfirst : firstStart? s.rest = some anchor)
    (hgood : ∀ e,
      Source.pull { s with rest := movedSequence ratio anchor shift s.rest } ≠ .error e) :
    ∃ y ∈ Source.offered { s with rest := movedSequence ratio anchor shift s.rest },
      y.start = start := by
  cases hpull : Source.pull { s with rest := movedSequence ratio anchor shift s.rest } with
  | error e => exact absurd hpull (hgood e)
  | ok found =>
    cases found with
    | none =>
      have hnil : (movedSequence ratio anchor shift s.rest).toList = [] :=
        congrArg LazyList.toList (Source.pull_eq_none.mp hpull)
      cases hrest : s.rest with
      | nil => simp [hrest, firstStart?] at hfirst
      | cons item tail => simp [hrest, movedSequence, offset] at hnil
    | some next =>
      obtain ⟨op, s'⟩ := next
      obtain ⟨tail, hrest, -⟩ := Source.pull_eq_some.mp hpull
      have hop : firstStart? (movedSequence ratio anchor shift s.rest) = some op.scheduledStart :=
        congrArg firstStart? hrest
      obtain ⟨u, hu, hmoved⟩ := firstStart?_movedSequence hop
      obtain rfl := Option.some.inj (hfirst.symm.trans hu)
      refine ⟨⟨op, s'.tracked⟩, ?_, ?_⟩
      · rw [Source.offered_of_pull_some hpull]
        exact List.mem_cons_self
      · exact Option.some.inj (hmoved.symm.trans (movedTime?_anchor hratio hshift))

end Mapping

/-- What a merge gives after a time map begins at the chosen start. -/
theorem beginsAt_merge_timeMap {streams mapped : List (OperationStream P)} {start : Instant}
    {ratio : Binary64} (hmap : timeMap streams start ratio = .ok mapped) :
    BeginsAt start (merge mapped).operations := by
  have hlater : ∀ x ∈ (merge mapped).operations, start ≤ x.start :=
    fun x hx => le_of_mem_merge_timeMap hmap hx
  obtain ⟨hratio, ⟨hanchor, rfl⟩ | ⟨anchor, shift, hanchor, hshift, rfl⟩⟩ := timeMap_eq_ok.mp hmap
  · -- Without an anchor nothing comes out of the merge.
    have hnone : (merge mapped).operations = [] :=
      List.eq_nil_iff_forall_not_mem.mpr fun x hx => by
        obtain ⟨t, ht, -⟩ := exists_firstStart_le hx
        rw [firstStarts_of_anchor?_eq_none hanchor] at ht
        simp at ht
    rw [hnone]
    exact ⟨by simp, by simp, by simp⟩
  · obtain ⟨items, hitems⟩ :=
      Schedule.operations_prefix (merge (streams.map (movedStream ratio anchor shift)))
    refine ⟨fun x hx => le_antisymm ?_ (hlater x (List.mem_of_head? hx)), hlater, fun x hx => ?_⟩
    · -- The sequence with the anchor is not at fault, and nothing of it comes before `x`.
      obtain ⟨rest, hrest⟩ := List.head?_eq_some_iff.mp hx
      rw [hrest, List.map_cons, List.cons_append] at hitems
      obtain ⟨s, hs, hfirst⟩ := mem_firstStarts_iff_source.mp (anchor?_spec hanchor).1
      obtain ⟨hgood, hleast⟩ := merge_head hitems.symm (mem_ofStreams_movedStream.mpr ⟨s, hs, rfl⟩)
      obtain ⟨y, hy, hstart⟩ := exists_offered_at_start hratio hshift hfirst hgood
      exact hstart ▸ hleast y hy
    · have hmem := hitems ▸ List.mem_append_left items (List.mem_map_of_mem hx)
      obtain ⟨source, hsource, hoffered⟩ := exists_offered_of_mem_merge hmem
      obtain ⟨s, -, rfl⟩ := mem_ofStreams_movedStream.mp hsource
      obtain ⟨op', hop', rfl⟩ := List.mem_map.mp hoffered
      have hitem := Source.toList_rest _ ▸ List.mem_append_left _ (List.mem_map_of_mem hop')
      obtain ⟨op, -, t, u, ht, -, rfl⟩ | ⟨w, hw, -⟩ := mem_movedSequence hitem
      · exact fits_movedTime? hshift ht
      · simp at hw

end Stream

end WorkloadReplay
