import WorkloadReplay.Proofs.Stream.Cuts

/-!
# The merge of sorted sequences is a stable sort

Where the sequences of all streams are free of errors, in order of start and with good dependency
times (`OperationSequence.Proper`), all of a sequence comes before its first fault, for there is
none (`Source.Proper.offered`). So nothing cuts the merge, and it is the stable sort of the
concatenation of all sequences, `toList_merge`: the operations come out in order of start, and those
that start together come out as they stand in the concatenation.
-/

namespace WorkloadReplay

variable {P : Type}

/-! ## Sequences without faults -/

/-- The operations of a sequence, errors left out. -/
def OperationSequence.operations (q : OperationSequence P) : List (Operation P) :=
  q.toList.filterMap Except.toOption

/-- A sequence is free of errors and in order of start, and no operation depends on a time after its
start. -/
structure OperationSequence.Proper (q : OperationSequence P) : Prop where
  errorFree : ∀ item ∈ q.toList, item.isOk = true
  ordered : q.operations.Pairwise (·.scheduledStart ≤ ·.scheduledStart)
  dependencies : ∀ op ∈ q.operations, op.dependencyTime ≤ op.scheduledStart

namespace Source

/-- What a sequence adds to the merge. -/
def content (s : Source P) : List (ScheduledOperation P) := s.rest.operations.map (⟨·, s.tracked⟩)

/-- What is left of a sequence is proper, and no earlier than what has been taken. -/
structure Proper (s : Source P) : Prop where
  rest : s.rest.Proper
  later : ∀ op ∈ s.rest.operations, s.lastStart ≤ some op.scheduledStart

/-- A proper sequence has no fault, and so it adds all that it consists of to a merge. -/
theorem Proper.offered {s : Source P} (h : s.Proper) :
    s.offered = s.content ∧ s.defect? = none := by
  induction s using sound.induct with
  | case1 s op s' hpull ih =>
    obtain ⟨tail, hrest, rfl, -⟩ := pull_eq_some.mp hpull
    obtain ⟨⟨herror, hordered, hdep⟩, -⟩ := h
    have hops : s.rest.operations = op :: OperationSequence.operations (tail ()) := by
      rw [hrest]
      rfl
    rw [hops] at hordered hdep
    obtain ⟨hfirst, hordered⟩ := List.pairwise_cons.mp hordered
    have hproper : Source.Proper { s with lastStart := some op.scheduledStart, rest := tail () } :=
      ⟨⟨fun item hitem => herror item (hrest ▸ List.mem_cons_of_mem _ hitem), hordered,
        fun u hu => hdep u (List.mem_cons_of_mem op hu)⟩,
        fun u hu => Option.some_le_some.mpr (hfirst u hu)⟩
    obtain ⟨hoffered, hdefect⟩ := ih hproper
    rw [offered_of_pull_some hpull, defect?_of_pull_some hpull, hoffered]
    refine ⟨?_, hdefect⟩
    rw [content, content, hops, List.map_cons]
  | case2 s hpull =>
    rw [Source.offered, (sound_of_pull_none hpull).1, content, pull_eq_none.mp hpull]
    exact ⟨rfl, defect?_of_pull_none hpull⟩
  | case3 s e hpull =>
    -- The item at fault is neither an error nor an operation out of order.
    obtain ⟨item, tail, hrest, hfault⟩ := itemFault_of_pull hpull
    obtain ⟨⟨herror, -, hdep⟩, hlater⟩ := h
    have hok : item.isOk = true := herror item (hrest ▸ List.mem_cons_self)
    have hop : ∀ op, item = .ok op → op ∈ s.rest.operations := fun op hop => by
      rw [hrest, hop]
      exact List.mem_cons_self
    cases hfault with
    | breakdown text => simp [Except.isOk, Except.toBool] at hok
    | failure h => simp [Except.isOk, Except.toBool] at hok
    | @unordered op start hlast hlt =>
      have hle := hlater op (hop op rfl)
      rw [hlast, Option.some_le_some] at hle
      exact absurd hlt (not_lt.mpr hle)
    | @late op hlast hlt => exact absurd hlt (not_lt.mpr (hdep op (hop op rfl)))

end Source

/-! ## The merge of streams -/

/-- What comes before the first faults of all sequences, sorted by start so that ties keep their
order. -/
def offeredInOrder (streams : List (OperationStream P)) : List (ScheduledOperation P) :=
  ((Source.ofStreams streams).flatMap Source.offered).mergeSort
    (·.operation.scheduledStart ≤ ·.operation.scheduledStart)

/-- Without a fault in any sequence a merge gives all that the sequences hold, and otherwise some of
what comes before the faults, and then the error for one of them. -/
theorem merge_eq_cut (streams : List (OperationStream P)) :
    (∀ k, defectOf? streams k = none) ∧
        (merge streams).toList = (offeredInOrder streams).map .ok ∨
      ∃ m k e, defectOf? streams k = some e ∧
        (merge streams).toList = ((offeredInOrder streams).take m).map .ok ++ [.error e] := by
  have hsorted : (stableMerge (·.start) (offeredBy streams) (2 * streams.length)).map (·.2) =
      offeredInOrder streams := by
    rw [map_snd_stableMerge, ← (Source.ofStreams_spec streams).1]
    exact congrArg (List.mergeSort · _) (flatMap_range_getElem? _ _)
  rcases merge_cases streams with ⟨k, e, -, hdefect, -, hmerge⟩ | ⟨-, hyields⟩
  · exact .inr ⟨0, k, e, hdefect, hmerge⟩
  · generalize (merge streams).toList = items at hyields
    cases hyields with
    | all hnone =>
      refine .inl ⟨fun k => ?_, ?_⟩
      · by_contra hsome
        exact hsome (hnone k (lt_of_defectOf? (Option.isSome_iff_ne_none.mpr hsome)))
      · rw [← hsorted, List.map_map]
        rfl
    | @cut m i e _ hdefect =>
      refine .inr ⟨m, i, e, hdefect, ?_⟩
      rw [← hsorted, ← List.map_take, List.map_map]
      rfl

/-- The operations of streams, one sequence after another: those of each stream side by side, its
dependencies first, and these are the tracked ones. -/
def concatenation (streams : List (OperationStream P)) : List (ScheduledOperation P) :=
  streams.flatMap fun s =>
    s.dependencies.operations.map (⟨·, true⟩) ++ s.others.operations.map (⟨·, false⟩)

/-- The sources of streams hold the concatenation of the streams. -/
theorem flatMap_ofStreams (streams : List (OperationStream P)) :
    (Source.ofStreams streams).flatMap Source.content = concatenation streams := by
  induction streams with
  | nil => rfl
  | cons s ss ih =>
    have hcons : concatenation (s :: ss) = s.dependencies.operations.map (⟨·, true⟩) ++
        s.others.operations.map (⟨·, false⟩) ++ concatenation ss := List.flatMap_cons
    rw [Source.ofStreams, List.flatMap_cons, List.flatMap_cons, ih, hcons, List.append_assoc]
    rfl

/-- The sources of streams with proper sequences are proper. -/
theorem proper_ofStreams {streams : List (OperationStream P)}
    (h : ∀ s ∈ streams, s.dependencies.Proper ∧ s.others.Proper) :
    ∀ s ∈ Source.ofStreams streams, s.Proper := by
  intro source hsource
  obtain ⟨s, hs, rfl | rfl⟩ := Source.mem_ofStreams.mp hsource
  · exact ⟨(h s hs).1, fun _ _ => Option.none_le⟩
  · exact ⟨(h s hs).2, fun _ _ => Option.none_le⟩

/-- The merge of streams with proper sequences is the concatenation of all sequences, sorted by
start so that ties keep their order. -/
theorem toList_merge {streams : List (OperationStream P)}
    (h : ∀ s ∈ streams, s.dependencies.Proper ∧ s.others.Proper) :
    (merge streams).toList = ((concatenation streams).mergeSort
      (·.operation.scheduledStart ≤ ·.operation.scheduledStart)).map .ok := by
  have hproper := proper_ofStreams h
  have hoffered : (Source.ofStreams streams).flatMap Source.offered = concatenation streams := by
    rw [← flatMap_ofStreams]
    exact List.flatMap_congr fun s hs => (hproper s hs).offered.1
  rcases merge_eq_cut streams with ⟨-, hmerge⟩ | ⟨m, k, e, hdefect, -⟩
  · rw [hmerge, offeredInOrder, hoffered]
  · obtain ⟨s, hs, hsome⟩ := Option.bind_eq_some_iff.mp hdefect
    rw [(hproper s (List.mem_of_getElem? hs)).offered.2] at hsome
    simp at hsome

end WorkloadReplay
