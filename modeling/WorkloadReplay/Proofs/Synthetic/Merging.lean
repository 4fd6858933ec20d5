import WorkloadReplay.Proofs.Stream.Faults
import WorkloadReplay.Proofs.Synthetic.Sequence
import WorkloadReplay.Synthetic.Workload

/-!
# The merge of the streams restores the synthetic sequence

Each kind of operation goes through the whole synthetic sequence and keeps its share of it. The
three shares together are the operations of the sequence (`filter_kinds_perm`), and these start at
increasing times, so there is only one order in which a merge can give them
(`offeredInOrder_streams`). Where no start overflows, the merge of the streams gives the operations
of the sequence, all of them and as they were drawn (`toList_merge_streams`).

Where one does, every share ends with the same error. The merge finds it in the share of one kind
when it has taken the last operation of that kind, and other operations of the sequence may not have
come out by then. So what it gives is a beginning of the sequence, and the error after it.
`merge_streams_restores` is about both cases.
-/

namespace WorkloadReplay

/-- An operation as the merge of the streams gives it: updates are tracked. -/
def SyntheticOperation.scheduled (x : SyntheticOperation) : ScheduledOperation KeyValuePayload :=
  ⟨x.operation, x.kind = .update⟩

/-- What the operations of a kind are called in messages. -/
def SyntheticKind.sourceLabel (kind : SyntheticKind) : String :=
  kind.operationType ++ if kind = .update then " dependencies" else " operations"

/-- Operations that are drawn in turn are the only ordered list that consists of them. -/
theorem SyntheticOperation.InTurn.eq_of_perm {c : SyntheticConfig} {time : Instant}
    {xs : List SyntheticOperation} (h : InTurn c time xs)
    {ys : List (ScheduledOperation KeyValuePayload)} (hperm : ys.Perm (xs.map (·.scheduled)))
    (hordered : ys.Pairwise (·.operation.scheduledStart ≤ ·.operation.scheduledStart)) :
    ys = xs.map (·.scheduled) := by
  have hnodup : ((xs.map (·.scheduled)).map (·.operation.scheduledStart)).Nodup := by
    rw [List.Nodup, List.pairwise_map, List.pairwise_map]
    exact h.increasing.imp fun hlt => hlt.ne
  have hincreasing : (xs.map (·.scheduled)).Pairwise
      (·.operation.scheduledStart ≤ ·.operation.scheduledStart) := by
    rw [List.pairwise_map]
    exact h.increasing.imp fun hlt => hlt.le
  refine List.Perm.eq_of_pairwise ?_ hordered hincreasing hperm
  -- Operations that start at the same time are the same one.
  intro a b ha hb hab hba
  exact List.inj_on_of_nodup_map hnodup (hperm.mem_iff.mp ha) hb (le_antisymm hab hba)

namespace SyntheticWorkload

variable {γ : Type} {random : RandomSource γ} {c : SyntheticConfig} {seed : Nat} {time : Instant}
  {xs : List SyntheticOperation} {items : List (Except WorkloadError SyntheticOperation)}

/-! ## The shares of the kinds -/

/-- The operations of a kind are those of the sequence that are of that kind, and then what all
kinds have a share in. -/
theorem toList_operationsOf (h : (syntheticSequence random c seed).toList = xs.map .ok ++ items)
    (kind : SyntheticKind) : (operationsOf random c seed kind).toList =
      ((xs.filter (·.kind = kind)).map (·.operation)).map .ok ++ items.filterMap (share kind) := by
  rw [operationsOf, LazyList.toList_filterMap, h, List.filterMap_append]
  refine congrArg (· ++ _) ?_
  clear h
  induction xs with
  | nil => rfl
  | cons x xs ih =>
    by_cases hkind : x.kind = kind <;> simp [share, hkind, ih]

/-- The sequence of a kind, before anything has been taken from it. -/
def sourceOf (random : RandomSource γ) (c : SyntheticConfig) (seed : Nat) (kind : SyntheticKind) :
    Source KeyValuePayload :=
  ⟨kind.sourceLabel, kind = .update, none, operationsOf random c seed kind⟩

/-- The sequences of the streams are those of the kinds and three without operations. -/
theorem mem_sources {s : Source KeyValuePayload}
    (h : s ∈ Source.ofStreams (streams random c seed)) :
    s.rest = .nil ∨ ∃ kind, s = sourceOf random c seed kind := by
  obtain ⟨stream, hstream, hs⟩ := Source.mem_ofStreams.mp h
  obtain ⟨kind, -, rfl⟩ := List.mem_map.mp hstream
  cases kind with
  | read =>
    rcases hs with rfl | rfl
    · exact .inl rfl
    · exact .inr ⟨.read, rfl⟩
  | update =>
    rcases hs with rfl | rfl
    · exact .inr ⟨.update, rfl⟩
    · exact .inl rfl
  | scan =>
    rcases hs with rfl | rfl
    · exact .inl rfl
    · exact .inr ⟨.scan, rfl⟩

/-- The operations before the fault of the sequence of a kind are those of that kind. -/
theorem sound_sourceOf (h : (syntheticSequence random c seed).toList = xs.map .ok ++ items)
    (hitems : ∀ item ∈ items, item.isOk = false) (hturn : SyntheticOperation.InTurn c time xs)
    (kind : SyntheticKind) : (sourceOf random c seed kind).sound =
      (xs.filter (·.kind = kind)).map (·.operation) := by
  refine Source.sound_of_toList rfl (toList_operationsOf h kind) ?_ ?_ ?_
  · -- Shares of errors are errors.
    intro item hitem
    obtain ⟨shared, hmem, hshare⟩ := List.mem_filterMap.mp hitem
    cases shared with
    | error e =>
      obtain rfl := Option.some.inj hshare
      rfl
    | ok x => simpa [Except.isOk, Except.toBool] using hitems (.ok x) hmem
  · rw [List.pairwise_map]
    exact (hturn.increasing.imp fun hlt => hlt.le).filter _
  · intro op hop
    obtain ⟨x, hx, rfl⟩ := List.mem_map.mp hop
    exact hturn.dependencies x (List.mem_filter.mp hx).1

/-- What a kind adds to the merge before its fault. -/
theorem offered_sourceOf (h : (syntheticSequence random c seed).toList = xs.map .ok ++ items)
    (hitems : ∀ item ∈ items, item.isOk = false) (hturn : SyntheticOperation.InTurn c time xs)
    (kind : SyntheticKind) : (sourceOf random c seed kind).offered =
      (xs.filter (·.kind = kind)).map (·.scheduled) := by
  rw [Source.offered, sound_sourceOf h hitems hturn, List.map_map]
  refine List.map_congr_left fun x hx => ?_
  obtain rfl := of_decide_eq_true (List.mem_filter.mp hx).2
  rfl

/-- A list is made up of the items of the three kinds. -/
theorem filter_kinds_perm (xs : List SyntheticOperation) :
    (xs.filter (·.kind = .read) ++ (xs.filter (·.kind = .update) ++
      xs.filter (·.kind = .scan))).Perm xs := by
  induction xs with
  | nil => exact List.Perm.refl _
  | cons x xs ih =>
    cases hkind : x.kind with
    | read => simpa [hkind] using ih
    | update =>
      simp only [List.filter_cons, hkind, reduceCtorEq, decide_false, decide_true, if_true,
        Bool.false_eq_true, if_false, List.cons_append]
      exact List.perm_middle.trans (ih.cons x)
    | scan =>
      simp only [List.filter_cons, hkind, reduceCtorEq, decide_false, decide_true, if_true,
        Bool.false_eq_true, if_false, ← List.append_assoc]
      rw [← List.append_assoc] at ih
      exact List.perm_middle.trans (ih.cons x)

/-- What all kinds add to the merge are the operations of the sequence. In order of start they are
the sequence again. -/
theorem offeredInOrder_streams
    (h : (syntheticSequence random c seed).toList = xs.map .ok ++ items)
    (hitems : ∀ item ∈ items, item.isOk = false) (hturn : SyntheticOperation.InTurn c time xs) :
    offeredInOrder (streams random c seed) = xs.map (·.scheduled) := by
  have hempty : ∀ label tracked, Source.offered
      (⟨label, tracked, none, .nil⟩ : Source KeyValuePayload) = [] := fun label tracked => by
    rw [Source.offered, (Source.sound_of_pull_none (Source.pull_eq_none.mpr rfl)).1, List.map_nil]
  have hshares : (Source.ofStreams (streams random c seed)).flatMap Source.offered =
      (sourceOf random c seed .read).offered ++ ((sourceOf random c seed .update).offered ++
        (sourceOf random c seed .scan).offered) := by
    have hsources : Source.ofStreams (streams random c seed) =
        [⟨"read" ++ " dependencies", true, none, .nil⟩, sourceOf random c seed .read,
          sourceOf random c seed .update, ⟨"update" ++ " operations", false, none, .nil⟩,
          ⟨"scan" ++ " dependencies", true, none, .nil⟩, sourceOf random c seed .scan] := rfl
    simp [hsources, hempty]
  have hperm : ((Source.ofStreams (streams random c seed)).flatMap Source.offered).Perm
      (xs.map (·.scheduled)) := by
    have hoffered := offered_sourceOf h hitems hturn
    rw [hshares, hoffered, hoffered, hoffered, ← List.map_append, ← List.map_append]
    exact (filter_kinds_perm xs).map _
  exact hturn.eq_of_perm ((List.mergeSort_perm _ _).trans hperm) (pairwise_mergeSort_key _)

/-- A fault that the merge of the streams finds is the error after the operations of the sequence,
in the share of some kind. -/
theorem fault_streams (h : (syntheticSequence random c seed).toList = xs.map .ok ++ items)
    (hitems : ∀ item ∈ items, item.isOk = false) (hturn : SyntheticOperation.InTurn c time xs)
    {k : Nat} {e : ReplayError} (hdefect : defectOf? (streams random c seed) k = some e) :
    ∃ kind item last, (items.filterMap (share kind)).head? = some item ∧
      Source.ItemFault kind.sourceLabel last item e := by
  obtain ⟨s, hs, hsome⟩ := Option.bind_eq_some_iff.mp hdefect
  -- The sequences without operations have no fault.
  rcases mem_sources (List.mem_of_getElem? hs) with hnil | ⟨kind, rfl⟩
  · rw [Source.defect?_of_pull_none (Source.pull_eq_none.mpr hnil)] at hsome
    simp at hsome
  · rcases Source.defect?_of_toList (toList_operationsOf h kind)
      (sound_sourceOf h hitems hturn kind) with ⟨hnone, -⟩ | ⟨e', item, last, he, hhead, hfault⟩
    · rw [hnone] at hsome
      simp at hsome
    · obtain rfl := Option.some.inj (he.symm.trans hsome)
      exact ⟨kind, item, last, hhead, hfault⟩

/-! ## The merge -/

/-- The merge of the streams restores a sequence without errors. -/
theorem toList_merge_streams (h : (syntheticSequence random c seed).toList = xs.map .ok)
    (hturn : SyntheticOperation.InTurn c time xs) :
    (merge (streams random c seed)).toList = (xs.map (·.scheduled)).map .ok := by
  have htoList : (syntheticSequence random c seed).toList = xs.map .ok ++ [] := by
    rw [h, List.append_nil]
  rcases merge_eq_cut (streams random c seed) with ⟨-, hmerge⟩ | ⟨m, k, e, hdefect, -⟩
  · rw [hmerge, offeredInOrder_streams htoList (by simp) hturn]
  · obtain ⟨kind, item, last, hhead, -⟩ := fault_streams htoList (by simp) hturn hdefect
    simp at hhead

/-- If the sequence ends with an error, the merge of the streams gives a beginning of the sequence
and then the error, which names a kind. -/
theorem toList_merge_streams_error {reason : String}
    (h : (syntheticSequence random c seed).toList = xs.map .ok ++ [.error (.stream reason)])
    (hturn : SyntheticOperation.InTurn c time xs) :
    ∃ (ys : List (ScheduledOperation KeyValuePayload)) (kind : SyntheticKind),
      ys <+: xs.map (·.scheduled) ∧ (merge (streams random c seed)).toList =
        ys.map .ok ++ [.error (.streamConstruction
          (kind.sourceLabel ++ ": " ++ (WorkloadError.stream reason).message))] := by
  have hitems : ∀ item ∈ [(.error (.stream reason) : Except WorkloadError SyntheticOperation)],
      item.isOk = false := by
    simp [Except.isOk, Except.toBool]
  rcases merge_eq_cut (streams random c seed) with ⟨hnone, -⟩ | ⟨m, k, e, hdefect, hmerge⟩
  · -- The sequence of the reads is one that ends with the error.
    have hread : (sourceOf random c seed .read).defect? = none := hnone 1
    rcases Source.defect?_of_toList (toList_operationsOf h .read)
      (sound_sourceOf h hitems hturn .read) with ⟨-, hall⟩ | ⟨e, -, -, he, -⟩
    · simp [share] at hall
    · rw [hread] at he
      simp at he
  · obtain ⟨kind, item, last, hhead, hfault⟩ := fault_streams h hitems hturn hdefect
    obtain rfl : .error (.stream reason) = item := Option.some.inj hhead
    rw [offeredInOrder_streams h hitems hturn] at hmerge
    cases hfault
    exact ⟨_, kind, List.take_prefix m _, hmerge⟩

/-- Whatever is drawn from any seed, the merge of the streams of a drawable configuration restores
the synthetic sequence. Its operations start at increasing times; each read or scan is gated on the
latest update before it if that is near enough, and everything else is independent. If no start
overflows, there are as many operations as the configuration says, and the merge gives them all in
their order, the updates tracked. If one does, the merge gives a beginning of them and one error. -/
theorem merge_streams_restores (hrandom : random.StaysInRange) (hc : c.Drawable) (seed : Nat) :
    ∃ xs : List SyntheticOperation,
      xs.Pairwise (·.operation.scheduledStart < ·.operation.scheduledStart) ∧
      (∀ x ∈ xs, x.operation.operationType = x.kind.operationType) ∧
      (∀ (i : Nat) (x : SyntheticOperation), xs[i]? = some x →
        x.operation.WaitsFor (x.awaited? c (SyntheticOperation.latestUpdate (xs.take i)))) ∧
      ((syntheticSequence random c seed).toList = xs.map .ok ∧ xs.length = c.operationCount ∧
          (merge (streams random c seed)).toList = (xs.map (·.scheduled)).map .ok ∨
        (syntheticSequence random c seed).toList =
            xs.map .ok ++ [.error (.stream "scheduled start overflows")] ∧
          xs.length < c.operationCount ∧ SyntheticOperation.RunOut c .epoch xs ∧
          ∃ (ys : List (ScheduledOperation KeyValuePayload)) (kind : SyntheticKind),
            ys <+: xs.map (·.scheduled) ∧ (merge (streams random c seed)).toList =
              ys.map .ok ++ [.error (.streamConstruction (kind.sourceLabel ++ ": " ++
                (WorkloadError.stream "scheduled start overflows").message))]) := by
  obtain ⟨xs, hturn, hchained, -, hends⟩ := SyntheticState.sequence_cases hrandom hc
    c.operationCount (SyntheticState.sound_ofSeed random seed)
  refine ⟨xs, hturn.increasing, hchained.named, fun i x hx => ?_, ?_⟩
  · have hwaits := hchained.waits i x hx
    rwa [SyntheticState.ofSeed, Option.or_none] at hwaits
  · rcases hends with ⟨htoList, hlength⟩ | ⟨htoList, hlength, hout⟩
    · exact .inl ⟨htoList, hlength, toList_merge_streams htoList hturn⟩
    · exact .inr ⟨htoList, hlength, hout, toList_merge_streams_error htoList hturn⟩

/-- Three operations, for two of which there is time. -/
def sparse : SyntheticConfig where
  operationCount := 3
  interval := ⟨greatestNanos / 2, by decide⟩

/-- The default configuration with the standard source has a thousand operations, and the merge
gives them all. With a configuration for whose last operation there is no time, it gives an error
after two operations at most. -/
theorem merge_streams_restores_standard :
    (∃ xs : List SyntheticOperation, xs.length = 1000 ∧
      (syntheticSequence RandomSource.standard {} 42).toList = xs.map .ok ∧
      (merge (streams RandomSource.standard {} 42)).toList = (xs.map (·.scheduled)).map .ok) ∧
    ∃ (ys : List (ScheduledOperation KeyValuePayload)) (e : ReplayError), ys.length ≤ 2 ∧
      (merge (streams RandomSource.standard sparse 42)).toList = ys.map .ok ++ [.error e] := by
  have hdefault : SyntheticConfig.Drawable {} :=
    ⟨SyntheticConfig.validate_eq_ok.mpr (by decide +kernel), by decide +kernel, by decide⟩
  have hsparse : SyntheticConfig.Drawable sparse :=
    ⟨SyntheticConfig.validate_eq_ok.mpr (by decide +kernel), by decide +kernel, by decide⟩
  constructor
  · obtain ⟨all, hall, -, -⟩ := exists_syntheticSequence RandomSource.standard_staysInRange
      ⟨hdefault.valid, hdefault.finite, hdefault.length, by decide⟩ 42
    obtain ⟨xs, -, -, -, ⟨htoList, hlength, hmerge⟩ | ⟨htoList, -⟩⟩ :=
      merge_streams_restores RandomSource.standard_staysInRange hdefault 42
    · exact ⟨xs, hlength, htoList, hmerge⟩
    · have herror : .error (.stream "scheduled start overflows") ∈
          (all.map .ok : List (Except WorkloadError SyntheticOperation)) := by
        rw [← hall, htoList]
        exact List.mem_append_right _ List.mem_cons_self
      simp at herror
  · have hfails :
        (syntheticSequence RandomSource.standard sparse 42).toList.all (·.isOk) = false := by
      decide +kernel
    obtain ⟨xs, -, -, -, ⟨htoList, -⟩ | ⟨-, hlength, -, ys, kind, hfront, hmerge⟩⟩ :=
      merge_streams_restores RandomSource.standard_staysInRange hsparse 42
    · rw [htoList] at hfails
      simp [Except.isOk, Except.toBool] at hfails
    · have hle := hfront.length_le
      rw [List.length_map] at hle
      exact ⟨ys, _, hle.trans (Nat.le_of_lt_succ hlength), hmerge⟩

/-- A single update, with a value of one character more than texts can have. -/
def endlessValues : SyntheticConfig where
  operationCount := 1
  readProportion := Binary64.zero false
  updateProportion := Binary64.ofNat 1
  scanProportion := Binary64.zero false
  valueLength := RandomSource.maxLength + 1

/-- It is valid, its proportions have a finite sum, and its start is in range, but the merge of its
streams breaks down with the update. -/
theorem merge_of_endlessValues :
    RandomSource.standard.StaysInRange ∧ endlessValues.validate = .ok () ∧
    (RandomSource.total endlessValues.weights).isFinite = true ∧
    endlessValues.operationCount * (endlessValues.interval.nanos + endlessValues.jitter.nanos) ≤
      greatestNanos ∧
    (merge (streams RandomSource.standard endlessValues 42)).toList =
      [.error (.panicked RandomSource.lengthText)] := by
  have hvalid : endlessValues.validate = .ok () :=
    SyntheticConfig.validate_eq_ok.mpr (by decide +kernel)
  exact ⟨RandomSource.standard_staysInRange, hvalid, by decide +kernel, by decide,
    by decide +kernel⟩

end SyntheticWorkload

end WorkloadReplay
