import WorkloadReplay.Proofs.Stream.StableSort

/-!
# A merge without errors

A merge finds every fault of the sequences that it reads: an error in a sequence, an operation that
comes before the one that it follows, a dependency on a later time. A sequence without a fault is
proper (`Source.proper_of_defect?`), and a fault of any sequence ends the merge with an error, so
one that gives no error has read proper sequences (`proper_of_merge`); with `toList_merge` a merge
is free of errors exactly when the sequences are proper (`merge_errorFree_iff`).
-/

namespace WorkloadReplay

variable {P : Type}

/-- A sequence without an error. -/
def LazyList.ErrorFree {ε α : Type} (s : LazyList (Except ε α)) : Prop :=
  ∀ item ∈ s.toList, item.isOk = true

instance {ε α : Type} (s : LazyList (Except ε α)) : Decidable s.ErrorFree :=
  inferInstanceAs (Decidable (∀ item ∈ s.toList, item.isOk = true))

/-- A merged sequence without an error consists of its operations. -/
theorem Schedule.toList_of_errorFree {s : Schedule P} (h : s.ErrorFree) :
    s.toList = s.operations.map .ok := by
  unfold LazyList.ErrorFree at h
  induction s with
  | nil => rfl
  | cons item tail ih =>
    cases item with
    | error e => simpa [Except.isOk, Except.toBool] using h _ List.mem_cons_self
    | ok x =>
      have hrest := ih () fun item hitem => h item (List.mem_cons_of_mem _ hitem)
      rw [LazyList.toList_cons, hrest]
      rfl

/-- A sequence of a stream without an error consists of its operations. -/
theorem OperationSequence.toList_of_errorFree {q : OperationSequence P} (h : q.ErrorFree) :
    q.toList = q.operations.map .ok := by
  unfold LazyList.ErrorFree at h
  unfold operations
  generalize q.toList = items at h ⊢
  induction items with
  | nil => rfl
  | cons item items ih =>
    obtain ⟨hitem, hitems⟩ := List.forall_mem_cons.mp h
    cases item with
    | error e => simp [Except.isOk, Except.toBool] at hitem
    | ok op => exact congrArg (.ok op :: ·) (ih hitems)

/-- A sequence that consists of operations is free of errors, and these are its operations. -/
theorem Schedule.operations_of_toList {s : Schedule P} {ops : List (ScheduledOperation P)}
    (h : s.toList = ops.map .ok) : s.ErrorFree ∧ s.operations = ops := by
  have hfree : s.ErrorFree := by
    intro item hitem
    rw [h] at hitem
    obtain ⟨x, -, rfl⟩ := List.mem_map.mp hitem
    rfl
  have hinj : Function.Injective (Except.ok : _ → Except ReplayError (ScheduledOperation P)) :=
    fun _ _ => Except.ok.inj
  refine ⟨hfree, List.map_injective_iff.mpr hinj ?_⟩
  rw [← h, Schedule.toList_of_errorFree hfree]

/-- The operations of a sequence are at its front. -/
theorem Schedule.operations_prefix (s : Schedule P) : s.operations.map .ok <+: s.toList := by
  induction s with
  | nil => exact List.prefix_refl _
  | cons item tail ih =>
    cases item with
    | error e => exact List.nil_prefix
    | ok x => exact List.cons_prefix_cons.mpr ⟨rfl, ih ()⟩

/-- Operations at the front of a sequence are at the front of those before its first error. -/
theorem Schedule.prefix_operations {s : Schedule P} {xs : List (ScheduledOperation P)}
    {items : List (Except ReplayError (ScheduledOperation P))}
    (h : s.toList = xs.map .ok ++ items) : xs <+: s.operations := by
  induction xs generalizing s with
  | nil => exact List.nil_prefix
  | cons x xs ih =>
    cases s with
    | nil => simp at h
    | cons item tail =>
      rw [LazyList.toList_cons, List.map_cons, List.cons_append, List.cons.injEq] at h
      obtain ⟨rfl, hrest⟩ := h
      exact List.cons_prefix_cons.mpr ⟨rfl, ih hrest⟩

/-- The operations before the first error of a sequence are those at its front. -/
theorem Schedule.operations_of_toList_error {s : Schedule P} {xs : List (ScheduledOperation P)}
    {e : ReplayError} {items : List (Except ReplayError (ScheduledOperation P))}
    (h : s.toList = xs.map .ok ++ .error e :: items) : s.operations = xs := by
  induction xs generalizing s with
  | nil =>
    cases s with
    | nil => simp at h
    | cons item tail =>
      obtain ⟨rfl, -⟩ := List.cons.inj h
      rfl
  | cons x xs ih =>
    cases s with
    | nil => simp at h
    | cons item tail =>
      rw [LazyList.toList_cons, List.map_cons, List.cons_append, List.cons.injEq] at h
      obtain ⟨rfl, hrest⟩ := h
      exact congrArg (x :: ·) (ih hrest)

/-- A sequence without a fault is proper. -/
theorem Source.proper_of_defect? {s : Source P} (h : s.defect? = none) : s.Proper := by
  have hlist := toList_of_defect?_eq_none h
  have hops : s.rest.operations = s.sound := by
    unfold OperationSequence.operations
    rw [hlist, List.filterMap_map]
    exact List.filterMap_some
  obtain ⟨hordered, hlater, hdeps⟩ := s.sound_spec
  rw [← hops] at hordered hlater hdeps
  refine ⟨⟨fun item hitem => ?_, hordered, hdeps⟩, hlater⟩
  rw [hlist] at hitem
  obtain ⟨op, -, rfl⟩ := List.mem_map.mp hitem
  rfl

/-- A sequence whose operations are in order and depend on no later times is faulty only because of
an error of its own. -/
theorem Source.failure_of_defect? {s : Source P} {e : ReplayError} (hlast : s.lastStart = none)
    (hordered : s.rest.operations.Pairwise (·.scheduledStart ≤ ·.scheduledStart))
    (hdeps : ∀ op ∈ s.rest.operations, op.dependencyTime ≤ op.scheduledStart)
    (h : s.defect? = some e) : ∃ w, .error w ∈ s.rest.toList ∧
      ItemFault (P := P) s.label (s.sound.getLast?.map (·.scheduledStart)) (.error w) e := by
  obtain ⟨item, hitem, hfault⟩ := itemFault_of_defect? h
  rw [hlast, Option.or_none] at hfault
  have hmem : item ∈ s.rest.toList := List.mem_of_getElem? hitem
  cases item with
  | error w => exact ⟨w, hmem, hfault⟩
  | ok op =>
    -- The operation comes after the sound ones, in order like them.
    obtain ⟨rest, hops⟩ : ∃ rest, s.rest.operations = s.sound ++ op :: rest := by
      rw [s.toList_rest, List.getElem?_append_right (by simp), List.length_map, Nat.sub_self,
        ← List.head?_eq_getElem?] at hitem
      obtain ⟨items, hitems⟩ := List.head?_eq_some_iff.mp hitem
      refine ⟨items.filterMap Except.toOption, ?_⟩
      unfold OperationSequence.operations
      rw [s.toList_rest, hitems, List.filterMap_append, List.filterMap_map]
      exact congrArg (· ++ _) List.filterMap_some
    rw [hops] at hordered hdeps
    cases hfault with
    | @unordered op start hstart hlt =>
      obtain ⟨last, hlast, rfl⟩ := Option.map_eq_some_iff.mp hstart
      have hle := (List.pairwise_append.mp hordered).2.2 last (List.mem_of_getLast? hlast) op
        List.mem_cons_self
      exact absurd hlt (not_lt.mpr hle)
    | late hle hlt =>
      exact absurd hlt (not_lt.mpr (hdeps op (List.mem_append_right _ List.mem_cons_self)))

section Tails

variable {s : Source P} {ops : List (Operation P)}
  {items : List (Except WorkloadError (Operation P))}

/-- Where only errors follow operations that are in order and depend on no later times, these are
the operations before the first fault. -/
theorem Source.sound_of_toList (hlast : s.lastStart = none)
    (h : s.rest.toList = ops.map .ok ++ items) (hitems : ∀ item ∈ items, item.isOk = false)
    (hordered : ops.Pairwise (·.scheduledStart ≤ ·.scheduledStart))
    (hdeps : ∀ op ∈ ops, op.dependencyTime ≤ op.scheduledStart) : s.sound = ops := by
  have hsound := isSoundPart_sound hlast
  obtain ⟨more, hmore⟩ := hsound.longest ops ⟨items, h.symm⟩ hordered hdeps
  cases more with
  | nil => rw [← hmore, List.append_nil]
  | cons op more =>
    -- One more operation would be one of the errors.
    have hfront := hsound.front
    rw [h, ← hmore, List.map_append, List.prefix_append_right_inj] at hfront
    have herror := hitems (.ok op) (hfront.subset List.mem_cons_self)
    simp [Except.isOk, Except.toBool] at herror

/-- The first of the errors is the fault, if there is one. -/
theorem Source.defect?_of_toList (h : s.rest.toList = ops.map .ok ++ items)
    (hsound : s.sound = ops) : s.defect? = none ∧ items = [] ∨
      ∃ e item last, s.defect? = some e ∧ items.head? = some item ∧
        ItemFault (P := P) s.label last item e := by
  cases hdefect : s.defect? with
  | none =>
    have hall := toList_of_defect?_eq_none hdefect
    rw [h, hsound, List.append_right_eq_self] at hall
    exact .inl ⟨rfl, hall⟩
  | some e =>
    obtain ⟨item, hitem, hfault⟩ := itemFault_of_defect? hdefect
    rw [h, hsound, List.getElem?_append_right (by simp), List.length_map, Nat.sub_self,
      ← List.head?_eq_getElem?] at hitem
    exact .inr ⟨e, item, _, rfl, hitem, hfault⟩

end Tails

/-- The sources of streams are the sequences of the streams. -/
theorem Source.proper_of_ofStreams {streams : List (OperationStream P)}
    (h : ∀ s ∈ Source.ofStreams streams, s.Proper) :
    ∀ s ∈ streams, s.dependencies.Proper ∧ s.others.Proper := fun s hs =>
  ⟨(h _ (Source.mem_ofStreams.mpr ⟨s, hs, .inl rfl⟩)).rest,
    (h _ (Source.mem_ofStreams.mpr ⟨s, hs, .inr rfl⟩)).rest⟩

/-- A merge without errors has read proper sequences. -/
theorem proper_of_merge {streams : List (OperationStream P)} (h : (merge streams).ErrorFree) :
    ∀ s ∈ streams, s.dependencies.Proper ∧ s.others.Proper := by
  have herror : ∀ e, .error e ∉ (merge streams).toList := fun e he => by
    simpa [Except.isOk, Except.toBool] using h (.error e) he
  refine Source.proper_of_ofStreams fun source hsource => Source.proper_of_defect? ?_
  obtain ⟨k, hk, rfl⟩ := List.getElem_of_mem hsource
  -- A fault of any sequence would have ended the merge with an error.
  have hdefect : defectOf? streams k = none := by
    rcases merge_cases streams with ⟨j, e, -, -, -, hmerge⟩ | ⟨-, hyields⟩
    · rw [hmerge] at herror
      exact absurd List.mem_cons_self (herror e)
    · generalize (merge streams).toList = items at hyields herror
      cases hyields with
      | all hnone => exact hnone k ((Source.ofStreams_spec streams).1 ▸ hk)
      | @cut m i e _ _ => exact absurd (List.mem_append_right _ List.mem_cons_self) (herror e)
  unfold defectOf? at hdefect
  rwa [List.getElem?_eq_getElem hk] at hdefect

/-- A merge is free of errors exactly when all sequences are proper. -/
theorem merge_errorFree_iff {streams : List (OperationStream P)} :
    (merge streams).ErrorFree ↔ ∀ s ∈ streams, s.dependencies.Proper ∧ s.others.Proper :=
  ⟨proper_of_merge, fun h => (Schedule.operations_of_toList (toList_merge h)).1⟩

end WorkloadReplay
