import Mathlib.Data.List.Forall2
import WorkloadReplay.Proofs.Stream.Faults
import WorkloadReplay.Proofs.Time.Scaling
import WorkloadReplay.Stream.TimeMap

/-!
# Moving streams in time

A time map sends every time to another one (`Stream.mappedTime?`), and never a later time to an
earlier one (`Stream.mappedTime?_mono`). The anchor goes to the chosen start, and no time after the
anchor to one before that start.

What becomes of a sequence is decided item by item (`Operation.IsPlaced`): an operation keeps its
place with its times taken through that function, or an error of an overflow stands in its place. So
operations that were in order stay in order, and still depend on no time after their starts.
-/

namespace WorkloadReplay

variable {P : Type}

/-! ## Times -/

/-- A time with its distance from the anchor multiplied by a ratio, and then moved. -/
def Stream.movedTime? (ratio : Binary64) (anchor : Instant) (shift : Duration) (time : Instant) :
    Option Instant :=
  (((time.since? anchor).bind (·.scale ratio)).bind anchor.add?).bind (·.add? shift)

/-- The time that a time map of streams gives for a time: its distance from the earliest first
operation is multiplied by the ratio, and that operation goes to `start`. -/
def Stream.mappedTime? (streams : List (OperationStream P)) (start : Instant) (ratio : Binary64)
    (time : Instant) : Option Instant :=
  (anchor? streams).bind fun anchor =>
    (start.since? anchor).bind fun shift => movedTime? ratio anchor shift time

/-- An instant that is a duration later has that many nanoseconds more. -/
theorem Instant.nanos_of_add? {t u : Instant} {d : Duration} (h : t.add? d = some u) :
    u.nanos = t.nanos + d.nanos := by
  unfold add? ofNanos? at h
  split at h
  · obtain rfl := Option.some.inj h
    rfl
  · simp at h

/-- The duration between two instants is the difference of their nanoseconds. -/
theorem Instant.nanos_of_since? {t u : Instant} {d : Duration} (h : t.since? u = some d) :
    d.nanos = t.nanos - u.nanos := by
  unfold since? Duration.ofNanos? at h
  split at h
  · obtain rfl := Option.some.inj h
    rfl
  · simp at h

namespace Stream

/-- What a time is moved to. -/
theorem movedTime?_eq_some {ratio : Binary64} {anchor t t' : Instant} {shift : Duration} :
    movedTime? ratio anchor shift t = some t' ↔ ∃ gap scaled u, t.since? anchor = some gap ∧
      gap.scale ratio = some scaled ∧ anchor.add? scaled = some u ∧ u.add? shift = some t' := by
  simp only [movedTime?, Option.bind_eq_some_iff]
  constructor
  · rintro ⟨u, ⟨scaled, ⟨gap, hgap, hscaled⟩, hu⟩, ht⟩
    exact ⟨gap, scaled, u, hgap, hscaled, hu, ht⟩
  · rintro ⟨gap, scaled, u, hgap, hscaled, hu, ht⟩
    exact ⟨u, ⟨scaled, ⟨gap, hgap, hscaled⟩, hu⟩, ht⟩

/-- A later time is not moved to an earlier one. -/
theorem movedTime?_mono {ratio : Binary64} (hratio : ratio.Positive)
    {anchor t₁ t₂ t₁' t₂' : Instant}
    {shift : Duration} (h₁ : movedTime? ratio anchor shift t₁ = some t₁')
    (h₂ : movedTime? ratio anchor shift t₂ = some t₂') (hle : t₁ ≤ t₂) : t₁' ≤ t₂' := by
  obtain ⟨gap₁, scaled₁, u₁, hgap₁, hscaled₁, hu₁, ht₁⟩ := movedTime?_eq_some.mp h₁
  obtain ⟨gap₂, scaled₂, u₂, hgap₂, hscaled₂, hu₂, ht₂⟩ := movedTime?_eq_some.mp h₂
  have hgap : gap₁ ≤ gap₂ := by
    rw [Duration.le_iff, Instant.nanos_of_since? hgap₁, Instant.nanos_of_since? hgap₂]
    rw [Instant.le_iff] at hle
    omega
  have hscaled := Duration.scale_mono hratio hgap hscaled₁ hscaled₂
  rw [Duration.le_iff] at hscaled
  rw [Instant.le_iff, Instant.nanos_of_add? ht₁, Instant.nanos_of_add? ht₂,
    Instant.nanos_of_add? hu₁, Instant.nanos_of_add? hu₂]
  omega

/-- A time map gives no later time an earlier one. -/
theorem mappedTime?_mono {streams : List (OperationStream P)} {ratio : Binary64}
    (hratio : ratio.Positive) {start t₁ t₂ t₁' t₂' : Instant}
    (h₁ : mappedTime? streams start ratio t₁ = some t₁')
    (h₂ : mappedTime? streams start ratio t₂ = some t₂') (hle : t₁ ≤ t₂) : t₁' ≤ t₂' := by
  simp only [mappedTime?, Option.bind_eq_some_iff] at h₁ h₂
  obtain ⟨anchor, hanchor, shift, hshift, h₁⟩ := h₁
  obtain ⟨anchor', hanchor', shift', hshift', h₂⟩ := h₂
  obtain rfl := Option.some.inj (hanchor.symm.trans hanchor')
  obtain rfl := Option.some.inj (hshift.symm.trans hshift')
  exact movedTime?_mono hratio h₁ h₂ hle

/-- The ratios that pass their check are the positive and finite ones. -/
theorem checkRatio_eq_ok {ratio : Binary64} : checkRatio ratio = .ok () ↔ ratio.Positive := by
  unfold checkRatio
  constructor
  · intro h
    split at h
    · rename_i hcheck
      rw [Bool.and_eq_true] at hcheck
      exact ⟨hcheck.1, hcheck.2⟩
    · simp at h
  · rintro ⟨hfinite, hpositive⟩
    rw [hfinite, hpositive]
    rfl

section Anchors

variable {ratio : Binary64} {anchor start t u : Instant} {shift : Duration}

/-- The anchor is moved to the start of which the shift is the distance. -/
theorem movedTime?_anchor (hratio : ratio.Positive)
    (hshift : start.since? anchor = some shift) :
    movedTime? ratio anchor shift anchor = some start := by
  have hgap : anchor.since? anchor = some Duration.zero := by
    unfold Instant.since?
    rw [Int.sub_self]
    rfl
  have hstay : anchor.add? Duration.zero = some anchor := by
    have hnanos : anchor.nanos + Duration.zero.nanos = anchor.nanos := Int.add_zero _
    unfold Instant.add? Instant.ofNanos?
    rw [hnanos, dif_pos anchor.fits]
  have hmove : anchor.add? shift = some start := by
    have hnanos : anchor.nanos + shift.nanos = start.nanos := by
      rw [Instant.nanos_of_since? hshift]
      omega
    unfold Instant.add? Instant.ofNanos?
    rw [hnanos, dif_pos start.fits]
  exact movedTime?_eq_some.mpr
    ⟨_, _, _, hgap, Duration.scale_zero hratio, hstay, hmove⟩

/-- A time that is not before the anchor is not moved to a time before the start to which the anchor
is moved. -/
theorem le_movedTime? (hratio : ratio.Positive)
    (hshift : start.since? anchor = some shift) (hle : anchor ≤ u)
    (h : movedTime? ratio anchor shift u = some t) : start ≤ t := by
  obtain ⟨gap, scaled, v, hgap, hscaled, hv, ht⟩ := movedTime?_eq_some.mp h
  have hnonneg : 0 ≤ scaled.nanos := by
    refine Duration.scale_nonneg hratio ?_ hscaled
    rw [Instant.nanos_of_since? hgap]
    rw [Instant.le_iff] at hle
    omega
  rw [Instant.le_iff, Instant.nanos_of_add? ht, Instant.nanos_of_add? hv,
    Instant.nanos_of_since? hshift]
  omega

/-- A time that is moved is a duration away from the start to which the anchor is moved. -/
theorem fits_movedTime? (hshift : start.since? anchor = some shift)
    (h : movedTime? ratio anchor shift u = some t) : FitsNanos (t.nanos - start.nanos) := by
  obtain ⟨gap, scaled, v, -, -, hv, ht⟩ := movedTime?_eq_some.mp h
  have hnanos : t.nanos - start.nanos = scaled.nanos := by
    rw [Instant.nanos_of_add? ht, Instant.nanos_of_add? hv, Instant.nanos_of_since? hshift]
    omega
  exact hnanos ▸ scaled.fits

end Anchors

end Stream

/-! ## Operations -/

/-- The error of a time that does not fit. -/
def WorkloadError.IsOverflow (w : WorkloadError) : Prop :=
  ∃ text, w = .stream ("overflow compressing " ++ text) ∨
    w = .stream ("overflow offsetting " ++ text)

namespace Stream

/-- An operation whose times are replaced. -/
theorem retime_eq_ok {f : Instant → Except WorkloadError Instant} {op op' : Operation P} :
    retime f op = .ok op' ↔ ∃ start dependency, f op.scheduledStart = .ok start ∧
      f op.dependencyTime = .ok dependency ∧ op' = op.withTimes start dependency := by
  unfold retime
  cases f op.scheduledStart with
  | error e => simp
  | ok start => cases f op.dependencyTime <;> simp [eq_comm]

/-- A time that is scaled from an anchor without an overflow. -/
theorem scaleFrom_eq_ok {anchor t u : Instant} {ratio : Binary64} :
    scaleFrom anchor ratio t = .ok u ↔
      ((t.since? anchor).bind (·.scale ratio)).bind anchor.add? = some u := by
  unfold scaleFrom
  cases ((t.since? anchor).bind (·.scale ratio)).bind anchor.add? <;> simp

/-- A time that is moved without an overflow. -/
theorem shiftBy_eq_ok {t u : Instant} {shift : Duration} :
    shiftBy shift t = .ok u ↔ t.add? shift = some u := by
  unfold shiftBy
  cases t.add? shift <;> simp

/-- A time that is not scaled overflows. -/
theorem scaleFrom_eq_error {anchor t : Instant} {ratio : Binary64} {w : WorkloadError}
    (h : scaleFrom anchor ratio t = .error w) :
    ((t.since? anchor).bind (·.scale ratio)).bind anchor.add? = none ∧ w.IsOverflow := by
  unfold scaleFrom at h
  cases hscaled : ((t.since? anchor).bind (·.scale ratio)).bind anchor.add? with
  | some u => simp [hscaled] at h
  | none =>
    rw [hscaled] at h
    obtain rfl := Except.error.inj h
    refine ⟨rfl, t.toText ++ " around " ++ anchor.toText ++ " by " ++ Decimal.toText ratio, .inl ?_⟩
    simp only [String.append_assoc]

/-- A time that is not moved overflows. -/
theorem shiftBy_eq_error {t : Instant} {shift : Duration} {w : WorkloadError}
    (h : shiftBy shift t = .error w) : t.add? shift = none ∧ w.IsOverflow := by
  unfold shiftBy at h
  cases hmoved : t.add? shift with
  | some u => simp [hmoved] at h
  | none =>
    rw [hmoved] at h
    obtain rfl := Except.error.inj h
    refine ⟨rfl, t.toText ++ " by " ++ shift.toText, .inr ?_⟩
    simp only [String.append_assoc]

/-- An operation whose times are not replaced has one that cannot be. -/
theorem retime_eq_error {f : Instant → Except WorkloadError Instant} {op : Operation P}
    {w : WorkloadError} (h : retime f op = .error w) :
    f op.scheduledStart = .error w ∨ f op.dependencyTime = .error w := by
  unfold retime at h
  cases hstart : f op.scheduledStart with
  | error e =>
    rw [hstart] at h
    exact .inl (by rw [Except.error.inj h])
  | ok start =>
    rw [hstart] at h
    cases hdependency : f op.dependencyTime with
    | error e =>
      rw [hdependency] at h
      exact .inr (by rw [Except.error.inj h])
    | ok dependency => simp [hdependency] at h

end Stream

/-- The operation `op'` is `op` with its times taken through `f`. -/
def Operation.IsMoved (f : Instant → Option Instant) (op op' : Operation P) : Prop :=
  ∃ start dependency, f op.scheduledStart = some start ∧ f op.dependencyTime = some dependency ∧
    op' = op.withTimes start dependency

/-- The scheduled operation `y` is `x` with its times taken through `f`: type, dependency mode and
payload are the same, and it is tracked if `x` is. -/
def ScheduledOperation.IsMoved (f : Instant → Option Instant) (x y : ScheduledOperation P) : Prop :=
  Operation.IsMoved f x.operation y.operation ∧ y.tracked = x.tracked

section Moving

variable {f : Instant → Option Instant}

/-- The operation with its times taken through `f`, where there is a result. -/
def Operation.moved (f : Instant → Option Instant) (op : Operation P) : Operation P :=
  op.withTimes ((f op.scheduledStart).getD op.scheduledStart)
    ((f op.dependencyTime).getD op.dependencyTime)

/-- The scheduled operation with its times taken through `f`, where there is a result. -/
def ScheduledOperation.moved (f : Instant → Option Instant) (x : ScheduledOperation P) :
    ScheduledOperation P := ⟨x.operation.moved f, x.tracked⟩

/-- Taking the times of an operation through `f` has one result. -/
theorem Operation.IsMoved.eq_moved {op op' : Operation P} (h : IsMoved f op op') :
    op' = op.moved f := by
  obtain ⟨start, dependency, hstart, hdependency, rfl⟩ := h
  unfold moved
  rw [hstart, hdependency, Option.getD_some, Option.getD_some]

end Moving

/-- An item is an operation with its times taken through `f`, or the error of an overflow where one
of the times has no result. -/
def Operation.IsPlaced (f : Instant → Option Instant) (op : Operation P) :
    Except WorkloadError (Operation P) → Prop
  | .ok op' => op.IsMoved f op'
  | .error w => w.IsOverflow ∧ (f op.scheduledStart = none ∨ f op.dependencyTime = none)

/-- What stands in the second of two lists that are related item by item is related to something in
the first. -/
theorem exists_of_mem_right {α β : Type} {R : α → β → Prop} {l : List α} {l' : List β}
    (h : List.Forall₂ R l l') {b : β} (hb : b ∈ l') : ∃ a ∈ l, R a b := by
  induction h with
  | nil => simp at hb
  | @cons a b' l l' hab _ ih =>
    rcases List.mem_cons.mp hb with rfl | hb
    · exact ⟨a, List.mem_cons_self, hab⟩
    · obtain ⟨a', ha', hab'⟩ := ih hb
      exact ⟨a', List.mem_cons_of_mem a ha', hab'⟩

section Placing

variable {f : Instant → Option Instant} {ops : List (Operation P)}
  {items : List (Except WorkloadError (Operation P))}

/-- An operation among what was placed is there in the place of one. -/
theorem exists_isMoved_of_isPlaced
    (h : List.Forall₂ (Operation.IsPlaced f) ops items) {op' : Operation P}
    (hop' : op' ∈ items.filterMap Except.toOption) : ∃ op ∈ ops, op.IsMoved f op' := by
  obtain ⟨item, hitem, htoOption⟩ := List.mem_filterMap.mp hop'
  obtain ⟨op, hop, hplaced⟩ := exists_of_mem_right h hitem
  cases item with
  | error w => simp [Except.toOption] at htoOption
  | ok placed =>
    obtain rfl := Option.some.inj htoOption
    exact ⟨op, hop, hplaced⟩

/-- Operations that are taken through a function that keeps the order of times stay in order. -/
theorem ordered_of_isPlaced
    (hmono : ∀ {t₁ t₂ t₁' t₂'}, f t₁ = some t₁' → f t₂ = some t₂' → t₁ ≤ t₂ → t₁' ≤ t₂')
    (h : List.Forall₂ (Operation.IsPlaced f) ops items)
    (hordered : ops.Pairwise (·.scheduledStart ≤ ·.scheduledStart)) :
    (items.filterMap Except.toOption).Pairwise (·.scheduledStart ≤ ·.scheduledStart) := by
  induction h with
  | nil => exact List.Pairwise.nil
  | @cons op item ops items hitem hitems ih =>
    obtain ⟨hfirst, hrest⟩ := List.pairwise_cons.mp hordered
    cases item with
    | error w => exact ih hrest
    | ok placed =>
      refine List.pairwise_cons.mpr ⟨fun op' hop' => ?_, ih hrest⟩
      obtain ⟨later, hlater, start', dependency', hstart', -, rfl⟩ :=
        exists_isMoved_of_isPlaced hitems hop'
      obtain ⟨start, dependency, hstart, -, rfl⟩ := hitem
      exact hmono hstart hstart' (hfirst later hlater)

/-- They still depend on no time after their starts. -/
theorem dependencies_of_isPlaced
    (hmono : ∀ {t₁ t₂ t₁' t₂'}, f t₁ = some t₁' → f t₂ = some t₂' → t₁ ≤ t₂ → t₁' ≤ t₂')
    (h : List.Forall₂ (Operation.IsPlaced f) ops items)
    (hdependencies : ∀ op ∈ ops, op.dependencyTime ≤ op.scheduledStart) :
    ∀ op ∈ items.filterMap Except.toOption, op.dependencyTime ≤ op.scheduledStart := by
  intro op' hop'
  obtain ⟨op, hop, start, dependency, hstart, hdependency, rfl⟩ := exists_isMoved_of_isPlaced h hop'
  exact hmono hdependency hstart (hdependencies op hop)

/-- Where no time overflows, the operations are moved one by one. -/
theorem operations_of_isPlaced (h : List.Forall₂ (Operation.IsPlaced f) ops items)
    (hfree : ∀ item ∈ items, item.isOk = true) :
    (∀ op ∈ ops, op.IsMoved f (op.moved f)) ∧
      items.filterMap Except.toOption = ops.map (Operation.moved f) := by
  induction h with
  | nil => exact ⟨by simp, rfl⟩
  | @cons op item ops items hitem _ ih =>
    obtain ⟨hok, hrest⟩ := List.forall_mem_cons.mp hfree
    obtain ⟨hmoved, hops⟩ := ih hrest
    cases item with
    | error w => simp [Except.isOk, Except.toBool] at hok
    | ok op' =>
      obtain rfl := Operation.IsMoved.eq_moved hitem
      exact ⟨List.forall_mem_cons.mpr ⟨hitem, hmoved⟩, congrArg (op.moved f :: ·) hops⟩

end Placing

/-! ## Sequences and streams -/

namespace Stream

section Mapping

variable {ratio : Binary64} {anchor : Instant} {shift : Duration}

/-- An operation whose times are scaled and then moved. -/
theorem isMoved_of_retimeItem {op op' : Operation P}
    (h : retimeItem (shiftBy shift) (retime (scaleFrom anchor ratio) op) = .ok op') :
    Operation.IsMoved (movedTime? ratio anchor shift) op op' := by
  cases hscaled : retime (scaleFrom anchor ratio) op with
  | error e =>
    rw [hscaled] at h
    simp [retimeItem] at h
  | ok scaled =>
    rw [hscaled] at h
    obtain ⟨start, dependency, hstart, hdependency, rfl⟩ := retime_eq_ok.mp hscaled
    obtain ⟨start', dependency', hstart', hdependency', rfl⟩ := retime_eq_ok.mp h
    refine ⟨start', dependency', ?_, ?_, rfl⟩
    · unfold movedTime?
      rw [scaleFrom_eq_ok.mp hstart]
      exact shiftBy_eq_ok.mp hstart'
    · unfold movedTime?
      rw [scaleFrom_eq_ok.mp hdependency]
      exact shiftBy_eq_ok.mp hdependency'

/-- What becomes of an operation whose times are scaled and then moved. -/
theorem isPlaced_retimeItem (op : Operation P) :
    op.IsPlaced (movedTime? ratio anchor shift)
      (retimeItem (shiftBy shift) (retime (scaleFrom anchor ratio) op)) := by
  cases hitem : retimeItem (shiftBy shift) (retime (scaleFrom anchor ratio) op) with
  | ok op' => exact isMoved_of_retimeItem hitem
  | error w =>
    -- A time that cannot be scaled cannot be moved either.
    have hscale : ∀ t, scaleFrom anchor ratio t = .error w →
        w.IsOverflow ∧ movedTime? ratio anchor shift t = none := fun t ht => by
      obtain ⟨hnone, hw⟩ := scaleFrom_eq_error ht
      exact ⟨hw, by rw [movedTime?, hnone, Option.bind_none]⟩
    have hshift : ∀ t u, scaleFrom anchor ratio t = .ok u → shiftBy shift u = .error w →
        w.IsOverflow ∧ movedTime? ratio anchor shift t = none := fun t u ht hu => by
      obtain ⟨hnone, hw⟩ := shiftBy_eq_error hu
      exact ⟨hw, by rw [movedTime?, scaleFrom_eq_ok.mp ht, Option.bind_some, hnone]⟩
    cases hscaled : retime (scaleFrom anchor ratio) op with
    | error w' =>
      rw [hscaled] at hitem
      obtain rfl := Except.error.inj hitem
      rcases retime_eq_error hscaled with h | h
      · exact ⟨(hscale _ h).1, .inl (hscale _ h).2⟩
      · exact ⟨(hscale _ h).1, .inr (hscale _ h).2⟩
    | ok scaled =>
      rw [hscaled] at hitem
      obtain ⟨start, dependency, hstart, hdependency, rfl⟩ := retime_eq_ok.mp hscaled
      rcases retime_eq_error hitem with h | h
      · exact ⟨(hshift _ _ hstart h).1, .inl (hshift _ _ hstart h).2⟩
      · exact ⟨(hshift _ _ hdependency h).1, .inr (hshift _ _ hdependency h).2⟩

/-- A sequence whose times are scaled and then moved. -/
def movedSequence (ratio : Binary64) (anchor : Instant) (shift : Duration)
    (q : OperationSequence P) : OperationSequence P :=
  offset shift (q.map (retimeItem (scaleFrom anchor ratio)))

/-- A stream both of whose sequences are scaled and then moved. -/
def movedStream (ratio : Binary64) (anchor : Instant) (shift : Duration) (s : OperationStream P) :
    OperationStream P :=
  ⟨s.operationType, movedSequence ratio anchor shift s.dependencies,
    movedSequence ratio anchor shift s.others⟩

/-- What becomes of a sequence without errors that is moved in time. -/
theorem items_movedSequence {q : OperationSequence P} (hq : q.ErrorFree) :
    List.Forall₂ (Operation.IsPlaced (movedTime? ratio anchor shift)) q.operations
      (movedSequence ratio anchor shift q).toList := by
  rw [movedSequence, offset, LazyList.toList_map, LazyList.toList_map,
    OperationSequence.toList_of_errorFree hq, List.map_map, List.map_map,
    List.forall₂_map_right_iff, List.forall₂_same]
  exact fun op _ => isPlaced_retimeItem op

/-- An item of a sequence that is moved in time is that of an operation, or an error that was there
before. -/
theorem mem_movedSequence {q : OperationSequence P} {item : Except WorkloadError (Operation P)}
    (h : item ∈ (movedSequence ratio anchor shift q).toList) :
    (∃ op, .ok op ∈ q.toList ∧ op.IsPlaced (movedTime? ratio anchor shift) item) ∨
      ∃ w, item = .error w ∧ .error w ∈ q.toList := by
  rw [movedSequence, offset, LazyList.toList_map, LazyList.toList_map, List.map_map] at h
  obtain ⟨item', hitem', rfl⟩ := List.mem_map.mp h
  cases item' with
  | error w => exact .inr ⟨w, rfl, hitem'⟩
  | ok op => exact .inl ⟨op, hitem', isPlaced_retimeItem op⟩

/-- A moved sequence begins with an operation only if the sequence does, and at the time to which
the start of that one is moved. -/
theorem firstStart?_movedSequence {q : OperationSequence P} {t : Instant}
    (h : firstStart? (movedSequence ratio anchor shift q) = some t) :
    ∃ u, firstStart? q = some u ∧ movedTime? ratio anchor shift u = some t := by
  cases q with
  | nil => simp [movedSequence, offset, firstStart?, LazyList.map] at h
  | cons item tail =>
    cases item with
    | error e => simp [movedSequence, offset, firstStart?, LazyList.map, retimeItem] at h
    | ok op =>
      have hhead : movedSequence ratio anchor shift (.cons (.ok op) tail) =
          .cons (retimeItem (shiftBy shift) (retime (scaleFrom anchor ratio) op))
            (fun _ => movedSequence ratio anchor shift (tail ())) := rfl
      rw [hhead] at h
      cases hop : retimeItem (shiftBy shift) (retime (scaleFrom anchor ratio) op) with
      | error e => simp [hop, firstStart?] at h
      | ok op' =>
        obtain ⟨start, dependency, hstart, -, rfl⟩ := isMoved_of_retimeItem hop
        rw [hop] at h
        obtain rfl := Option.some.inj h
        exact ⟨op.scheduledStart, rfl, hstart⟩

/-- The sequences of streams that are moved in time are those of the streams, moved. -/
theorem mem_ofStreams_movedStream {streams : List (OperationStream P)} {source : Source P} :
    source ∈ Source.ofStreams (streams.map (movedStream ratio anchor shift)) ↔
      ∃ s ∈ Source.ofStreams streams,
        source = { s with rest := movedSequence ratio anchor shift s.rest } := by
  simp only [Source.mem_ofStreams, List.mem_map]
  constructor
  · rintro ⟨_, ⟨s, hs, rfl⟩, rfl | rfl⟩
    · exact ⟨_, ⟨s, hs, .inl rfl⟩, rfl⟩
    · exact ⟨_, ⟨s, hs, .inr rfl⟩, rfl⟩
  · rintro ⟨_, ⟨s, hs, rfl | rfl⟩, rfl⟩
    · exact ⟨_, ⟨s, hs, rfl⟩, .inl rfl⟩
    · exact ⟨_, ⟨s, hs, rfl⟩, .inr rfl⟩

/-- A time map scales and moves every stream, unless there is no first operation at all. -/
theorem timeMap_eq_ok {streams mapped : List (OperationStream P)} {start : Instant} :
    timeMap streams start ratio = .ok mapped ↔ ratio.Positive ∧
      (anchor? streams = none ∧ mapped = streams ∨
        ∃ anchor shift, anchor? streams = some anchor ∧ start.since? anchor = some shift ∧
          mapped = streams.map (movedStream ratio anchor shift)) := by
  rw [← checkRatio_eq_ok]
  unfold timeMap
  cases hcheck : checkRatio ratio with
  | error e => simp [bind, Except.bind]
  | ok u =>
    have hstreams : ∀ anchor shift, streams.mapM (mapStream ratio anchor shift) =
        .ok (streams.map (movedStream ratio anchor shift)) := by
      intro anchor shift
      have hstream : mapStream (P := P) ratio anchor shift =
          fun s => .ok (movedStream ratio anchor shift s) := by
        funext s
        unfold mapStream compress
        rw [hcheck]
        rfl
      rw [hstream]
      exact List.mapM_pure
    cases hanchor : anchor? streams with
    | none => simp [bind, Except.bind, pure, Except.pure, eq_comm]
    | some anchor =>
      cases hshift : start.since? anchor with
      | none => simp [bind, Except.bind, hshift]
      | some shift => simp [bind, Except.bind, hshift, hstreams, eq_comm]

end Mapping

end Stream

end WorkloadReplay
