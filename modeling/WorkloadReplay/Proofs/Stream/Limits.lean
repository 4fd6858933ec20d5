import WorkloadReplay.Proofs.Stream.Faults
import WorkloadReplay.Stream.Limit

/-!
# Limited sequences

What limits leave of a merged sequence is its front (`limit_prefix`), and so is what they leave of
its operations. Without a limit on the duration, it is as much of the sequence as the limit on the
number of operations allows (`toList_limit`). Without a limit on their number, it is those
operations that start within the duration of the first one (`operations_limit`).
-/

namespace WorkloadReplay

variable {P : Type} {l : Limits} {s : Schedule P}

/-- Limits cut a sequence at some place. -/
theorem Limits.cut_prefix (l : Limits) (count : Nat) (first : Option Instant) (s : Schedule P) :
    (l.cut count first s).toList <+: s.toList := by
  induction s generalizing count first with
  | nil => exact List.prefix_refl _
  | cons item tail ih =>
    cases item with
    | error e => exact List.cons_prefix_cons.mpr ⟨rfl, List.nil_prefix⟩
    | ok x =>
      unfold cut
      dsimp only
      split_ifs
      · exact List.nil_prefix
      · exact List.cons_prefix_cons.mpr ⟨rfl, List.nil_prefix⟩
      · exact List.cons_prefix_cons.mpr ⟨rfl, ih () _ _⟩

/-- What limits leave of a sequence is its front. -/
theorem limit_prefix (l : Limits) (s : Schedule P) : (limit l s).toList <+: s.toList := by
  unfold limit
  split_ifs
  · exact List.nil_prefix
  · exact l.cut_prefix 0 none s

/-- So the operations within limits are the first ones. -/
theorem limit_operations_prefix (l : Limits) (s : Schedule P) :
    (limit l s).operations <+: s.operations := by
  obtain ⟨items, hitems⟩ := Schedule.operations_prefix (limit l s)
  obtain ⟨more, hmore⟩ := limit_prefix l s
  have hfront : s.toList = (limit l s).operations.map .ok ++ (items ++ more) := by
    rw [← List.append_assoc, hitems, hmore]
  exact Schedule.prefix_operations hfront

/-- Without a limit on the duration, what is left of a sequence without errors after some of its
operations is as much as the limit on their number still allows. -/
theorem Limits.toList_cut {n : Nat} (hcount : l.operationCount = some n)
    (hduration : l.duration = none) (h : s.ErrorFree) {count : Nat} {first : Option Instant}
    (hlt : count < n) : (l.cut count first s).toList = s.toList.take (n - count) := by
  induction s generalizing count first with
  | nil => simp [cut]
  | cons item tail ih =>
    cases item with
    | error e => simpa [Except.isOk, Except.toBool] using h _ List.mem_cons_self
    | ok x =>
      have hlate : ∀ t, l.isLate t x.operation.scheduledStart = false := by
        simp [isLate, hduration]
      have hreached : l.isReached (count + 1) = decide (n ≤ count + 1) := by
        simp [isReached, hcount]
      unfold cut
      simp only [hlate, hreached, Bool.false_eq_true, if_false, decide_eq_true_eq,
        LazyList.toList_cons]
      split_ifs with hfull
      · -- This operation is the last one within the limit.
        obtain rfl : n = count + 1 := by omega
        simp
      · have hrest : LazyList.ErrorFree (tail ()) :=
          fun item hitem => h item (List.mem_cons_of_mem _ hitem)
        rw [ih () hrest (by omega), show n - count = n - (count + 1) + 1 by omega,
          List.take_succ_cons]

/-- Without a limit on the duration, as much is left of a sequence without errors as the limit on
the number of operations allows. -/
theorem toList_limit {n : Nat} (hcount : l.operationCount = some n) (hduration : l.duration = none)
    (h : s.ErrorFree) : (limit l s).toList = s.toList.take n := by
  unfold limit
  split_ifs with hreached
  · have hzero : n = 0 := by simpa [Limits.isReached, hcount] using hreached
    simp [hzero]
  · have hpos : 0 < n := by
      simp only [Limits.isReached, hcount, Option.any_some, decide_eq_true_eq] at hreached
      omega
    exact Limits.toList_cut hcount hduration h hpos

/-- Later than a late start is late. -/
theorem Limits.isLate_mono {t u v : Instant} (h : l.isLate t u = true) (hle : u ≤ v) :
    l.isLate t v = true := by
  unfold isLate at h ⊢
  cases hduration : l.duration with
  | none => simp [hduration] at h
  | some d =>
    simp only [hduration, Option.any_some, decide_eq_true_eq] at h ⊢
    exact lt_of_lt_of_le h hle

/-- Without a limit on the number of operations, what is left of a sequence in order is its
operations that are not late after the first one. -/
theorem Limits.operations_cut {t : Instant} (hcount : l.operationCount = none)
    (hordered : s.operations.Pairwise (·.start ≤ ·.start)) {first : Option Instant}
    (hfirst : ∀ x, s.operations.head? = some x → first.getD x.start = t) (count : Nat) :
    (l.cut count first s).operations = s.operations.filter (!l.isLate t ·.start) := by
  induction s generalizing first count with
  | nil => rfl
  | cons item tail ih =>
    cases item with
    | error e => rfl
    | ok x =>
      have hhead : first.getD x.operation.scheduledStart = t := hfirst x rfl
      obtain ⟨hnext, hrest⟩ := List.pairwise_cons.mp hordered
      have hreached : l.isReached (count + 1) = false := by simp [isReached, hcount]
      unfold cut
      simp only [hhead, hreached, Bool.false_eq_true, if_false]
      split_ifs with hlate
      · -- All that follow are late, too.
        have hall : ∀ y ∈ x :: Schedule.operations (tail ()), l.isLate t y.start = true :=
          List.forall_mem_cons.mpr ⟨hlate, fun y hy => isLate_mono hlate (hnext y hy)⟩
        exact (List.filter_eq_nil_iff.mpr fun y hy => by simp [hall y hy]).symm
      · have htail := ih () hrest (fun y _ => Option.getD_some ..) (count + 1)
        have hcons : (x :: Schedule.operations (tail ())).filter (!l.isLate t ·.start) =
            x :: (Schedule.operations (tail ())).filter (!l.isLate t ·.start) :=
          List.filter_cons_of_pos (by simpa using hlate)
        exact (congrArg (x :: ·) htail).trans hcons.symm

/-- Without a limit on the number of operations, the operations of a sequence in order are limited
to those that are not late after the first one. -/
theorem operations_limit {t : Instant} (hcount : l.operationCount = none)
    (hordered : s.operations.Pairwise (·.start ≤ ·.start))
    (hfirst : ∀ x, s.operations.head? = some x → x.start = t) :
    (limit l s).operations = s.operations.filter (!l.isLate t ·.start) := by
  have hreached : l.isReached 0 = false := by simp [Limits.isReached, hcount]
  unfold limit
  rw [hreached, if_neg Bool.false_ne_true]
  refine Limits.operations_cut hcount hordered ?_ 0
  exact hfirst

/-- So such a limit parts the operations of a sequence in order into those that are not late and
those that are. -/
theorem exists_late {t : Instant} (hcount : l.operationCount = none)
    (hordered : s.operations.Pairwise (·.start ≤ ·.start))
    (hfirst : ∀ x, s.operations.head? = some x → x.start = t) :
    ∃ late, s.operations = (limit l s).operations ++ late ∧
      (∀ x ∈ (limit l s).operations, l.isLate t x.start = false) ∧
      ∀ x ∈ late, l.isLate t x.start = true := by
  have hkept := operations_limit hcount hordered hfirst
  obtain ⟨late, hlate⟩ := limit_operations_prefix l s
  have hwithin : ∀ x ∈ (limit l s).operations, l.isLate t x.start = false := fun x hx => by
    rw [hkept] at hx
    simpa using (List.mem_filter.mp hx).2
  refine ⟨late, hlate.symm, hwithin, fun x hx => ?_⟩
  -- The filter that gives the front leaves nothing of the rest.
  rw [← hlate, List.filter_append, List.filter_eq_self.mpr fun y hy => by simp [hwithin y hy],
    List.self_eq_append_right, List.filter_eq_nil_iff] at hkept
  simpa using hkept x hx

/-- An instant is within a duration that does not go back, or else late. -/
theorem Limits.isLate_eq_false_iff {t u : Instant} {d : Duration} (hduration : l.duration = some d)
    (hd : 0 ≤ d.nanos) : l.isLate t u = false ↔ u.nanos - t.nanos ≤ d.nanos := by
  simp only [isLate, hduration, Option.any_some, decide_eq_false_iff_not, not_lt]
  unfold Instant.addOrGreatest Instant.add? Instant.ofNanos?
  split_ifs with hfits
  · rw [Option.getD_some, Instant.le_iff]
    dsimp only
    omega
  · -- The last instant is within a duration that leads beyond it.
    have hend : greatestNanos < t.nanos + d.nanos := by
      have := t.fits.1
      unfold FitsNanos at hfits
      omega
    have := u.fits.2
    rw [Option.getD_none, Instant.le_iff]
    change u.nanos ≤ greatestNanos ↔ _
    omega

/-- An instant that is not before the end of a duration is late unless it is that end. -/
theorem Limits.isLate_eq_false_iff_eq {t u : Instant} {d : Duration}
    (hduration : l.duration = some d) (hd : 0 ≤ d.nanos) (hle : d.nanos ≤ u.nanos - t.nanos) :
    l.isLate t u = false ↔ u = t.addOrGreatest d := by
  have hfits : FitsNanos (t.nanos + d.nanos) := by
    have := t.fits.1
    have := u.fits.2
    unfold FitsNanos
    omega
  have hend : t.addOrGreatest d ≤ u := by
    unfold Instant.addOrGreatest Instant.add? Instant.ofNanos?
    rw [dif_pos hfits, Option.getD_some, Instant.le_iff]
    dsimp only
    omega
  simp only [isLate, hduration, Option.any_some, decide_eq_false_iff_not, not_lt]
  exact ⟨fun h => le_antisymm h hend, fun h => h.le⟩

/-- Limits bring no errors into a sequence. -/
theorem limit_errorFree (h : s.ErrorFree) : (limit l s).ErrorFree := by
  have hfront := limit_prefix l s
  exact fun item hitem => h item (hfront.subset hitem)

end WorkloadReplay
