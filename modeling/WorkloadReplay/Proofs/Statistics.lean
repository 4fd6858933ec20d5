import Mathlib.Algebra.Order.BigOperators.Group.List
import Mathlib.Tactic.Linarith
import WorkloadReplay.Proofs.Entries
import WorkloadReplay.Proofs.Stream.Faults
import WorkloadReplay.Statistics

/-!
# Statistics of a workload are exact

The starts of an operation type are counted one by one, wherever its operations stand among those of
other types. `GapCount.Counts` says what has been counted of some starts: how many there are, the
first and the last of them, and the least, the greatest and the sum of the gaps between consecutive
ones. The sum of the gaps is the time from the first start to the last, so the mean is this time
divided by the number of gaps, and lies between the extremes. A gap is held at the ends of the range
of times, which it does not reach where a sequence in order of start is no longer than the greatest
duration; so of such a sequence `ofSchedule_exact` gives the statistics exactly.
-/

namespace WorkloadReplay

/-! ## Gaps -/

/-- The nanoseconds from each of some instants to the next. -/
def gaps : List Instant → List Int
  | a :: b :: rest => (b.nanos - a.nanos) :: gaps (b :: rest)
  | _ => []

/-- One more instant makes one more gap. -/
theorem gaps_append_singleton (front : List Instant) (last start : Instant) :
    gaps (front ++ [last] ++ [start]) = gaps (front ++ [last]) ++ [start.nanos - last.nanos] := by
  induction front with
  | nil => rfl
  | cons a front ih =>
    cases front with
    | nil => rfl
    | cons b front => exact congrArg ((b.nanos - a.nanos) :: ·) ih

/-- There is one gap fewer than there are instants. -/
theorem length_gaps (starts : List Instant) : (gaps starts).length = starts.length - 1 := by
  fun_induction gaps starts with
  | case1 a b rest ih =>
    rw [List.length_cons, ih]
    rfl
  | case2 starts h =>
    match starts with
    | [] => rfl
    | [a] => rfl
    | a :: b :: rest => exact absurd rfl (h a b rest)

/-- The gaps add up to the time from the first instant to the last. -/
theorem sum_gaps (front : List Instant) (first last : Instant) :
    (gaps (first :: (front ++ [last]))).sum = last.nanos - first.nanos := by
  induction front generalizing first with
  | nil => simp [gaps]
  | cons a front ih =>
    rw [List.cons_append, gaps, List.sum_cons, ih]
    omega

/-- The least number of a list with one more. -/
theorem min?_append_singleton (l : List Int) (n : Int) :
    (l ++ [n]).min? = some (l.min?.elim n (min · n)) := by
  cases l with
  | nil => rfl
  | cons m l =>
    rw [List.cons_append, List.min?_cons', List.min?_cons', List.foldl_append]
    rfl

/-- The greatest number of a list with one more. -/
theorem max?_append_singleton (l : List Int) (n : Int) :
    (l ++ [n]).max? = some (l.max?.elim n (max · n)) := by
  cases l with
  | nil => rfl
  | cons m l =>
    rw [List.cons_append, List.max?_cons', List.max?_cons', List.foldl_append]
    rfl

/-- A mean of numbers, rounded down, lies between the least and the greatest of them. -/
theorem mean_between {l : List Int} {least greatest : Int} (hleast : l.min? = some least)
    (hgreatest : l.max? = some greatest) :
    least ≤ l.sum / l.length ∧ l.sum / l.length ≤ greatest := by
  obtain ⟨hmem, hmin⟩ := List.min?_eq_some_iff.mp hleast
  obtain ⟨-, hmax⟩ := List.max?_eq_some_iff.mp hgreatest
  have hpos : (0 : Int) < l.length := by
    exact_mod_cast List.length_pos_of_mem hmem
  constructor
  · refine Int.le_ediv_of_mul_le hpos ?_
    simpa [Int.mul_comm] using List.card_nsmul_le_sum l least hmin
  · refine Int.ediv_le_of_le_mul hpos ?_
    simpa [Int.mul_comm] using List.sum_le_card_nsmul l greatest hmax

/-! ## The starts of a type -/

/-- What is said of the operations of a type is what there is to say of their starts. There are no
gaps below two operations; the mean of the gaps is rounded down, and lies between their extremes. -/
structure OperationStatistics.Describes (o : OperationStatistics) (starts : List Instant) :
    Prop where
  count : o.count = starts.length
  first : starts.head? = some o.firstStart
  last : starts.getLast? = some o.lastStart
  single : o.count = 1 → o.minGap = none ∧ o.meanGap = none ∧ o.maxGap = none
  several : 2 ≤ o.count → ∃ least mean greatest,
    o.minGap = some least ∧ o.meanGap = some mean ∧ o.maxGap = some greatest ∧
    (gaps starts).min? = some least.nanos ∧ (gaps starts).max? = some greatest.nanos ∧
    mean.nanos = (o.lastStart.nanos - o.firstStart.nanos) / (o.count - 1 : ℕ) ∧
    least ≤ mean ∧ mean ≤ greatest

namespace GapCount

/-- What is counted of a list of starts. -/
def ofStarts (starts : List Instant) : Option GapCount :=
  starts.foldl (fun held start => some (held.elim (single start) (·.push start))) none

/-- What has been counted of some starts, in the order in which they came. -/
structure Counts (g : GapCount) (starts : List Instant) : Prop where
  count : g.count = starts.length
  first : starts.head? = some g.first
  last : starts.getLast? = some g.last
  minGap : g.minGap.map (·.nanos) = (gaps starts).min?
  maxGap : g.maxGap.map (·.nanos) = (gaps starts).max?
  gapSum : g.gapSum = (gaps starts).sum

/-- One start has been counted. -/
theorem counts_single (start : Instant) : (single start).Counts [start] :=
  ⟨rfl, rfl, rfl, rfl, rfl, rfl⟩

/-- The shorter of two durations has the lesser number of nanoseconds. -/
theorem nanos_shorter (a b : Duration) : (shorter a b).nanos = min a.nanos b.nanos := by
  unfold shorter
  rw [min_def]
  exact apply_ite Duration.nanos _ _ _

/-- The longer of two durations has the greater number of nanoseconds. -/
theorem nanos_longer (a b : Duration) : (longer a b).nanos = max a.nanos b.nanos := by
  unfold longer
  rw [max_def]
  exact apply_ite Duration.nanos _ _ _

/-- One more start is counted, if the gap before it can be measured. -/
theorem Counts.push {g : GapCount} {starts : List Instant} (h : g.Counts starts) {start : Instant}
    (hfits : FitsNanos (start.nanos - g.last.nanos)) :
    (g.push start).Counts (starts ++ [start]) := by
  obtain ⟨front, hfront⟩ := List.getLast?_eq_some_iff.mp h.last
  have hgap : (gap g.last start).nanos = start.nanos - g.last.nanos := clampNanos_eq hfits
  have hgaps : gaps (starts ++ [start]) = gaps starts ++ [start.nanos - g.last.nanos] := by
    rw [hfront]
    exact gaps_append_singleton front g.last start
  refine ⟨?_, ?_, ?_, ?_, ?_, ?_⟩
  · rw [List.length_append, ← h.count]
    rfl
  · rw [List.head?_append, h.first]
    rfl
  · exact List.getLast?_concat
  · rw [hgaps, min?_append_singleton, ← h.minGap, ← hgap]
    cases hmin : g.minGap <;> simp [GapCount.push, hmin, nanos_shorter]
  · rw [hgaps, max?_append_singleton, ← h.maxGap, ← hgap]
    cases hmax : g.maxGap <;> simp [GapCount.push, hmax, nanos_longer]
  · rw [hgaps, List.sum_append, ← h.gapSum, List.sum_singleton, ← hgap]
    rfl

/-- Starts are counted if every gap between them can be measured. -/
theorem exists_counts {starts : List Instant} (hne : starts ≠ [])
    (hfits : starts.Pairwise fun a b => FitsNanos (b.nanos - a.nanos)) :
    ∃ g, ofStarts starts = some g ∧ g.Counts starts := by
  induction starts using List.reverseRecOn with
  | nil => exact absurd rfl hne
  | append_singleton front start ih =>
    obtain ⟨hfront, -, hbefore⟩ := List.pairwise_append.mp hfits
    have hlast : ofStarts (front ++ [start]) =
        some ((ofStarts front).elim (single start) (·.push start)) := by
      unfold ofStarts
      rw [List.foldl_append]
      rfl
    rw [hlast]
    rcases eq_or_ne front [] with rfl | hfull
    · exact ⟨_, rfl, counts_single start⟩
    · obtain ⟨g, hg, hcounts⟩ := ih hfull hfront
      have hmem : g.last ∈ front := List.mem_of_getLast? hcounts.last
      rw [hg]
      exact ⟨_, rfl, hcounts.push (hbefore _ hmem _ List.mem_cons_self)⟩

/-- The mean of the gaps is the sum of them divided by their number, if that is no time back and
fits. -/
theorem meanGap_eq {g : GapCount} (hcount : 2 ≤ g.count) (hnonneg : 0 ≤ g.gapSum)
    (hle : g.gapSum ≤ greatestNanos) :
    ∃ mean, g.meanGap = some mean ∧ mean.nanos = g.gapSum / (g.count - 1 : ℕ) := by
  have hmean : g.gapSum.tdiv (g.count - 1 : ℕ) = g.gapSum / (g.count - 1 : ℕ) :=
    Int.tdiv_eq_ediv_of_nonneg hnonneg
  have hlow : 0 ≤ g.gapSum / (g.count - 1 : ℕ) :=
    Int.ediv_nonneg hnonneg (Int.natCast_nonneg _)
  have hhigh : g.gapSum / (g.count - 1 : ℕ) ≤ g.gapSum := Int.ediv_le_self _ hnonneg
  have hfits : FitsNanos (g.gapSum / (g.count - 1 : ℕ)) :=
    ⟨le_trans (by decide) hlow, hhigh.trans hle⟩
  refine ⟨⟨_, hfits⟩, ?_, rfl⟩
  have hseveral : 1 < g.count := hcount
  unfold meanGap Duration.ofNanos?
  dsimp only
  rw [if_pos hseveral, hmean, dif_pos hfits, Option.getD_some]

/-- Of several starts that have been counted, the first one and the last one are apart. -/
theorem Counts.exists_middle {g : GapCount} {starts : List Instant} (h : g.Counts starts)
    (hcount : 2 ≤ g.count) : ∃ middle, starts = g.first :: (middle ++ [g.last]) := by
  obtain ⟨front, hfront⟩ := List.getLast?_eq_some_iff.mp h.last
  obtain ⟨rest, hrest⟩ := List.head?_eq_some_iff.mp h.first
  have hlength := h.count
  rw [hfront, List.length_append, List.length_singleton] at hlength
  obtain ⟨first, middle, rfl⟩ := List.exists_cons_of_length_pos (l := front) (by omega)
  rw [hfront, List.cons_append] at hrest
  obtain ⟨rfl, -⟩ := List.cons.inj hrest
  exact ⟨middle, hfront⟩

/-- Between several starts there are a least and a greatest gap. -/
theorem Counts.exists_extremes {g : GapCount} {starts : List Instant} (h : g.Counts starts)
    (hcount : 2 ≤ g.count) : ∃ least greatest, g.minGap = some least ∧ g.maxGap = some greatest ∧
      (gaps starts).min? = some least.nanos ∧ (gaps starts).max? = some greatest.nanos := by
  have hlength : (gaps starts).length = g.count - 1 := by rw [length_gaps, h.count]
  have hne : gaps starts ≠ [] := List.ne_nil_of_length_pos (by omega)
  obtain ⟨least, hleast⟩ : ∃ least, g.minGap = some least := by
    rw [← Option.isSome_iff_exists, ← Option.isSome_map, h.minGap]
    exact List.isSome_min?_of_ne_nil hne
  obtain ⟨greatest, hgreatest⟩ : ∃ greatest, g.maxGap = some greatest := by
    rw [← Option.isSome_iff_exists, ← Option.isSome_map, h.maxGap]
    exact List.isSome_max?_of_ne_nil hne
  refine ⟨least, greatest, hleast, hgreatest, ?_, ?_⟩
  · rw [← h.minGap, hleast]
    rfl
  · rw [← h.maxGap, hgreatest]
    rfl

/-- No gap has been counted if there is one start. -/
theorem Counts.no_gaps {g : GapCount} {starts : List Instant} (h : g.Counts starts)
    (hcount : g.count = 1) : g.minGap = none ∧ g.meanGap = none ∧ g.maxGap = none := by
  have hnone : gaps starts = [] := by
    rw [← List.length_eq_zero_iff, length_gaps, ← h.count, hcount]
  have hmin := h.minGap
  have hmax := h.maxGap
  rw [hnone] at hmin hmax
  exact ⟨Option.map_eq_none_iff.mp hmin, if_neg (by omega), Option.map_eq_none_iff.mp hmax⟩

/-- What is said of a type is what there is to say of its starts, where they come in order and the
time between any two of them can be measured. -/
theorem Counts.finish {g : GapCount} {starts : List Instant} (h : g.Counts starts)
    (hordered : starts.Pairwise (· ≤ ·))
    (hfits : starts.Pairwise fun a b => FitsNanos (b.nanos - a.nanos)) (operationType : String) :
    (g.finish operationType).Describes starts := by
  refine ⟨h.count, h.first, h.last, h.no_gaps, fun hcount => ?_⟩
  change 2 ≤ g.count at hcount
  obtain ⟨middle, hmiddle⟩ := h.exists_middle hcount
  obtain ⟨least, greatest, hleast, hgreatest, hmin, hmax⟩ := h.exists_extremes hcount
  have hsum : g.gapSum = g.last.nanos - g.first.nanos := by
    rw [h.gapSum, hmiddle, sum_gaps]
  have hmem : g.last ∈ middle ++ [g.last] := List.mem_append_right _ List.mem_cons_self
  rw [hmiddle] at hordered hfits
  have hle : g.first ≤ g.last := (List.pairwise_cons.mp hordered).1 _ hmem
  have hspan : FitsNanos (g.last.nanos - g.first.nanos) := (List.pairwise_cons.mp hfits).1 _ hmem
  have hnonneg : 0 ≤ g.gapSum := by
    rw [hsum]
    exact sub_nonneg.mpr hle
  obtain ⟨mean, hmean, hnanos⟩ := meanGap_eq hcount hnonneg (hsum ▸ hspan.2)
  -- The mean that is kept is that of the gaps, so it lies between them.
  have hbetween := mean_between hmin hmax
  rw [length_gaps, ← h.count, ← h.gapSum, ← hnanos] at hbetween
  exact ⟨least, mean, greatest, hleast, hmean, hgreatest, hmin, hmax, hsum ▸ hnanos, hbetween⟩

end GapCount

/-! ## All operations -/

namespace WorkloadStatistics

variable {P : Type}

/-- The starts of the operations of a type, in the order in which they come. -/
def startsOf (operationType : String) (ops : List (ScheduledOperation P)) : List Instant :=
  (ops.filter (·.operation.operationType = operationType)).map (·.start)

/-- A start is counted in the entry of its type. -/
theorem countType_eq_put (operationType : String) (start : Instant)
    (l : List (String × GapCount)) :
    countType operationType start l =
      Entries.put operationType (.single start) (·.push start) l := by
  induction l with
  | nil => rfl
  | cons y rest ih =>
    obtain ⟨s, g⟩ := y
    unfold countType Entries.put
    rw [ih]

/-- What is counted of each type. -/
def countTypes (ops : List (ScheduledOperation P)) : List (String × GapCount) :=
  Entries.putAll (·.operation.operationType) (.single ·.start) (fun s g => g.push s.start) ops

/-- What is counted of operations one after another. -/
theorem foldl_add (ops : List (ScheduledOperation P)) :
    ops.foldl Tally.add Tally.empty =
      { total := ops.length
        first := (ops.map (·.start)).head?
        last := (ops.map (·.start)).getLast?
        dependencies := ops.countP (·.tracked)
        gated := ops.countP (·.operation.isGated)
        byType := countTypes ops } := by
  induction ops using List.reverseRecOn with
  | nil => rfl
  | append_singleton ops s ih =>
    have hfirst : ((ops ++ [s]).map (·.start)).head? =
        some ((ops.map (·.start)).head?.getD s.start) := by
      cases ops <;> rfl
    have hcount (p : ScheduledOperation P → Bool) :
        (ops ++ [s]).countP p = if p s = true then ops.countP p + 1 else ops.countP p := by
      rw [List.countP_append, List.countP_singleton]
      split_ifs <;> rfl
    have htypes : countTypes (ops ++ [s]) =
        countType s.operation.operationType s.start (countTypes ops) := by
      rw [countType_eq_put]
      exact Entries.putAll_append_singleton ops s
    rw [List.foldl_append, ih, List.foldl_cons, List.foldl_nil, hfirst, hcount, hcount, htypes]
    simp [Tally.add]

/-- A sequence without an error is counted to its end. -/
theorem tally_eq_ok {s : Schedule P} (h : s.ErrorFree) (t : Tally) :
    tally t s = .ok (s.operations.foldl Tally.add t) := by
  unfold LazyList.ErrorFree at h
  induction s generalizing t with
  | nil => rfl
  | cons item tail ih =>
    cases item with
    | error e => simpa [Except.isOk, Except.toBool] using h _ List.mem_cons_self
    | ok x => exact ih () (fun item hitem => h item (List.mem_cons_of_mem _ hitem)) (t.add x)

/-- Between two starts of a sequence in order there is no more time than between the first of all
and the last. -/
theorem fits_of_span {starts : List Instant} (hordered : starts.Pairwise (· ≤ ·))
    (hspan : ∀ first ∈ starts.head?, ∀ last ∈ starts.getLast?,
      last.nanos - first.nanos ≤ greatestNanos) :
    starts.Pairwise fun a b => FitsNanos (b.nanos - a.nanos) := by
  refine hordered.imp_of_mem fun {a b} ha hb hab => ?_
  have hne : starts ≠ [] := List.ne_nil_of_mem ha
  have hfirst : starts.head hne ≤ a := hordered.rel_head ha
  have hlast : b ≤ starts.getLast hne := hordered.rel_getLast hb
  have hle := hspan _ (List.head?_eq_some_head hne) _ (List.getLast?_eq_some_getLast hne)
  rw [Instant.le_iff] at hab hfirst hlast
  unfold FitsNanos leastNanos
  omega

/-- The entry of a type is what is counted of its starts. -/
theorem counts_of_mem_countTypes {ops : List (ScheduledOperation P)}
    (hfits : (ops.map (·.start)).Pairwise fun a b => FitsNanos (b.nanos - a.nanos))
    {x : String × GapCount} (hx : x ∈ countTypes ops) : x.2.Counts (startsOf x.1 ops) := by
  have hget : Entries.get? x.1 (countTypes ops) = some x.2 :=
    (Entries.inOrder_putAll ops).get?_eq_some_iff.mpr hx
  have hstarts : GapCount.ofStarts (startsOf x.1 ops) = some x.2 := by
    rw [← hget, countTypes, Entries.get?_putAll]
    exact List.foldl_map
  have hne : startsOf x.1 ops ≠ [] := by
    intro hnil
    rw [hnil] at hstarts
    exact absurd hstarts (by simp [GapCount.ofStarts])
  obtain ⟨g, hg, hcounts⟩ :=
    GapCount.exists_counts hne (hfits.sublist (List.filter_sublist.map _))
  exact Option.some.inj (hstarts.symm.trans hg) ▸ hcounts

/-- The time from the first start to the last, if it can be measured. -/
theorem duration_finish {t : Tally} {first last : Instant} (hfirst : t.first = some first)
    (hlast : t.last = some last) (hfits : FitsNanos (last.nanos - first.nanos)) :
    t.finish.duration.nanos = last.nanos - first.nanos := by
  unfold Tally.finish Instant.since? Duration.ofNanos?
  simp only [hfirst, hlast, dif_pos hfits, Option.getD_some]

/-- The types of the statistics are those that have been counted. -/
theorem operationTypes_finish (t : Tally) :
    t.finish.operations.map (·.operationType) = t.byType.map (·.1) := by
  unfold Tally.finish
  rw [List.map_map]
  rfl

/-- So are the numbers of their operations. -/
theorem counts_finish (t : Tally) :
    t.finish.operations.map (·.count) = t.byType.map (·.2.count) := by
  unfold Tally.finish
  rw [List.map_map]
  rfl

/-- The statistics of a sequence without errors and in order of start are exact, if there is less
than `2 ^ 63` nanoseconds from its first start to its last: the number of all operations, of those
that others depend on and of those that are gated, the first and the last start and the time between
them. There is one entry for each operation type, in the order of the types, and their counts add up
to the number of operations; and each entry says what there is to say of the starts of its type. -/
theorem ofSchedule_exact {s : Schedule P} (hfree : s.ErrorFree)
    (hordered : (s.operations.map (·.start)).Pairwise (· ≤ ·))
    (hspan : ∀ first ∈ (s.operations.map (·.start)).head?,
      ∀ last ∈ (s.operations.map (·.start)).getLast?, last.nanos - first.nanos < 2 ^ 63) :
    ∃ stats, ofSchedule s = .ok stats ∧
      stats.totalCount = s.operations.length ∧
      stats.dependencyCount = s.operations.countP (·.tracked) ∧
      stats.gatedCount = s.operations.countP (·.operation.isGated) ∧
      stats.firstStart = (s.operations.map (·.start)).head? ∧
      stats.lastStart = (s.operations.map (·.start)).getLast? ∧
      (∀ first ∈ stats.firstStart, ∀ last ∈ stats.lastStart,
        stats.duration.nanos = last.nanos - first.nanos) ∧
      (stats.operations.map (·.operationType)).Pairwise (· < ·) ∧
      (∀ t, t ∈ stats.operations.map (·.operationType) ↔
        ∃ x ∈ s.operations, x.operation.operationType = t) ∧
      (stats.operations.map (·.count)).sum = stats.totalCount ∧
      ∀ o ∈ stats.operations, o.Describes (startsOf o.operationType s.operations) := by
  have hresult : ofSchedule s = .ok (s.operations.foldl Tally.add Tally.empty).finish := by
    unfold ofSchedule
    rw [tally_eq_ok hfree]
    rfl
  rw [foldl_add] at hresult
  generalize s.operations = ops at hordered hspan hresult ⊢
  have hgreatest : ∀ first ∈ (ops.map (·.start)).head?, ∀ last ∈ (ops.map (·.start)).getLast?,
      last.nanos - first.nanos ≤ greatestNanos := fun first hfirst last hlast => by
    have := hspan first hfirst last hlast
    unfold greatestNanos
    omega
  have hfits := fits_of_span hordered hgreatest
  refine ⟨_, hresult, rfl, rfl, rfl, rfl, rfl, fun first hfirst last hlast => ?_, ?_, fun t => ?_,
    ?_, fun o ho => ?_⟩
  · refine duration_finish hfirst hlast ⟨?_, hgreatest first hfirst last hlast⟩
    have hmem : first ∈ ops.map (·.start) := List.mem_of_mem_head? hfirst
    have hle := hordered.rel_getLast hmem
    rw [List.getLast?_eq_some_getLast (List.ne_nil_of_mem hmem)] at hlast
    rw [Option.mem_some.mp hlast, Instant.le_iff] at hle
    unfold leastNanos
    omega
  · rw [operationTypes_finish]
    exact List.pairwise_map.mpr (Entries.inOrder_putAll ops)
  · rw [operationTypes_finish]
    exact Entries.mem_keys_putAll ops
  · have hone : ∀ x : ScheduledOperation P, (GapCount.single x.start).count = 1 := fun _ => rfl
    rw [counts_finish]
    refine (Entries.sum_putAll (fun _ _ => rfl) hone ops).trans ?_
    simp [Tally.finish]
  · obtain ⟨x, hx, rfl⟩ := List.mem_map.mp ho
    have hstarts : (startsOf x.1 ops).Sublist (ops.map (·.start)) := List.filter_sublist.map _
    exact (counts_of_mem_countTypes hfits hx).finish (hordered.sublist hstarts)
      (hfits.sublist hstarts) x.1

/-- Three updates with two gated reads between them. -/
def interleavedUpdates : Schedule Unit :=
  .ofList ([("update", 0), ("read", 10), ("update", 20), ("read", 40), ("update", 51)].map
    fun (operationType, n) =>
      let op := Operation.independent operationType (.saturating n) ()
      if operationType = "update" then .ok ⟨op, true⟩ else .ok ⟨op.gatedOn (.saturating 0), false⟩)

/-- The mean of their gaps, of 20 and 31 nanoseconds, is rounded down. -/
theorem ofSchedule_exact_interleavedUpdates :
    interleavedUpdates.ErrorFree ∧
    (interleavedUpdates.operations.map (·.start)).Pairwise (· ≤ ·) ∧
    ∃ stats, ofSchedule interleavedUpdates = .ok stats ∧
      stats.totalCount = 5 ∧ stats.dependencyCount = 3 ∧ stats.gatedCount = 2 ∧
      ∃ o ∈ stats.operations, o.operationType = "update" ∧ o.count = 3 ∧
        o.Describes [.saturating 0, .saturating 20, .saturating 51] ∧
        o.meanGap = some (.saturating 25) := by
  have hfree : interleavedUpdates.ErrorFree := by decide
  have hordered : (interleavedUpdates.operations.map (·.start)).Pairwise (· ≤ ·) := by decide
  obtain ⟨stats, hstats, htotal, hdependencies, hgated, -, -, -, -, htypes, -, hdescribes⟩ :=
    ofSchedule_exact hfree hordered (by decide)
  obtain ⟨o, ho, htype⟩ := List.mem_map.mp ((htypes "update").mpr (by decide))
  have hstarts : startsOf "update" interleavedUpdates.operations =
      [.saturating 0, .saturating 20, .saturating 51] := by decide
  have hupdate : o.Describes [.saturating 0, .saturating 20, .saturating 51] := by
    rw [← hstarts, ← htype]
    exact hdescribes o ho
  have hcount : o.count = 3 := hupdate.count
  obtain ⟨least, mean, greatest, -, hmean, -, -, -, hnanos, -⟩ := hupdate.several (by omega)
  have hfirst := Option.some.inj hupdate.first
  have hlast := Option.some.inj hupdate.last
  rw [← hfirst, ← hlast, hcount] at hnanos
  refine ⟨hfree, hordered, stats, hstats, htotal, hdependencies, hgated, o, ho, htype, hcount,
    hupdate, ?_⟩
  rw [hmean, Option.some.injEq]
  exact Duration.ext hnanos

end WorkloadStatistics

end WorkloadReplay
