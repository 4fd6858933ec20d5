import WorkloadReplay.Proofs.Metrics.Histograms
import WorkloadReplay.Proofs.Run.StartDelays

/-!
# How lateness is measured

Two instants may be further apart than the range of times allows. A difference that does not fit
counts as none at all, and a difference at an end of the range counts as the greatest number, for it
could be the mark of an overflow. So a start that is later than any delay passes the check
(`DelayChecker.check_eq_onTime_iff`) and does not count as late in the results, while a start that
is early by as much as fits counts as late there. In between lateness is measured faithfully
(`countedDelay_eq_iff`).
-/

namespace WorkloadReplay

variable {P : Type}

/-- The nanoseconds from when an operation is to start to when it does, negative if it is early. -/
def lateness (scheduled actual : Instant) : Int := actual.nanos - scheduled.nanos

/-- Nanoseconds in whole units: none if they are negative, and the greatest number from the end of
the range of times on. -/
def wholeUnits (unit : TimeUnit) (nanos : Int) : Nat :=
  if nanos ≤ 0 then 0
  else if greatestNanos ≤ nanos then maxRecorded
  else (nanos / unit.nanosPerUnit).toNat

/-- What a lateness counts as in the results. -/
def countedDelay (unit : TimeUnit) (nanos : Int) : Nat :=
  if nanos = leastNanos then maxRecorded
  else if greatestNanos < nanos then 0
  else wholeUnits unit nanos

/-- Only at the least number of nanoseconds and beyond the greatest one a lateness does not count as
what it is. -/
theorem countedDelay_eq_iff (unit : TimeUnit) (nanos : Int) :
    countedDelay unit nanos = wholeUnits unit nanos ↔
      nanos ≠ leastNanos ∧ nanos ≤ greatestNanos := by
  have hmark : maxRecorded ≠ 0 := by decide
  unfold countedDelay wholeUnits
  by_cases hleast : nanos = leastNanos
  · rw [if_pos hleast, if_pos (hleast ▸ by decide)]
    simp [hleast, hmark]
  · rw [if_neg hleast]
    by_cases hgreatest : greatestNanos < nanos
    · have hlate : ¬ nanos ≤ 0 := not_le.mpr (lt_trans (by decide) hgreatest)
      rw [if_pos hgreatest, if_neg hlate, if_pos hgreatest.le]
      exact iff_of_false hmark.symm fun h => absurd hgreatest (not_lt.mpr h.2)
    · rw [if_neg hgreatest]
      exact iff_of_true rfl ⟨hleast, not_lt.mp hgreatest⟩

/-- A duration is recorded in whole units, and the shortest one as the greatest number. -/
theorem Duration.toRecorded_eq (d : Duration) (unit : TimeUnit) :
    d.toRecorded unit = if d.nanos = leastNanos then maxRecorded else wholeUnits unit d.nanos := by
  have hunit : 0 ≤ unit.nanosPerUnit := by cases unit <;> decide
  have hgreatest := d.fits.2
  unfold toRecorded inUnits TimeUnit.fromNanos wholeUnits
  by_cases hleast : d.nanos = leastNanos
  · rw [if_pos (.inr hleast), if_pos hleast]
  · rw [if_neg hleast]
    by_cases hmark : d.nanos = greatestNanos
    · rw [if_pos (.inl hmark), hmark]
      rfl
    · rw [if_neg (not_or.mpr ⟨hmark, hleast⟩)]
      change (d.nanos.tdiv unit.nanosPerUnit).toNat = _
      rcases le_total d.nanos 0 with hearly | hlate
      · -- The division goes toward zero and not beyond it.
        have hquotient : d.nanos.tdiv unit.nanosPerUnit ≤ 0 := by
          have hsize := Int.tdiv_nonneg (Int.neg_nonneg_of_nonpos hearly) hunit
          rw [Int.neg_tdiv] at hsize
          exact Int.nonpos_of_neg_nonneg hsize
        rw [if_pos hearly, Int.toNat_of_nonpos hquotient]
      · rw [Int.tdiv_eq_ediv_of_nonneg hlate, if_neg (not_le.mpr (lt_of_le_of_ne hgreatest hmark))]
        split_ifs with hzero
        · rw [le_antisymm hzero hlate, Int.zero_ediv]
          rfl
        · rfl

/-- What the start delay of a record counts as. -/
theorem MetricsRecord.toRecorded_startDelay (r : MetricsRecord) (unit : TimeUnit) :
    r.startDelay.toRecorded unit = countedDelay unit (lateness r.scheduledStart r.actualStart) := by
  unfold startDelay Instant.since? Duration.ofNanos? lateness countedDelay
  rw [Duration.toRecorded_eq]
  by_cases hfits : FitsNanos (r.actualStart.nanos - r.scheduledStart.nanos)
  · rw [dif_pos hfits, Option.getD_some, if_neg (not_lt.mpr hfits.2)]
  · -- What does not fit is far too late, or so early that it does not count either.
    rw [dif_neg hfits, Option.getD_none, if_neg (by decide)]
    unfold FitsNanos leastNanos greatestNanos at hfits
    unfold leastNanos greatestNanos
    rw [if_neg (by omega)]
    split_ifs
    · rfl
    · unfold wholeUnits
      rw [if_pos (by decide), if_pos (by omega)]

/-- An operation passes its check exactly if it is no later than tolerated, or later than the
greatest number of nanoseconds. -/
theorem DelayChecker.check_eq_onTime_iff {c : DelayChecker} {op : Operation P} {now : Instant}
    (htolerated : 0 ≤ c.tolerated.nanos) : c.check op now = .onTime ↔
      lateness op.scheduledStart now ≤ c.tolerated.nanos ∨
        greatestNanos < lateness op.scheduledStart now := by
  unfold lateness
  by_cases hfits : FitsNanos (now.nanos - op.scheduledStart.nanos)
  · have hdelay : delay op now = ⟨now.nanos - op.scheduledStart.nanos, hfits⟩ := by
      unfold delay Instant.since? Duration.ofNanos?
      rw [dif_pos hfits, Option.getD_some]
    rw [or_iff_left (not_lt.mpr hfits.2), check, hdelay]
    by_cases hle : (⟨now.nanos - op.scheduledStart.nanos, hfits⟩ : Duration) ≤ c.tolerated
    · exact iff_of_true (if_pos hle) hle
    · refine iff_of_false (fun h => ?_) hle
      rw [if_neg hle] at h
      cases hpolicy : c.policy <;> simp [hpolicy] at h
  · refine iff_of_true (check_of_not_fits htolerated hfits) ?_
    unfold FitsNanos leastNanos at hfits
    omega

/-- The delays of a type are given by the least and the greatest one held. -/
theorem TypeAggregate.startDelay_metrics (unit : TimeUnit) (operationType : String)
    {a : TypeAggregate} {values : List Nat} (h : a.startDelay = Histogram.ofValues values)
    (hne : values ≠ []) (hbound : ∀ v ∈ values, v ≤ maxRecorded) :
    ∃ stats, (a.metrics unit operationType).startDelay = some stats ∧
      values.min? = some stats.least ∧ values.max? = some stats.greatest := by
  obtain ⟨least, hleast⟩ := Option.isSome_iff_exists.mp (List.isSome_min?_iff.mpr hne)
  obtain ⟨greatest, hgreatest⟩ := Option.isSome_iff_exists.mp (List.isSome_max?_iff.mpr hne)
  refine ⟨⟨least, greatest, a.startDelay.mean?.getD (Binary64.zero false)⟩, ?_, hleast, hgreatest⟩
  have hcount : 0 < a.startDelay.count := by
    rw [h, Histogram.count_ofValues]
    exact List.length_pos_of_ne_nil hne
  have hmin : a.startDelay.min?.getD 0 = least := by
    rw [h, Histogram.min?_ofValues hbound, hleast, Option.getD_some]
  have hmax : a.startDelay.max?.getD 0 = greatest := by
    rw [h, Histogram.max?_ofValues, hgreatest, Option.getD_some]
  simp only [metrics, if_pos hcount, hmin, hmax]

namespace Aggregate

/-- The delays of a type reach from the least to the greatest one of its records. -/
theorem startDelay_of_mem_operations {config : MetricsConfig}
    (hrecorded : config.recordStartDelay = true) {records : List MetricsRecord}
    {o : OperationMetrics} (ho : o ∈ (ofRecords config records).snapshot.operations) :
    ∃ stats, o.startDelay = some stats ∧
      let counted := (records.filter (·.operationType = o.operationType)).map fun r =>
        countedDelay config.timeUnit (lateness r.scheduledStart r.actualStart)
      counted.min? = some stats.least ∧ counted.max? = some stats.greatest := by
  have hcounted : timesOf config MetricsRecord.startDelay o.operationType records =
      (records.filter (·.operationType = o.operationType)).map fun r =>
        countedDelay config.timeUnit (lateness r.scheduledStart r.actualStart) :=
    List.map_congr_left fun r _ => r.toRecorded_startDelay config.timeUnit
  obtain ⟨stats, hstats, hextremes⟩ := TypeAggregate.startDelay_metrics config.timeUnit
    o.operationType (startDelay_ofType hrecorded o.operationType records) (timesOf_ne_nil ho _)
    le_of_mem_timesOf
  rw [← operations_ofRecords records ho] at hstats
  exact ⟨stats, hstats, hcounted ▸ hextremes⟩

/-- How late operations start is measured faithfully but at the ends of the range of times. An
operation passes its check exactly if it is no later than tolerated or beyond the range, and the
delays of a type reach from the least to the greatest of what the lateness of its records counts as,
which is the lateness in whole units unless it is at the least number of nanoseconds or beyond the
greatest one. -/
theorem startDelays_measured {config : MetricsConfig} (hrecorded : config.recordStartDelay = true)
    {c : DelayChecker} (htolerated : 0 ≤ c.tolerated.nanos) (op : Operation P) (now : Instant)
    (records : List MetricsRecord) :
    (c.check op now = .onTime ↔ lateness op.scheduledStart now ≤ c.tolerated.nanos ∨
      greatestNanos < lateness op.scheduledStart now) ∧
    (∀ o ∈ (ofRecords config records).snapshot.operations, ∃ stats, o.startDelay = some stats ∧
      let counted := (records.filter (·.operationType = o.operationType)).map fun r =>
        countedDelay config.timeUnit (lateness r.scheduledStart r.actualStart)
      counted.min? = some stats.least ∧ counted.max? = some stats.greatest) ∧
    ∀ nanos, countedDelay config.timeUnit nanos = wholeUnits config.timeUnit nanos ↔
      nanos ≠ leastNanos ∧ nanos ≤ greatestNanos :=
  ⟨DelayChecker.check_eq_onTime_iff htolerated,
    fun _ ho => startDelay_of_mem_operations hrecorded ho,
    countedDelay_eq_iff config.timeUnit⟩

/-- A record of an operation that was to start at one instant and started at another. -/
def startedAt (operationType : String) (scheduled actual : Instant) : MetricsRecord :=
  ⟨operationType, scheduled, actual, Duration.zero, true⟩

/-- Of two reads one starts a second early and one 2.5 milliseconds late. -/
def earlyAndLate : List MetricsRecord :=
  [startedAt "read" ⟨0, by decide⟩ ⟨-1000000000, by decide⟩,
    startedAt "read" ⟨0, by decide⟩ ⟨2500000, by decide⟩]

/-- The delays of the reads reach from 0 to 2 milliseconds, and an operation that starts 2.5
milliseconds late passes its check if a tenth of a second is tolerated. -/
theorem startDelays_measured_earlyAndLate :
    ({ policy := .terminate, tolerated := .ofUnits .milli 100 : DelayChecker }).check
      (.independent "read" ⟨0, by decide⟩ ()) ⟨2500000, by decide⟩ = .onTime ∧
    ∀ o ∈ (ofRecords {} earlyAndLate).snapshot.operations, ∃ stats, o.startDelay = some stats ∧
      stats.least = 0 ∧ stats.greatest = 2 := by
  have hrecorded : ({} : MetricsConfig).recordStartDelay = true := rfl
  have htolerated : 0 ≤ (Duration.ofUnits .milli 100).nanos := by decide
  obtain ⟨hcheck, hstats, -⟩ := startDelays_measured hrecorded
    (c := { policy := .terminate, tolerated := .ofUnits .milli 100 }) htolerated
    (.independent "read" ⟨0, by decide⟩ ()) ⟨2500000, by decide⟩ earlyAndLate
  refine ⟨hcheck.mpr (.inl (by decide)), fun o ho => ?_⟩
  obtain ⟨stats, hstat, hleast, hgreatest⟩ := hstats o ho
  have htype : ∀ o ∈ (ofRecords {} earlyAndLate).snapshot.operations, o.operationType = "read" := by
    decide +kernel
  rw [htype o ho] at hleast hgreatest
  exact ⟨stats, hstat, Option.some.inj (hleast.symm.trans (by decide +kernel)),
    Option.some.inj (hgreatest.symm.trans (by decide +kernel))⟩

/-- At the ends of the range lateness is not measured faithfully. An operation that is checked at
the last instant passes although it was to start before the epoch, and a record of that start counts
as one in time. A record of a start at the first instant that was to be at the epoch counts as the
greatest delay. -/
theorem startDelays_misjudged :
    (({ policy := .terminate, tolerated := .ofUnits .milli 100 : DelayChecker }).check
      (.independent "read" ⟨-1, by decide⟩ ()) .greatest = .onTime ∧
        ¬ lateness ⟨-1, by decide⟩ .greatest ≤ (Duration.ofUnits .milli 100).nanos) ∧
    ((ofRecords {} [startedAt "read" ⟨-1, by decide⟩ .greatest]).snapshot.operations.map
        (fun o => o.startDelay.map fun stats => (stats.least, stats.greatest)) = [some (0, 0)] ∧
      wholeUnits .milli (lateness ⟨-1, by decide⟩ .greatest) = maxRecorded) ∧
    (ofRecords {} [startedAt "read" ⟨0, by decide⟩ .least]).snapshot.operations.map
        (fun o => o.startDelay.map fun stats => (stats.least, stats.greatest)) =
          [some (maxRecorded, maxRecorded)] ∧
      wholeUnits .milli (lateness ⟨0, by decide⟩ .least) = 0 := by
  decide +kernel

end Aggregate

end WorkloadReplay
