import WorkloadReplay.Proofs.Metrics.ArrivalOrder

/-!
# What histograms hold

A histogram of some numbers holds their count and their extremes, and in each bucket how many of
them fall into it (`Histogram.buckets_ofValues`). What is collected of an operation type is a
histogram of the latencies of its records and one of their delays, each in the unit of the results.
-/

namespace WorkloadReplay

namespace Histogram

variable {values : List Nat}

/-- A histogram of some numbers. -/
def ofValues (values : List Nat) : Histogram := values.foldl record empty

/-- The last number is recorded after all others. -/
theorem ofValues_append_singleton (values : List Nat) (v : Nat) :
    ofValues (values ++ [v]) = (ofValues values).record v := by
  unfold ofValues
  rw [List.foldl_append]
  rfl

/-- All numbers are counted. -/
theorem count_ofValues (values : List Nat) : (ofValues values).count = values.length := by
  induction values using List.reverseRecOn with
  | nil => rfl
  | append_singleton values v ih =>
    rw [ofValues_append_singleton, record, ih, List.length_append, List.length_singleton]

/-- The least number is kept, or the greatest possible one if there is none below it. -/
theorem least_ofValues (values : List Nat) :
    (ofValues values).least = values.foldl min maxRecorded := by
  induction values using List.reverseRecOn with
  | nil => rfl
  | append_singleton values v ih =>
    rw [ofValues_append_singleton, record, ih, List.foldl_append]
    rfl

/-- The greatest number is kept. -/
theorem greatest_ofValues (values : List Nat) :
    (ofValues values).greatest = values.foldl max 0 := by
  induction values using List.reverseRecOn with
  | nil => rfl
  | append_singleton values v ih =>
    rw [ofValues_append_singleton, record, ih, List.foldl_append]
    rfl

/-- The minimum is that of the numbers recorded. -/
theorem min?_ofValues (h : ∀ v ∈ values, v ≤ maxRecorded) :
    (ofValues values).min? = values.min? := by
  unfold Histogram.min?
  rw [count_ofValues, least_ofValues]
  cases values with
  | nil => rfl
  | cons v rest =>
    rw [if_pos (by simp), List.min?_cons', List.foldl_cons, min_eq_right (h v List.mem_cons_self)]

/-- The maximum is that of the numbers recorded. -/
theorem max?_ofValues (values : List Nat) : (ofValues values).max? = values.max? := by
  unfold Histogram.max?
  rw [count_ofValues, greatest_ofValues]
  cases values with
  | nil => rfl
  | cons v rest => rw [if_pos (by simp), List.max?_cons', List.foldl_cons, Nat.zero_max]

/-- Each bucket counts the numbers that fall into it. -/
theorem buckets_ofValues (values : List Nat) : (ofValues values).buckets =
    (List.range bucketCount).map fun k => values.countP (bucketIndex · = k) := by
  induction values using List.reverseRecOn with
  | nil => rfl
  | append_singleton values v ih =>
    rw [ofValues_append_singleton, record, ih]
    refine List.ext_getElem (by simp) fun k hk hk' => ?_
    rw [List.getElem_modify, List.getElem_map, List.getElem_map, List.getElem_range,
      List.countP_append, List.countP_singleton]
    by_cases hv : bucketIndex v = k <;> simp [hv]

end Histogram

/-- No duration counts as more than the greatest number. -/
theorem Duration.toRecorded_le (d : Duration) (unit : TimeUnit) :
    d.toRecorded unit ≤ maxRecorded := by
  have hfits := d.fits
  unfold toRecorded inUnits TimeUnit.fromNanos
  split_ifs with hmark
  · exact le_refl _
  · change (d.nanos.tdiv unit.nanosPerUnit).toNat ≤ maxRecorded
    have habs := Int.natAbs_tdiv_le_natAbs d.nanos unit.nanosPerUnit
    unfold FitsNanos leastNanos greatestNanos at hfits
    unfold maxRecorded
    omega

namespace Aggregate

variable {config : MetricsConfig}

/-- What is recorded of a time of each record of a type. -/
def timesOf (config : MetricsConfig) (time : MetricsRecord → Duration) (t : String)
    (records : List MetricsRecord) : List Nat :=
  (records.filter (·.operationType = t)).map fun r => (time r).toRecorded config.timeUnit

/-- No time is recorded as more than the greatest number. -/
theorem le_of_mem_timesOf {time : MetricsRecord → Duration} {t : String}
    {records : List MetricsRecord} : ∀ v ∈ timesOf config time t records, v ≤ maxRecorded :=
  List.forall_mem_map.mpr fun r _ => (time r).toRecorded_le config.timeUnit

/-- Results are about types of which there is a record. -/
theorem timesOf_ne_nil {records : List MetricsRecord} {o : OperationMetrics}
    (ho : o ∈ (ofRecords config records).snapshot.operations) (time : MetricsRecord → Duration) :
    timesOf config time o.operationType records ≠ [] := by
  have hmet : o.operationType ∈ (ofRecords config records).byType.map (·.1) := by
    rw [← operationTypes_snapshot]
    exact List.mem_map_of_mem ho
  obtain ⟨r, hr, htype⟩ := (mem_types_ofRecords _ records).mp hmet
  exact List.ne_nil_of_mem (List.mem_map_of_mem (List.mem_filter.mpr ⟨hr, decide_eq_true htype⟩))

/-- The latencies of records are held in the order in which the records are taken up. -/
theorem latency_ofType (config : MetricsConfig) (t : String) (records : List MetricsRecord) :
    (ofType config t records).latency =
      Histogram.ofValues (timesOf config MetricsRecord.executionDuration t records) := by
  unfold ofType timesOf
  generalize records.filter (·.operationType = t) = l
  induction l using List.reverseRecOn with
  | nil => rfl
  | append_singleton l r ih =>
    rw [List.foldl_append, List.map_append, List.map_singleton,
      Histogram.ofValues_append_singleton, ← ih]
    rfl

/-- If delays are recorded, those of the records are held, too. -/
theorem startDelay_ofType (h : config.recordStartDelay = true) (t : String)
    (records : List MetricsRecord) :
    (ofType config t records).startDelay =
      Histogram.ofValues (timesOf config MetricsRecord.startDelay t records) := by
  unfold ofType timesOf
  generalize records.filter (·.operationType = t) = l
  induction l using List.reverseRecOn with
  | nil => rfl
  | append_singleton l r ih =>
    rw [List.foldl_append, List.map_append, List.map_singleton,
      Histogram.ofValues_append_singleton, ← ih]
    exact if_pos h

end Aggregate

end WorkloadReplay
