import Mathlib.Data.List.Sort
import WorkloadReplay.Proofs.Metrics.Totals
import WorkloadReplay.Proofs.Time.Order

/-!
# Results do not depend on the order of arrival

Workers report at the same time, so that the records of a run arrive in any order. What is collected
of an operation type is collected of the records of this type (`entryOf_ofRecords`), and two of them
may be taken up in either order, for a histogram only counts, adds up and compares. The entries are
in the order of their types, and the earliest start and the latest end are a minimum and a maximum.
Hence the results of some records are those of the same records in any other order.
-/

namespace WorkloadReplay

/-- Two numbers may be recorded in either order. -/
theorem Histogram.record_comm (h : Histogram) (m n : Nat) :
    (h.record m).record n = (h.record n).record m := by
  have hbuckets : (h.buckets.modify (bucketIndex m) (· + 1)).modify (bucketIndex n) (· + 1) =
      (h.buckets.modify (bucketIndex n) (· + 1)).modify (bucketIndex m) (· + 1) := by
    by_cases hmn : bucketIndex m = bucketIndex n
    · rw [hmn]
    · exact List.modify_modify_ne _ _ _ hmn
  simp only [record, Histogram.mk.injEq]
  exact ⟨hbuckets, trivial, by omega, by omega, by omega⟩

/-- Two records of a type may be taken up in either order. -/
theorem TypeAggregate.add_comm (config : MetricsConfig) (a : TypeAggregate) (r s : MetricsRecord) :
    (a.add config r).add config s = (a.add config s).add config r := by
  have hfailures : ((a.add config r).add config s).failures =
      ((a.add config s).add config r).failures := by
    simp only [add]
    split_ifs <;> rfl
  have hlatency : ((a.add config r).add config s).latency =
      ((a.add config s).add config r).latency := Histogram.record_comm _ _ _
  have hdelay : ((a.add config r).add config s).startDelay =
      ((a.add config s).add config r).startDelay := by
    simp only [add]
    split_ifs
    · exact Histogram.record_comm _ _ _
    · rfl
  rw [TypeAggregate.mk.injEq]
  exact ⟨rfl, hfailures, hlatency, hdelay⟩

/-- The end of an operation is its start and the time it took, or the last instant if they do not
fit together. -/
theorem MetricsRecord.nanos_finish (r : MetricsRecord) :
    r.finish.nanos =
      if FitsNanos (r.actualStart.nanos + r.executionDuration.nanos) then
        r.actualStart.nanos + r.executionDuration.nanos
      else greatestNanos := by
  unfold finish Instant.addOrGreatest Instant.add? Instant.ofNanos?
  split_ifs <;> rfl

namespace Aggregate

variable {config : MetricsConfig} {r : MetricsRecord} {l : List (String × TypeAggregate)}

/-- What is collected of a type does not depend on the order of the records. -/
theorem ofType_eq_of_perm {records records' : List MetricsRecord} (h : records.Perm records')
    (t : String) : ofType config t records = ofType config t records' :=
  (h.filter _).foldl_eq' (fun _ _ _ _ a => TypeAggregate.add_comm config a _ _) _

/-- The types met are those of the records. -/
theorem mem_types_ofRecords (t : String) (records : List MetricsRecord) :
    t ∈ (ofRecords config records).byType.map (·.1) ↔ ∃ r ∈ records, r.operationType = t := by
  rw [byType_eq_putAll]
  exact Entries.mem_keys_putAll records

/-- An entry in order is the entry of its type. -/
theorem InOrder.entryOf_of_mem (h : InOrder l) {x : String × TypeAggregate} (hx : x ∈ l) :
    entryOf x.1 l = x.2 := by
  have hget : Entries.get? x.1 l = some x.2 := (Entries.InOrder.get?_eq_some_iff h).mpr hx
  exact congrArg (·.getD TypeAggregate.empty) hget

/-- The types that are met do not depend on the order of the records. -/
theorem types_eq_of_perm {records records' : List MetricsRecord} (h : records.Perm records') :
    (ofRecords config records).byType.map (·.1) = (ofRecords config records').byType.map (·.1) := by
  have hordered (records : List MetricsRecord) :
      ((ofRecords config records).byType.map (·.1)).Pairwise (· < ·) :=
    List.pairwise_map.mpr (inOrder_ofRecords records)
  refine (hordered records).eq_of_mem_iff (hordered records') fun t => ?_
  rw [mem_types_ofRecords, mem_types_ofRecords]
  exact exists_congr fun r => and_congr_left' h.mem_iff

/-- Every entry is what is collected of the records of its type. -/
theorem byType_ofRecords (records : List MetricsRecord) :
    (ofRecords config records).byType =
      ((ofRecords config records).byType.map (·.1)).map fun t => (t, ofType config t records) := by
  have hentry : ∀ x ∈ (ofRecords config records).byType,
      x = (x.1, ofType config x.1 records) := by
    intro x hx
    rw [← entryOf_ofRecords, (inOrder_ofRecords records).entryOf_of_mem hx]
  rw [List.map_map]
  exact (List.map_id _).symm.trans (List.map_congr_left hentry)

/-- The entries do not depend on the order of the records. -/
theorem byType_eq_of_perm {records records' : List MetricsRecord} (h : records.Perm records') :
    (ofRecords config records).byType = (ofRecords config records').byType := by
  rw [byType_ofRecords records, byType_ofRecords records', types_eq_of_perm h]
  exact List.map_congr_left fun t _ => Prod.ext rfl (ofType_eq_of_perm h t)

/-- What is kept of all records, when each is compared with what is kept of those before. -/
theorem extreme_ofRecords (kept : Aggregate → Option Instant) (time : MetricsRecord → Instant)
    (choose : Instant → Instant → Instant) (hempty : kept (empty config) = none)
    (hadd : ∀ a r, kept (a.add r) = some ((kept a).elim (time r) (choose · (time r))))
    (records : List MetricsRecord) :
    kept (ofRecords config records) =
      match records.map time with
      | [] => none
      | first :: rest => some (rest.foldl choose first) := by
  induction records using List.reverseRecOn with
  | nil => exact hempty
  | append_singleton records r ih =>
    rw [ofRecords_append_singleton, hadd, ih]
    cases records with
    | nil => rfl
    | cons first rest => simp

/-- The results begin with the earliest actual start. -/
theorem start_ofRecords (records : List MetricsRecord) :
    (ofRecords config records).start = (records.map (·.actualStart)).min? := by
  have hmin : Instant.earlier = min := funext₂ Instant.earlier_eq_min
  rw [extreme_ofRecords Aggregate.start MetricsRecord.actualStart Instant.earlier rfl
    (fun _ _ => rfl), hmin]
  cases records <;> rfl

/-- The results end with the latest end. -/
theorem finish_ofRecords (records : List MetricsRecord) :
    (ofRecords config records).finish = (records.map (·.finish)).max? := by
  have hmax : Instant.later = max := funext₂ Instant.later_eq_max
  rw [extreme_ofRecords Aggregate.finish MetricsRecord.finish Instant.later rfl
    (fun _ _ => rfl), hmax]
  cases records <;> rfl

/-- What is collected does not depend on the order of the records. -/
theorem ofRecords_eq_of_perm {records records' : List MetricsRecord} (h : records.Perm records') :
    ofRecords config records = ofRecords config records' := by
  have hstart : (ofRecords config records).start = (ofRecords config records').start := by
    refine Option.ext fun t => ?_
    simp only [start_ofRecords, List.min?_eq_some_iff, (h.map _).mem_iff]
  have hfinish : (ofRecords config records).finish = (ofRecords config records').finish := by
    refine Option.ext fun t => ?_
    simp only [finish_ofRecords, List.max?_eq_some_iff, (h.map _).mem_iff]
  have hconfig : (ofRecords config records).config = (ofRecords config records').config := by
    rw [config_ofRecords, config_ofRecords]
  calc ofRecords config records
      = ⟨(ofRecords config records).config, (ofRecords config records).byType,
          (ofRecords config records).start, (ofRecords config records).finish⟩ := rfl
    _ = ⟨(ofRecords config records').config, (ofRecords config records').byType,
          (ofRecords config records').start, (ofRecords config records').finish⟩ := by
        rw [hconfig, byType_eq_of_perm h, hstart, hfinish]
    _ = ofRecords config records' := rfl

/-- The entries of the results, one for each type of the records, in the order of the types. -/
theorem operations_ofRecords (records : List MetricsRecord) {o : OperationMetrics}
    (ho : o ∈ (ofRecords config records).snapshot.operations) :
    o = (ofType config o.operationType records).metrics config.timeUnit o.operationType := by
  unfold snapshot at ho
  rw [byType_ofRecords, config_ofRecords, List.map_map] at ho
  obtain ⟨t, -, rfl⟩ := List.mem_map.mp ho
  rfl

/-- The types of the results are those of the entries. -/
theorem operationTypes_snapshot (a : Aggregate) :
    a.snapshot.operations.map (·.operationType) = a.byType.map (·.1) := by
  unfold snapshot
  rw [List.map_map]
  rfl

/-- The results depend only on which records arrived, not on their order. They have one entry for
each operation type of the records, in the order of the types, which counts the records of the type
and those of them that were not successful. The totals are the sums over the entries, and the
results reach from the earliest actual start to the latest end, which is the start and the time the
operation took, or the last instant where they do not fit together. -/
theorem snapshot_ofRecords_of_perm (config : MetricsConfig) {records records' : List MetricsRecord}
    (h : records.Perm records') :
    (ofRecords config records).snapshot = (ofRecords config records').snapshot ∧
    let results := (ofRecords config records).snapshot
    (results.operations.map (·.operationType)).Pairwise (· < ·) ∧
    (∀ t, t ∈ results.operations.map (·.operationType) ↔ ∃ r ∈ records, r.operationType = t) ∧
    (∀ o ∈ results.operations,
      o.count = records.countP (·.operationType = o.operationType) ∧
      o.failures = records.countP fun r => r.operationType = o.operationType ∧ r.success = false) ∧
    results.totalCount = (results.operations.map (·.count)).sum ∧
    results.totalFailures = (results.operations.map (·.failures)).sum ∧
    results.start = (records.map (·.actualStart)).min? ∧
    results.finish = (records.map (·.finish)).max? ∧
    ∀ r ∈ records, r.finish.nanos =
      if FitsNanos (r.actualStart.nanos + r.executionDuration.nanos) then
        r.actualStart.nanos + r.executionDuration.nanos
      else greatestNanos := by
  refine ⟨by rw [ofRecords_eq_of_perm h], ?_, ?_, ?_, foldl_eq_sum _ _, foldl_eq_sum _ _,
    start_ofRecords records, finish_ofRecords records, fun r _ => r.nanos_finish⟩
  · rw [operationTypes_snapshot]
    exact List.pairwise_map.mpr (inOrder_ofRecords records)
  · intro t
    rw [operationTypes_snapshot]
    exact mem_types_ofRecords t records
  · intro o ho
    rw [operations_ofRecords records ho]
    exact ⟨count_ofType _ records, failures_ofType _ records⟩

/-- An update from 5 to 8 that was not successful. -/
def shortUpdate : MetricsRecord :=
  ⟨"update", .saturating 4, .saturating 5, .saturating 3, false⟩

/-- A read that starts at 2 and never ends. -/
def endlessRead : MetricsRecord :=
  ⟨"read", .saturating 2, .saturating 2, .saturating greatestNanos, true⟩

/-- An update and a read may arrive in either order. -/
theorem snapshot_ofRecords_update_read :
    [shortUpdate, endlessRead].Perm [endlessRead, shortUpdate] ∧
    let results := (ofRecords {} [shortUpdate, endlessRead]).snapshot
    results = (ofRecords {} [endlessRead, shortUpdate]).snapshot ∧
    results.operations.map (·.operationType) = ["read", "update"] ∧
    results.totalCount = 2 ∧ results.totalFailures = 1 ∧
    results.start = some (.saturating 2) ∧ results.finish = some Instant.greatest := by
  have hswap : [shortUpdate, endlessRead].Perm [endlessRead, shortUpdate] := .swap _ _ _
  obtain ⟨heq, -, -, -, -, -, hstart, hfinish, -⟩ := snapshot_ofRecords_of_perm {} hswap
  exact ⟨hswap, heq, by decide +kernel, by decide +kernel, by decide +kernel,
    hstart.trans (by decide +kernel), hfinish.trans (by decide +kernel)⟩

end Aggregate

end WorkloadReplay
