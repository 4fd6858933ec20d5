import Mathlib.Algebra.BigOperators.Group.List.Basic
import Mathlib.Algebra.GroupWithZero.Nat
import Mathlib.Data.List.Induction
import Mathlib.Data.String.Basic
import WorkloadReplay.Proofs.Entries
import WorkloadReplay.Proofs.Metrics.Delivery

/-!
# What results count

The counts in the results of some records are the numbers of those records: all of them, the
unsuccessful ones, and those of each operation type. A record is taken up in one entry, that of its
type, and since the entries are in order of their types there is just one for each type.

The second part is about the end of a pipeline: a shutdown is made of steps of the consumer and of
the marker, none of which changes what the pipeline delivers.
-/

namespace WorkloadReplay

namespace Aggregate

variable {config : MetricsConfig} {r : MetricsRecord} {l : List (String × TypeAggregate)}

/-- The types met are in order, each once. -/
def InOrder (l : List (String × TypeAggregate)) : Prop := l.Pairwise (·.1 < ·.1)

/-- What was collected of an operation type. -/
def entryOf (t : String) (l : List (String × TypeAggregate)) : TypeAggregate :=
  ((l.find? (·.1 = t)).map (·.2)).getD TypeAggregate.empty

/-- A record is taken up in the entry of its type. -/
theorem addToType_eq_put (config : MetricsConfig) (r : MetricsRecord)
    (l : List (String × TypeAggregate)) : addToType config r l =
      Entries.put r.operationType (TypeAggregate.empty.add config r) (·.add config r) l := by
  induction l with
  | nil => rfl
  | cons y rest ih =>
    obtain ⟨t, a⟩ := y
    unfold addToType Entries.put
    rw [ih]

/-- A total over the results of all types. -/
theorem foldl_eq_sum {α : Type} (f : α → Nat) (l : List α) :
    l.foldl (fun n a => n + f a) 0 = (l.map f).sum := by
  rw [List.sum_eq_foldl, List.foldl_map]

/-- The configuration of what is collected stays. -/
theorem config_ofRecords (records : List MetricsRecord) :
    (ofRecords config records).config = config := by
  induction records using List.reverseRecOn with
  | nil => rfl
  | append_singleton records r ih =>
    rw [ofRecords_append_singleton]
    exact ih

/-- The entries are made of the records one after another. -/
theorem byType_eq_putAll (records : List MetricsRecord) :
    (ofRecords config records).byType =
      Entries.putAll (·.operationType) (TypeAggregate.empty.add config)
        (fun r a => a.add config r) records := by
  induction records using List.reverseRecOn with
  | nil => rfl
  | append_singleton records r ih =>
    rw [Entries.putAll_append_singleton, ← ih, ← addToType_eq_put, ofRecords_append_singleton, add,
      config_ofRecords]

/-- The types of records are collected in order. -/
theorem inOrder_ofRecords (records : List MetricsRecord) :
    InOrder (ofRecords config records).byType := by
  rw [byType_eq_putAll]
  exact Entries.inOrder_putAll records

/-- What is collected of an operation type when records are taken up. -/
def ofType (config : MetricsConfig) (t : String) (records : List MetricsRecord) : TypeAggregate :=
  (records.filter (·.operationType = t)).foldl (TypeAggregate.add config) TypeAggregate.empty

/-- The entry of a type is what is collected of the records of this type. -/
theorem entryOf_ofRecords (t : String) (records : List MetricsRecord) :
    entryOf t (ofRecords config records).byType = ofType config t records := by
  change (Entries.get? t (ofRecords config records).byType).getD _ = _
  rw [byType_eq_putAll, Entries.get?_putAll]
  unfold ofType
  induction records.filter (·.operationType = t) using List.reverseRecOn with
  | nil => rfl
  | append_singleton l r ih =>
    rw [List.foldl_append, List.foldl_append, ← ih]
    cases l.foldl (fun held r => some (held.elim (TypeAggregate.empty.add config r)
      fun a => a.add config r)) none <;> rfl

/-- Records that are taken up are counted. -/
theorem count_foldl_add (a : TypeAggregate) (records : List MetricsRecord) :
    (records.foldl (TypeAggregate.add config) a).count = a.count + records.length := by
  induction records generalizing a with
  | nil => rfl
  | cons r rest ih =>
    rw [List.foldl_cons, ih, List.length_cons]
    simp only [TypeAggregate.add]
    omega

/-- Of records that are taken up, those that are not successful are counted. -/
theorem failures_foldl_add (a : TypeAggregate) (records : List MetricsRecord) :
    (records.foldl (TypeAggregate.add config) a).failures =
      a.failures + records.countP (!·.success) := by
  induction records generalizing a with
  | nil => rfl
  | cons r rest ih =>
    rw [List.foldl_cons, ih, List.countP_cons]
    simp only [TypeAggregate.add]
    cases r.success <;> simp; omega

/-- What is collected of a type counts the records of the type. -/
theorem count_ofType (t : String) (records : List MetricsRecord) :
    (ofType config t records).count = records.countP (·.operationType = t) := by
  unfold ofType
  rw [count_foldl_add, ← List.countP_eq_length_filter]
  exact Nat.zero_add _

/-- What is collected of a type counts those of its records that are not successful. -/
theorem failures_ofType (t : String) (records : List MetricsRecord) :
    (ofType config t records).failures =
      records.countP fun r => r.operationType = t ∧ r.success = false := by
  unfold ofType
  rw [failures_foldl_add, List.countP_filter]
  simp [TypeAggregate.empty, Bool.and_comm]

end Aggregate

namespace MetricsPipeline

variable {κ : Type} {config : MetricsConfig} {p : MetricsPipeline κ} {sent : List MetricsRecord}

/-- Steps of the consumer, one after another, lose nothing. -/
theorem Delivers.settle (h : p.Delivers config sent) (s : Sink κ) (fuel : Nat)
    (reports : List String) : (p.settle s fuel reports).1.Delivers config sent := by
  induction fuel generalizing p reports with
  | zero => exact h
  | succ fuel ih =>
    unfold MetricsPipeline.settle
    split
    · exact h
    · rename_i p' report hconsume
      exact ih (h.consume hconsume) _

/-- A pipeline after the marker has been sent, if there is room for it and the queue is open. -/
def withMarker (p : MetricsPipeline κ) : MetricsPipeline κ :=
  match p.offer .marker with
  | .queued p => p
  | _ => p

/-- The marker is no record. -/
theorem Delivers.withMarker (h : p.Delivers config sent) : p.withMarker.Delivers config sent := by
  unfold MetricsPipeline.withMarker
  split
  · rename_i p' hoffer
    simpa [Message.record?] using h.offer hoffer
  · exact h

/-- A shutdown loses nothing, wherever it comes. -/
theorem Delivers.shutdown (h : p.Delivers config sent) (s : Sink κ) :
    (p.shutdown s).2.1.Delivers config sent := by
  unfold MetricsPipeline.shutdown
  split
  · exact h
  · rename_i begun hbegin
    have hbefore : (begun.stopAccepting.settled s).1.Delivers config sent :=
      (h.begin? hbegin).stopAccepting.settle s _ _
    dsimp only
    have hafter : (MetricsPipeline.settled s _).1.Delivers config sent :=
      hbefore.withMarker.settle s _ _
    split
    · rename_i hjoin
      exact hafter.join? hjoin
    · exact hafter

end MetricsPipeline

end WorkloadReplay
