import WorkloadReplay.Metrics.Histogram
import WorkloadReplay.Metrics.Record

/-!
# Results of a run

`Aggregate` takes up records one by one and groups them by operation type; `Aggregate.snapshot` is
the account of what it has taken up. Latencies and delays are counted in a chosen unit. A time at
an end of its range is the mark of an overflow and counts as the greatest number, a negative time
counts as zero.
-/

namespace WorkloadReplay

/-- How records are collected. -/
structure MetricsConfig where
  queueCapacity : Nat := 10000
  timeUnit : TimeUnit := .milli
  /-- Start delays are collected beside latencies. -/
  recordStartDelay : Bool := true
  deriving DecidableEq

/-- A duration in whole units. -/
def Duration.toRecorded (d : Duration) (unit : TimeUnit) : Nat :=
  match d.inUnits unit with
  | .ok n => n.toNat
  | .error _ => maxRecorded

/-- How late the operations of a type started. -/
structure DelayStats where
  least : Nat
  greatest : Nat
  mean : Binary64
  deriving DecidableEq

/-- The results of the operations of one type. -/
structure OperationMetrics where
  operationType : String
  count : Nat
  failures : Nat
  unit : TimeUnit
  minLatency : Nat
  maxLatency : Nat
  meanLatency : Binary64
  p50Latency : Nat
  p90Latency : Nat
  p95Latency : Nat
  p99Latency : Nat
  histogram : List (Nat × Nat)
  startDelay : Option DelayStats
  deriving DecidableEq

/-- The results of a run. -/
structure ResultsSnapshot where
  unit : TimeUnit
  /-- The earliest actual start. -/
  start : Option Instant
  /-- The latest end. -/
  finish : Option Instant
  totalRunDuration : Duration
  totalCount : Nat
  totalFailures : Nat
  operations : List OperationMetrics
  deriving DecidableEq

/-- What has been collected of one operation type. -/
structure TypeAggregate where
  count : Nat
  failures : Nat
  latency : Histogram
  startDelay : Histogram
  deriving DecidableEq

namespace TypeAggregate

/-- Nothing collected. -/
def empty : TypeAggregate := ⟨0, 0, Histogram.empty, Histogram.empty⟩

/-- Takes up a record. -/
def add (config : MetricsConfig) (a : TypeAggregate) (r : MetricsRecord) : TypeAggregate where
  count := a.count + 1
  failures := if r.success then a.failures else a.failures + 1
  latency := a.latency.record (r.executionDuration.toRecorded config.timeUnit)
  startDelay :=
    if config.recordStartDelay then a.startDelay.record (r.startDelay.toRecorded config.timeUnit)
    else a.startDelay

/-- A quantile given in hundredths. -/
def hundredths (n : Nat) : Binary64 := Binary64.ofDecimal false n (-2)

/-- The account of a type. -/
def metrics (unit : TimeUnit) (operationType : String) (a : TypeAggregate) : OperationMetrics where
  operationType := operationType
  count := a.count
  failures := a.failures
  unit := unit
  minLatency := a.latency.min?.getD 0
  maxLatency := a.latency.max?.getD 0
  meanLatency := a.latency.mean?.getD (Binary64.zero false)
  p50Latency := (a.latency.percentile? (hundredths 50)).getD 0
  p90Latency := (a.latency.percentile? (hundredths 90)).getD 0
  p95Latency := (a.latency.percentile? (hundredths 95)).getD 0
  p99Latency := (a.latency.percentile? (hundredths 99)).getD 0
  histogram := a.latency.filled
  startDelay :=
    if 0 < a.startDelay.count then
      some ⟨a.startDelay.min?.getD 0, a.startDelay.max?.getD 0,
        a.startDelay.mean?.getD (Binary64.zero false)⟩
    else none

end TypeAggregate

/-- What has been collected of a run. -/
structure Aggregate where
  config : MetricsConfig
  /-- The operation types met so far, in order. -/
  byType : List (String × TypeAggregate)
  start : Option Instant
  finish : Option Instant
  deriving DecidableEq

namespace Aggregate

/-- Nothing collected. -/
def empty (config : MetricsConfig) : Aggregate := ⟨config, [], none, none⟩

/-- Takes up a record among the types met so far. -/
def addToType (config : MetricsConfig) (r : MetricsRecord) :
    List (String × TypeAggregate) → List (String × TypeAggregate)
  | [] => [(r.operationType, TypeAggregate.empty.add config r)]
  | (t, a) :: rest =>
    if r.operationType < t then
      (r.operationType, TypeAggregate.empty.add config r) :: (t, a) :: rest
    else if r.operationType = t then (t, a.add config r) :: rest
    else (t, a) :: addToType config r rest

/-- Takes up a record. -/
def add (a : Aggregate) (r : MetricsRecord) : Aggregate where
  config := a.config
  byType := addToType a.config r a.byType
  start := some (a.start.elim r.actualStart (Instant.earlier · r.actualStart))
  finish := some (a.finish.elim r.finish (Instant.later · r.finish))

/-- The time from the earliest start to the latest end, or none at all if it does not fit. -/
def runDuration (a : Aggregate) : Duration :=
  match a.start, a.finish with
  | some start, some finish => (finish.since? start).getD Duration.zero
  | _, _ => Duration.zero

/-- The account of what has been collected. -/
def snapshot (a : Aggregate) : ResultsSnapshot :=
  let operations := a.byType.map fun (t, agg) => agg.metrics a.config.timeUnit t
  { unit := a.config.timeUnit
    start := a.start
    finish := a.finish
    totalRunDuration := a.runDuration
    totalCount := operations.foldl (fun n o => n + o.count) 0
    totalFailures := operations.foldl (fun n o => n + o.failures) 0
    operations := operations }

end Aggregate

namespace ResultsSnapshot

/-- The results of an operation type. -/
def operation? (s : ResultsSnapshot) (operationType : String) : Option OperationMetrics :=
  s.operations.find? (·.operationType = operationType)

/-- Operations per second over the whole run. -/
def throughput (s : ResultsSnapshot) : Binary64 :=
  if s.totalRunDuration.nanos ≤ 0 then Binary64.zero false
  else (Binary64.ofNat s.totalCount).div
    ((Binary64.ofInt s.totalRunDuration.nanos).div (Binary64.ofNat 1000000000))

end ResultsSnapshot

/-! ## As JSON -/

/-- The value delay statistics are written as. -/
def DelayStats.toJson (d : DelayStats) : Json :=
  .obj [("min", Json.nat d.least), ("max", Json.nat d.greatest), ("mean", .double d.mean)]

/-- Reads delay statistics. -/
def DelayStats.ofTree? (t : Json.Tree) : Option DelayStats := do
  let [least, greatest, mean] ← t.fields? ["min", "max", "mean"] | none
  some ⟨← Json.Tree.required? Json.Tree.toWord? least,
    ← Json.Tree.required? Json.Tree.toWord? greatest,
    ← Json.Tree.required? Json.Tree.toDouble? mean⟩

/-- The value the results of a type are written as. -/
def OperationMetrics.toJson (m : OperationMetrics) : Json :=
  .obj [("operation_type", .str m.operationType), ("count", Json.nat m.count),
    ("failures", Json.nat m.failures), ("unit", m.unit.toJson),
    ("min_latency", Json.nat m.minLatency), ("max_latency", Json.nat m.maxLatency),
    ("mean_latency", .double m.meanLatency), ("p50_latency", Json.nat m.p50Latency),
    ("p90_latency", Json.nat m.p90Latency), ("p95_latency", Json.nat m.p95Latency),
    ("p99_latency", Json.nat m.p99Latency), ("histogram", Histogram.filledToJson m.histogram),
    ("start_delay", Json.ofOption DelayStats.toJson m.startDelay)]

/-- Reads the results of a type. -/
def OperationMetrics.ofTree? (t : Json.Tree) : Option OperationMetrics := do
  let [operationType, count, failures, unit, minLatency, maxLatency, meanLatency, p50, p90, p95,
      p99, histogram, startDelay] ← t.fields?
    ["operation_type", "count", "failures", "unit", "min_latency", "max_latency", "mean_latency",
      "p50_latency", "p90_latency", "p95_latency", "p99_latency", "histogram", "start_delay"]
    | none
  let word := Json.Tree.required? Json.Tree.toWord?
  some
    { operationType := ← Json.Tree.required? Json.Tree.toText? operationType
      count := ← word count
      failures := ← word failures
      unit := ← Json.Tree.required? TimeUnit.ofTree? unit
      minLatency := ← word minLatency
      maxLatency := ← word maxLatency
      meanLatency := ← Json.Tree.required? Json.Tree.toDouble? meanLatency
      p50Latency := ← word p50
      p90Latency := ← word p90
      p95Latency := ← word p95
      p99Latency := ← word p99
      histogram := ← Json.Tree.required? Histogram.filledOfTree? histogram
      startDelay := ← Json.Tree.optional? DelayStats.ofTree? startDelay }

/-- The value results are written as. -/
def ResultsSnapshot.toJson (s : ResultsSnapshot) : Json :=
  .obj [("unit", s.unit.toJson), ("start", Json.ofOption Instant.toJson s.start),
    ("finish", Json.ofOption Instant.toJson s.finish),
    ("total_run_duration", s.totalRunDuration.toJson), ("total_count", Json.nat s.totalCount),
    ("total_failures", Json.nat s.totalFailures),
    ("operations", Json.ofList OperationMetrics.toJson s.operations)]

/-- Reads results. -/
def ResultsSnapshot.ofTree? (t : Json.Tree) : Option ResultsSnapshot := do
  let [unit, start, finish, duration, count, failures, operations] ← t.fields?
    ["unit", "start", "finish", "total_run_duration", "total_count", "total_failures",
      "operations"] | none
  some
    { unit := ← Json.Tree.required? TimeUnit.ofTree? unit
      start := ← Json.Tree.optional? Json.Tree.toInstant? start
      finish := ← Json.Tree.optional? Json.Tree.toInstant? finish
      totalRunDuration := ← Json.Tree.required? Json.Tree.toDuration? duration
      totalCount := ← Json.Tree.required? Json.Tree.toWord? count
      totalFailures := ← Json.Tree.required? Json.Tree.toWord? failures
      operations := ← Json.Tree.required? (Json.Tree.toList? OperationMetrics.ofTree?) operations }

end WorkloadReplay
