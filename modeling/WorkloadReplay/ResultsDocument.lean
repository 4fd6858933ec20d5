import WorkloadReplay.Metrics.Collector
import WorkloadReplay.Text.Table
import WorkloadReplay.Text.Delimited
import WorkloadReplay.Json.Printer

/-!
# Results as documents

The forms in which results leave a run: a row of the results log for each record, the results
document, and a table for the console.
-/

namespace WorkloadReplay

/-- How the name of the results log ends. -/
def resultsLogSuffix : String := "results_log.csv"

/-- How the name of the results document ends. -/
def resultsJsonSuffix : String := "results.json"

/-- How the name of the list of settings ends. -/
def settingsSuffix : String := "configuration.properties"

/-- The first line of a results log. -/
def resultsLogHeader : String :=
  Delimited.recordText
    ["operation_type", "scheduled_start_time", "actual_start_time", "execution_duration"]

/-- A record as a line of the results log, with times in nanoseconds. -/
def MetricsRecord.logLine (r : MetricsRecord) : String :=
  Delimited.recordText [r.operationType, toString r.scheduledStart.nanos,
    toString r.actualStart.nanos, toString r.executionDuration.nanos]

/-- The results log, as the text written so far. It never fails. -/
def resultsLog : Sink String where
  write r text := (.done, text ++ r.logLine)
  flush text := (.done, text)

namespace ResultsSnapshot

/-- The results document of a named run. -/
def document (s : ResultsSnapshot) (name : String) (summary : RunSummary) : Json :=
  .obj [("name", .str name), ("unit", s.unit.toJson),
    ("start_time", Json.ofOption Instant.toJson s.start),
    ("finish_time", Json.ofOption Instant.toJson s.finish),
    ("total_run_duration_ns", s.totalRunDuration.toJson), ("total_count", Json.nat s.totalCount),
    ("total_failures", Json.nat s.totalFailures), ("throughput_per_second", .double s.throughput),
    ("summary", summary.toJson),
    ("operations", Json.ofFields (s.operations.map fun o => (o.operationType, o.toJson)))]

/-- The text of the results document. -/
def documentText (s : ResultsSnapshot) (name : String) (summary : RunSummary) : String :=
  (s.document name summary).pretty ++ "\n"

/-- The results as a table. -/
def render (s : ResultsSnapshot) : String :=
  Text.table ["Operation", "Count", "Failed", "Min", "Mean", "P50", "P90", "P95", "P99", "Max"]
    (s.operations.map fun o =>
      [o.operationType, toString o.count, toString o.failures, toString o.minLatency,
        Decimal.fixed 2 o.meanLatency, toString o.p50Latency, toString o.p90Latency,
        toString o.p95Latency, toString o.p99Latency, toString o.maxLatency]) ++
  "\ntotal: " ++ toString s.totalCount ++ " operations, " ++ toString s.totalFailures ++
    " failed, " ++ s.totalRunDuration.toText ++ " elapsed, " ++ Decimal.fixed 2 s.throughput ++
    " ops/s (latencies in " ++ s.unit.name ++ ")"

end ResultsSnapshot

end WorkloadReplay
