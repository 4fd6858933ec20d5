import WorkloadReplay.Json.Decode

/-!
# Records of a run

What is known of one executed operation, and what is known of a run as a whole.
-/

namespace WorkloadReplay

/-- The outcome of one executed operation. -/
structure MetricsRecord where
  operationType : String
  scheduledStart : Instant
  actualStart : Instant
  executionDuration : Duration
  success : Bool
  deriving DecidableEq

namespace MetricsRecord

/-- How late the operation started, negative if it started early; none at all if the difference does
not fit. -/
def startDelay (r : MetricsRecord) : Duration :=
  (r.actualStart.since? r.scheduledStart).getD Duration.zero

/-- The end of the operation, or the last instant if that is too late. -/
def finish (r : MetricsRecord) : Instant := r.actualStart.addOrGreatest r.executionDuration

/-- The value a record is written as. -/
def toJson (r : MetricsRecord) : Json :=
  .obj [("operation_type", .str r.operationType), ("scheduled_start", r.scheduledStart.toJson),
    ("actual_start", r.actualStart.toJson), ("execution_duration", r.executionDuration.toJson),
    ("success", .bool r.success)]

/-- Reads a record. -/
def ofTree? (t : Json.Tree) : Option MetricsRecord := do
  let [operationType, scheduled, actual, duration, success] ← t.fields?
    ["operation_type", "scheduled_start", "actual_start", "execution_duration", "success"] | none
  some
    { operationType := ← Json.Tree.required? Json.Tree.toText? operationType
      scheduledStart := ← Json.Tree.required? Json.Tree.toInstant? scheduled
      actualStart := ← Json.Tree.required? Json.Tree.toInstant? actual
      executionDuration := ← Json.Tree.required? Json.Tree.toDuration? duration
      success := ← Json.Tree.required? Json.Tree.toBool? success }

end MetricsRecord

/-- An operation that was still going when the time for draining ran out. -/
structure AbandonedOperation where
  operationType : String
  scheduledStart : Instant
  deriving DecidableEq

namespace AbandonedOperation

/-- The order in which abandoned operations are listed: by start, then by type. -/
def before (a b : AbandonedOperation) : Bool :=
  a.scheduledStart < b.scheduledStart ||
    (a.scheduledStart == b.scheduledStart && decide (a.operationType ≤ b.operationType))

/-- The value an abandoned operation is written as. -/
def toJson (a : AbandonedOperation) : Json :=
  .obj [("operation_type", .str a.operationType), ("scheduled_start", a.scheduledStart.toJson)]

/-- Reads an abandoned operation. -/
def ofTree? (t : Json.Tree) : Option AbandonedOperation := do
  let [operationType, start] ← t.fields? ["operation_type", "scheduled_start"] | none
  some ⟨← Json.Tree.required? Json.Tree.toText? operationType,
    ← Json.Tree.required? Json.Tree.toInstant? start⟩

end AbandonedOperation

/-- How a run went, in numbers. -/
structure RunSummary where
  dispatched : Nat
  completed : Nat
  failed : Nat
  /-- Operations found later than tolerated. -/
  delayBreaches : Nat
  start : Option Instant
  finish : Option Instant
  abandoned : List AbandonedOperation
  deriving DecidableEq, Inhabited

namespace RunSummary

/-- The value a summary is written as. -/
def toJson (s : RunSummary) : Json :=
  .obj [("dispatched", Json.nat s.dispatched), ("completed", Json.nat s.completed),
    ("failed", Json.nat s.failed), ("delay_breaches", Json.nat s.delayBreaches),
    ("start", Json.ofOption Instant.toJson s.start),
    ("finish", Json.ofOption Instant.toJson s.finish),
    ("abandoned", Json.ofList AbandonedOperation.toJson s.abandoned)]

/-- Reads a summary. -/
def ofTree? (t : Json.Tree) : Option RunSummary := do
  let [dispatched, completed, failed, breaches, start, finish, abandoned] ← t.fields?
    ["dispatched", "completed", "failed", "delay_breaches", "start", "finish", "abandoned"] | none
  some
    { dispatched := ← Json.Tree.required? Json.Tree.toWord? dispatched
      completed := ← Json.Tree.required? Json.Tree.toWord? completed
      failed := ← Json.Tree.required? Json.Tree.toWord? failed
      delayBreaches := ← Json.Tree.required? Json.Tree.toWord? breaches
      start := ← Json.Tree.optional? Json.Tree.toInstant? start
      finish := ← Json.Tree.optional? Json.Tree.toInstant? finish
      abandoned :=
        ← Json.Tree.required? (Json.Tree.toList? AbandonedOperation.ofTree?) abandoned }

end RunSummary

end WorkloadReplay
