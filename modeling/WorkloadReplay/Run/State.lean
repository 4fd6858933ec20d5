import WorkloadReplay.Completion.Tracker
import WorkloadReplay.Database
import WorkloadReplay.ErrorLog
import WorkloadReplay.Metrics.Pipeline
import WorkloadReplay.Run.Batch
import WorkloadReplay.Run.Delay
import WorkloadReplay.Run.Flow

/-!
# The state of a run

A run dispatches the operations of a merged sequence in order. One scheduler goes through the
sequence; each operation that it dispatches gets a handler, which lives on its own: it waits for a
worker, calls the database, and submits a record of the call. `Run` is the state of all of them
together with the services that they use.
-/

namespace WorkloadReplay

/-- Where the handler of an operation stands. -/
inductive HandlerPhase where
  /-- It waits for a worker. -/
  | waiting
  /-- It has a worker, and the database is executing its operation since an instant. -/
  | executing (start : Instant)
  /-- The database has answered, and the record waits for room in the metrics queue. -/
  | submitting (record : MetricsRecord)
  deriving DecidableEq

/-- The handler of a dispatched operation. -/
structure Handler (P : Type) where
  /-- The number of the operation among those dispatched. -/
  number : Nat
  scheduled : ScheduledOperation P
  phase : HandlerPhase

/-- The database is executing the operation of a handler. -/
def Handler.isExecuting {P : Type} (h : Handler P) : Bool :=
  match h.phase with
  | .executing _ => true
  | _ => false

/-- Where the scheduler stands. -/
inductive SchedulerPhase (P : Type) where
  /-- Before the run. -/
  | idle
  /-- It waits until every peer has reached the start of the run. -/
  | awaitingPeers
  /-- It looks for the next batch. -/
  | pulling
  /-- It sleeps until the first operation of a batch is due. -/
  | sleeping (first : ScheduledOperation P) (others : List (ScheduledOperation P))
  /-- It goes through a batch. -/
  | dispatching (batch : List (ScheduledOperation P))
  /-- It waits until an operation's dependency time is reached. -/
  | gating (next : ScheduledOperation P) (batch : List (ScheduledOperation P))
  /-- It checks how late an operation is. -/
  | judging (next : ScheduledOperation P) (batch : List (ScheduledOperation P))
  /-- It waits for a permit for an operation. -/
  | admitting (next : ScheduledOperation P) (batch : List (ScheduledOperation P))
  /-- It waits for the handlers that are left. -/
  | draining
  /-- After the run. -/
  | terminated (finish : Instant)
  /-- The run could not begin. -/
  | refused (e : ReplayError)
  /-- The scheduler broke down, with a text. -/
  | broken (text : String)

/-- The state of a scheduler as it is shown. -/
def SchedulerPhase.runnerState {P : Type} : SchedulerPhase P → RunnerState
  | idle => .idle
  | awaitingPeers => .initializing
  | draining => .draining
  | terminated _ => .terminated
  | refused _ => .terminated
  | broken _ => .running
  | pulling => .running
  | sleeping .. => .running
  | dispatching _ => .running
  | gating .. => .running
  | judging .. => .running
  | admitting .. => .running

/-- How a run is set up. -/
structure RunSetup (κ : Type) where
  config : RunnerConfig
  /-- The start onto which the operations' times have been moved. -/
  start : Instant
  sink : Sink κ

/-- The state of a run over operations with payloads of type `P`, with a log of records in states of
type `κ`. -/
structure Run (P κ : Type) where
  phase : SchedulerPhase P
  /-- The operations that the scheduler has not looked at yet. -/
  operations : Schedule P
  completion : CompletionService
  /-- The tracker of this peer; there is none where there are no peers. -/
  tracker : Option CompletionTracker
  metrics : MetricsPipeline κ
  log : ErrorLog
  flow : FlowControl
  /-- The handlers alive, in the order of their dispatch. -/
  handlers : List (Handler P)
  /-- How handlers ended that the scheduler has not taken notice of, in the order of their ends. -/
  finished : List (Except ReplayError Unit)
  /-- The numbers of dispatched operations with no record yet, and those operations. -/
  unrecorded : List (Nat × AbandonedOperation)
  /-- The operations dispatched so far, in order. -/
  dispatched : Array (ScheduledOperation P)
  /-- Operations whose handlers came to a good end. -/
  completed : Nat
  /-- Those of them that the database refused. -/
  failed : Nat
  /-- Operations found later than tolerated. -/
  delayBreaches : Nat
  abandoned : List AbandonedOperation
  /-- Database calls that go on although their handlers are gone. -/
  orphanedCalls : Nat

namespace Run

variable {P κ : Type}

/-- A run that has not begun, with services that others may use too. -/
def fresh (operations : Schedule P) (completion : CompletionService)
    (metrics : MetricsPipeline κ) (log : ErrorLog) : Run P κ where
  phase := .idle
  operations := operations
  completion := completion
  tracker := none
  metrics := metrics
  log := log
  flow := ⟨⟨0, false⟩, ⟨0, false⟩⟩
  handlers := []
  finished := []
  unrecorded := []
  dispatched := #[]
  completed := 0
  failed := 0
  delayBreaches := 0
  abandoned := []
  orphanedCalls := 0

/-- How a run went, in numbers. -/
def summary (r : Run P κ) (start finish : Instant) : RunSummary where
  dispatched := r.dispatched.size
  completed := r.completed
  failed := r.failed
  delayBreaches := r.delayBreaches
  start := some start
  finish := some finish
  abandoned := r.abandoned

/-- The database calls that are going on. -/
def callsInProgress (r : Run P κ) : Nat :=
  r.handlers.countP Handler.isExecuting + r.orphanedCalls

end Run

end WorkloadReplay
