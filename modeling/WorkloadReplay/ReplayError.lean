import WorkloadReplay.Time.Instant

/-!
# Errors of a replay

What can go wrong between building the streams of a workload and the end of its replay, with the
wording of each error and the component that it is attributed to.
-/

namespace WorkloadReplay

/-- Why a replay, or a service it uses, fails. -/
inductive ReplayError where
  /-- The streams of the workload cannot be merged or moved. -/
  | streamConstruction (text : String)
  /-- A peer reported times out of order. -/
  | completionTimeOrdering (text : String)
  /-- A service was used after it was closed. -/
  | serviceClosed (service : String)
  /-- Every peer slot is taken. -/
  | noPeerSlots (configured : Nat)
  /-- The global completion time was waited for in vain. -/
  | gctTimeout (target : Instant) (timeout : Duration)
  /-- An operation is about to start too late. -/
  | executionDelay (operationType : String) (start : Instant) (delay tolerated : Duration)
  /-- The database refused an operation. -/
  | operationExecution (operationType : String) (start : Instant) (reason : String)
  /-- An operation was still going when the time for draining ran out. -/
  | drainTimeout (operationType : String) (start : Instant) (grace : Duration)
  /-- Results were asked for before there were any. -/
  | metricsNotFinalized
  | invalidState (text : String)
  /-- A task ended without an answer. -/
  | join (text : String)
  | time (e : TimeError)
  /-- The workload broke down while its operations were computed; what goes through them does so
  too. -/
  | panicked (text : String)
  deriving DecidableEq

namespace ReplayError

/-- The wording of an error. -/
def message : ReplayError → String
  | streamConstruction text => "stream construction failed: " ++ text
  | completionTimeOrdering text => "completion time ordering violated: " ++ text
  | serviceClosed service => service ++ " is closed"
  | noPeerSlots n => "no free peer slots (" ++ toString n ++ " configured)"
  | gctTimeout target timeout =>
    "global completion time did not reach " ++ target.toText ++ " within " ++ timeout.toText
  | executionDelay operationType start delay tolerated =>
    operationType ++ " scheduled at " ++ start.toText ++ " started " ++ delay.toText ++
      " late (tolerated " ++ tolerated.toText ++ ")"
  | operationExecution operationType start reason =>
    operationType ++ " scheduled at " ++ start.toText ++ " failed: " ++ reason
  | drainTimeout operationType start grace =>
    operationType ++ " scheduled at " ++ start.toText ++ " did not finish within " ++ grace.toText
  | metricsNotFinalized => "results requested before shutdown"
  | invalidState text => "invalid state: " ++ text
  | join text => "task join failure: " ++ text
  | time e => e.message
  | panicked text => text

/-- The component that an error comes from. -/
def component : ReplayError → String
  | streamConstruction _ => "stream merger"
  | completionTimeOrdering _ => "completion time service"
  | noPeerSlots _ => "completion time service"
  | serviceClosed service => service
  | gctTimeout .. => "workload runner"
  | executionDelay .. => "workload runner"
  | drainTimeout .. => "workload runner"
  | invalidState _ => "workload runner"
  | join _ => "workload runner"
  | operationExecution .. => "database"
  | metricsNotFinalized => "metrics service"
  | time _ => "time"
  | panicked _ => "workload"

end ReplayError

end WorkloadReplay
