import WorkloadReplay.ReplayError
import WorkloadReplay.Workload
import WorkloadReplay.Database
import WorkloadReplay.Metrics.Snapshot

/-!
# Errors of a client

How a run of a client mode fails. A replay that stops early still has results, and its error carries
them.
-/

namespace WorkloadReplay

/-- What an execution leaves. -/
structure ExecutionReport where
  summary : RunSummary
  results : ResultsSnapshot
  /-- The paths of the files written. -/
  artifacts : List String

/-- Why a run of a client mode fails. -/
inductive ClientError where
  | settings (text : String)
  | replay (e : ReplayError)
  | database (e : DatabaseError)
  | workload (e : WorkloadError)
  /-- A file or directory cannot be used. -/
  | file (text : String)
  /-- A file of delimited records is not well formed. -/
  | records (text : String)
  /-- A text is not the JSON that it should be. -/
  | json (text : String)
  | validation (text : String)
  /-- A component reported an error while the workload was replayed. -/
  | runFailed (component message : String) (report : Option ExecutionReport)
  /-- A name is not registered. -/
  | unknownPlugin (kind name available : String)

namespace ClientError

/-- The component that an error is attributed to. -/
def component : ClientError → String
  | settings _ => "configuration"
  | replay e => e.component
  | database _ => "database"
  | workload _ => "workload"
  | file _ => "io"
  | records _ => "csv"
  | json _ => "json"
  | validation _ => "validation"
  | runFailed component .. => component
  | unknownPlugin .. => "registry"

/-- What an error says beside its component. -/
def detail : ClientError → String
  | settings text => text
  | replay e => e.message
  | database e => e.message
  | workload e => e.message
  | file text => text
  | records text => text
  | json text => text
  | validation text => text
  | runFailed _ message _ => message
  | unknownPlugin kind name available =>
    "no " ++ kind ++ " named " ++ Text.quote name ++ " (available: " ++ available ++ ")"

/-- The wording of an error. -/
def message (e : ClientError) : String := e.component ++ ": " ++ e.detail

/-- The results of a replay that stopped early. -/
def partialReport? : ClientError → Option ExecutionReport
  | runFailed _ _ report => report
  | _ => none

end ClientError

end WorkloadReplay
