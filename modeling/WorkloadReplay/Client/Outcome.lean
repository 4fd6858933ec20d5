import WorkloadReplay.Client.Error
import WorkloadReplay.ResultsDocument
import WorkloadReplay.Statistics
import WorkloadReplay.Validation.Database
import WorkloadReplay.Validation.Workload

/-!
# Outcomes of a client

What a run of a client mode answers when it comes to its end.
-/

namespace WorkloadReplay

/-- What a run of a client mode answers. -/
inductive ClientOutcome where
  | executed (report : ExecutionReport)
  | workloadValidated (v : WorkloadValidation)
  | databaseValidated (v : DatabaseValidation)
  | validationParamsCreated (path : String) (written : Nat)
  | statisticsCalculated (s : WorkloadStatistics)

namespace ClientOutcome

/-- No validation has found a problem. -/
def isSuccessful : ClientOutcome → Bool
  | workloadValidated v => v.isSuccessful
  | databaseValidated v => v.isSuccessful
  | _ => true

/-- The outcome as a text for the console. -/
def render : ClientOutcome → String
  | executed report => report.results.render
  | workloadValidated v => v.render
  | databaseValidated v => v.render
  | validationParamsCreated path written =>
    "wrote " ++ toString written ++ " validation params to " ++ path
  | statisticsCalculated s => s.render

end ClientOutcome

end WorkloadReplay
