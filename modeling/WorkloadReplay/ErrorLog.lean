import WorkloadReplay.ReplayError

/-!
# The error log of a run

Every component of a run reports its errors to one log. The first report is the signal to stop;
later ones are kept for the final account.
-/

namespace WorkloadReplay

/-- An error as it was reported. -/
structure ReportedError where
  source : String
  message : String
  deriving DecidableEq, Repr

/-- A reported error as one text. -/
def ReportedError.toText (e : ReportedError) : String := e.source ++ ": " ++ e.message

/-- The errors reported so far, in order. -/
structure ErrorLog where
  entries : List ReportedError
  deriving DecidableEq, Repr, Inhabited

namespace ErrorLog

/-- A log with no errors. -/
def empty : ErrorLog := ⟨[]⟩

/-- Reports an error. -/
def report (log : ErrorLog) (source message : String) : ErrorLog :=
  ⟨log.entries ++ [⟨source, message⟩]⟩

/-- Reports an error of a replay under the component that it comes from. -/
def reportError (log : ErrorLog) (e : ReplayError) : ErrorLog := log.report e.component e.message

/-- Some error has been reported. -/
def hasErrors (log : ErrorLog) : Bool := !log.entries.isEmpty

/-- The error reported first. -/
def first? (log : ErrorLog) : Option ReportedError := log.entries.head?

/-- The log as shown in messages. -/
def describe (log : ErrorLog) : String :=
  "ErrorReporter \x7b error_encountered: " ++ toString log.hasErrors ++ " \x7d"

/-- A report makes the log one entry longer. -/
@[simp] theorem entries_report (log : ErrorLog) (source message : String) :
    (log.report source message).entries = log.entries ++ [⟨source, message⟩] := rfl

/-- After a report the log has errors. -/
@[simp] theorem hasErrors_report (log : ErrorLog) (source message : String) :
    (log.report source message).hasErrors = true := by
  simp [hasErrors]

end ErrorLog

end WorkloadReplay
