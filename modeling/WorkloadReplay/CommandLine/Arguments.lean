import WorkloadReplay.Settings

/-!
# Arguments of the command

What can be said on the command line, each argument absent unless it is given, and the settings that
arguments stand for.
-/

namespace WorkloadReplay

/-- What is said on the command line. -/
structure Arguments where
  database : Option String := none
  workload : Option String := none
  operationCount : Option Nat := none
  durationMillis : Option Int := none
  threads : Option Nat := none
  toleratedDelayMillis : Option Int := none
  compressionRatio : Option Binary64 := none
  windowMillis : Option Int := none
  peerIds : List String := []
  ignoreScheduledStarts : Bool := false
  resultsDir : Option String := none
  name : Option String := none
  resultsLog : Bool := false
  timeUnit : Option TimeUnit := none
  statusIntervalMillis : Option Int := none
  spinnerSleepMillis : Option Int := none
  startDelayMillis : Option Int := none
  seed : Option Nat := none
  databaseParams : List (String × String) := []
  workloadParams : List (String × String) := []
  validateWorkload : Bool := false
  validateDatabase : Option String := none
  createValidationParams : Option String := none
  validationSetSize : Option Nat := none
  calculateStatistics : Bool := false
  verbose : Bool := false

namespace Arguments

/-- The mode that arguments choose. -/
def mode (a : Arguments) : ClientMode :=
  if a.validateWorkload then .validateWorkload
  else
    match a.validateDatabase, a.createValidationParams with
    | some file, _ => .validateDatabase file
    | none, some file => .createValidationParams file (a.validationSetSize.getD 0)
    | none, none => if a.calculateStatistics then .calculateStatistics else .execute

/-- A number of milliseconds as a duration. -/
def millis (n : Int) : Duration := Duration.ofUnits .milli n

/-- The settings that arguments stand for; what they do not say is as it is by default. -/
def settings (a : Arguments) : Settings :=
  let d : Settings := {}
  { mode := a.mode
    name := a.name.getD d.name
    database := a.database
    workload := a.workload
    databaseParams := Params.ofList a.databaseParams
    workloadParams := Params.ofList a.workloadParams
    operationCount := a.operationCount
    duration := a.durationMillis.map millis
    threadCount := a.threads.getD d.threadCount
    toleratedDelay := (a.toleratedDelayMillis.map millis).getD d.toleratedDelay
    compressionRatio := a.compressionRatio.getD d.compressionRatio
    window := a.windowMillis.map millis
    peerIds := a.peerIds
    ignoreScheduledStarts := a.ignoreScheduledStarts
    resultsDir := a.resultsDir
    resultsLog := a.resultsLog
    timeUnit := a.timeUnit.getD d.timeUnit
    statusInterval := a.statusIntervalMillis.map millis
    spinnerSleep := (a.spinnerSleepMillis.map millis).getD d.spinnerSleep
    startDelay := (a.startDelayMillis.map millis).getD d.startDelay
    seed := a.seed.getD d.seed }

end Arguments

end WorkloadReplay
