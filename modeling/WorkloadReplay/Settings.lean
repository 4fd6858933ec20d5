import WorkloadReplay.Params
import WorkloadReplay.Files
import WorkloadReplay.Run.Config
import WorkloadReplay.Metrics.Snapshot
import WorkloadReplay.Stream.Limit

/-!
# Settings

Everything a user can choose: the mode, the workload and the database with their parameters, and how
the replay goes. `problems` lists what is wrong with settings, all at once; `properties` lists every
resolved option under a key, which is how settings are written down.
-/

namespace WorkloadReplay

/-- What is done with the workload and the database. -/
inductive ClientMode where
  | execute
  | validateWorkload
  | validateDatabase (paramsFile : String)
  | createValidationParams (paramsFile : String) (setSize : Nat)
  | calculateStatistics
  deriving DecidableEq, Inhabited

namespace ClientMode

/-- The name of a mode. -/
def name : ClientMode → String
  | execute => "execute"
  | validateWorkload => "validate_workload"
  | validateDatabase _ => "validate_database"
  | createValidationParams .. => "create_validation_params"
  | calculateStatistics => "calculate_statistics"

/-- The mode uses a database. -/
def needsDatabase : ClientMode → Bool
  | execute => true
  | validateDatabase _ => true
  | createValidationParams .. => true
  | _ => false

end ClientMode

/-- Every option, resolved. -/
structure Settings where
  mode : ClientMode := .execute
  /-- How the names of all files left behind begin. -/
  name : String := "benchdrive"
  database : Option String := none
  workload : Option String := none
  databaseParams : Params := Params.empty
  workloadParams : Params := Params.empty
  operationCount : Option Nat := none
  duration : Option Duration := none
  threadCount : Nat := 1
  maxInFlight : Nat := 100
  toleratedDelay : Duration := Duration.ofUnits .milli 100
  compressionRatio : Binary64 := Binary64.ofNat 1
  window : Option Duration := none
  peerIds : List String := []
  ignoreScheduledStarts : Bool := false
  resultsDir : Option String := none
  resultsLog : Bool := false
  timeUnit : TimeUnit := .milli
  statusInterval : Option Duration := none
  spinnerSleep : Duration := Duration.ofUnits .milli 1
  startDelay : Duration := Duration.ofUnits .second 10
  seed : Nat := 42
  queueCapacity : Nat := 10000
  initializationTimeout : Duration := Duration.ofUnits .second 5
  gctWaitTimeout : Duration := Duration.ofUnits .second 30
  drainGrace : Duration := Duration.ofUnits .minute 30

namespace Settings

/-- A problem, if there is one. -/
def problemIf (p : Bool) (text : String) : List String := if p then [text] else []

/-- What is wrong with the options of a replay. -/
def executionProblems (s : Settings) : List String :=
  problemIf (s.threadCount = 0) "thread count must be at least 1" ++
  problemIf (s.maxInFlight = 0) "max in-flight operations must be at least 1" ++
  problemIf (!(s.compressionRatio.isFinite && (Binary64.zero false).lt s.compressionRatio))
    ("compression ratio must be positive, got " ++ Decimal.toText s.compressionRatio) ++
  problemIf s.toleratedDelay.isNegative "tolerated delay must not be negative" ++
  problemIf s.spinnerSleep.isNegative "spinner sleep must not be negative" ++
  problemIf s.startDelay.isNegative "start delay must not be negative" ++
  problemIf (s.window.any fun w => w.nanos ≤ 0) "window must be positive" ++
  problemIf (s.statusInterval.any fun i => i.nanos ≤ 0) "status interval must be positive" ++
  problemIf (s.queueCapacity = 0) "metrics queue capacity must be at least 1" ++
  problemIf (s.resultsLog && s.resultsDir.isNone) "--results-log requires --results-dir"

/-- What is wrong with the options of the chosen mode. -/
def modeProblems (s : Settings) (fs : Files) : List String :=
  match s.mode with
  | .execute => s.executionProblems
  | .validateDatabase file =>
    problemIf (!fs.isFile file) ("validation params file " ++ file ++ " does not exist")
  | .createValidationParams _ setSize =>
    problemIf (setSize = 0) "--validation-set-size must be at least 1"
  | .validateWorkload => []
  | .calculateStatistics => []

/-- Everything that is wrong with settings, where the given files are there. -/
def problems (s : Settings) (fs : Files) : List String :=
  problemIf ((Text.trim s.name).isEmpty) "name must not be empty" ++
  problemIf s.workload.isNone ("--workload is required to " ++ s.mode.name) ++
  problemIf (s.mode.needsDatabase && s.database.isNone)
    ("--db is required to " ++ s.mode.name) ++
  s.modeProblems fs ++
  problemIf (s.operationCount.any (· = 0)) "operation count must be at least 1" ++
  problemIf (s.duration.any fun d => d.nanos ≤ 0) "duration must be positive"

/-- The limits of a run. -/
def limits (s : Settings) : Limits := ⟨s.operationCount, s.duration⟩

/-- The path of a file left behind. -/
def artifactPath (s : Settings) (dir suffix : String) : String :=
  joinPath dir (s.name ++ "-" ++ suffix)

/-- How the replay goes. -/
def runnerConfig (s : Settings) : RunnerConfig where
  threadCount := s.threadCount
  maxInFlight := s.maxInFlight
  toleratedDelay := s.toleratedDelay
  ignoreScheduledStarts := s.ignoreScheduledStarts
  delayPolicy := .terminate
  spinnerSleep := s.spinnerSleep
  window := s.window
  initializationTimeout := s.initializationTimeout
  gctWaitTimeout := s.gctWaitTimeout
  drainGrace := s.drainGrace
  statusInterval := s.statusInterval

/-- How records are collected. -/
def metricsConfig (s : Settings) : MetricsConfig where
  queueCapacity := s.queueCapacity
  timeUnit := s.timeUnit
  recordStartDelay := !s.ignoreScheduledStarts

/-- The options of the chosen mode that have a key of their own. -/
def modeProperties (s : Settings) : List (String × String) :=
  match s.mode with
  | .validateDatabase file => [("validation_params_file", file)]
  | .createValidationParams file setSize =>
    [("validation_params_file", file), ("validation_set_size", toString setSize)]
  | _ => []

/-- The nanoseconds of an optional duration, or nothing. -/
def nanosText (d : Option Duration) : String := d.elim "" fun d => toString d.nanos

/-- The options that every run has. -/
def commonProperties (s : Settings) : List (String × String) :=
  [("mode", s.mode.name), ("name", s.name), ("db", s.database.getD ""),
    ("workload", s.workload.getD ""), ("operation_count", s.operationCount.elim "" toString),
    ("duration_ns", nanosText s.duration), ("thread_count", toString s.threadCount),
    ("max_in_flight", toString s.maxInFlight),
    ("tolerated_delay_ns", toString s.toleratedDelay.nanos),
    ("compression_ratio", Decimal.toText s.compressionRatio), ("window_ns", nanosText s.window),
    ("peer_ids", String.intercalate "," s.peerIds),
    ("ignore_scheduled_start_times", toString s.ignoreScheduledStarts),
    ("results_dir", s.resultsDir.getD ""), ("results_log", toString s.resultsLog),
    ("time_unit", s.timeUnit.name), ("status_interval_ns", nanosText s.statusInterval),
    ("spinner_sleep_ns", toString s.spinnerSleep.nanos),
    ("start_delay_ns", toString s.startDelay.nanos), ("seed", toString s.seed),
    ("metrics_queue_capacity", toString s.queueCapacity),
    ("initialization_timeout_ns", toString s.initializationTimeout.nanos),
    ("gct_wait_timeout_ns", toString s.gctWaitTimeout.nanos),
    ("drain_grace_ns", toString s.drainGrace.nanos)]

/-- Every resolved option under its key, in the order of the keys. -/
def properties (s : Settings) : Params :=
  Params.ofList (s.commonProperties ++ s.modeProperties ++
    s.databaseParams.entries.map (fun (k, v) => ("db." ++ k, v)) ++
    s.workloadParams.entries.map (fun (k, v) => ("workload." ++ k, v)))

/-- A character of a value, as it is written in a line. -/
def escapeChar (c : Char) : List Char :=
  if c = '\\' then ['\\', '\\']
  else if c = '\n' then ['\\', 'n']
  else if c = '\r' then ['\\', 'r']
  else [c]

/-- A value with its backslashes and line breaks escaped. -/
def escape (value : String) : String := String.ofList (value.toList.flatMap escapeChar)

/-- Settings as a text: a line `key=value` for each option, in the order of the keys. -/
def toText (s : Settings) : String :=
  String.join (s.properties.entries.map fun (k, v) => k ++ "=" ++ escape v ++ "\n")

end Settings

end WorkloadReplay
