import WorkloadReplay.Client.Session
import WorkloadReplay.Run.Simulation
import WorkloadReplay.Stream.TimeMap

/-!
# Executions

An execution opens the database, the metrics pipeline and the workload, replays the workload, and
closes everything in reverse order. It comes in two parts, `prepare` before the run and `conclude`
after it, so that whoever plays the run may do so in any way. Of several errors the first counts;
errors that are reported during the run come before those of closing, but after an error that stops
the session itself.
-/

namespace WorkloadReplay

/-- A run that is ready to be played. -/
structure Execution (δ P : Type) where
  scene : Scene δ P String
  run : Run P String
  /-- The paths of the files written so far. -/
  artifacts : List String

namespace Client

variable {δ ω P α : Type}

/-- A limit is given in the time of the workload, and the replay moves faster by the ratio. -/
def scaledDuration (ratio : Binary64) :
    Option Duration → Except ClientError (Option Duration)
  | none => .ok none
  | some d =>
    match d.scale ratio with
    | some scaled => .ok (some scaled)
    | none =>
      .error (.settings ("duration " ++ d.toText ++ " scaled by " ++ Decimal.toText ratio ++
        " overflows"))

/-- The instant at which the workload is to start. -/
def startInstant (now : Instant) (delay : Duration) : Except ClientError Instant :=
  match now.add? delay with
  | some start => .ok start
  | none => .error (.settings "start delay overflows the clock")

/-- Makes the directory for results and writes the settings down. -/
def prepareArtifacts (s : Settings) : ClientM δ ω P (List String) := do
  match s.resultsDir with
  | none => return []
  | some dir =>
    let files ← orStop (makeResultsDir dir (← get).files)
    modify fun st => { st with files := files }
    let path := s.artifactPath dir settingsSuffix
    saveFile path s.toText .file
    return [path]

/-- Begins the results log, if there is to be one. -/
def prepareLog (s : Settings) : ClientM δ ω P (List String) := do
  match s.resultsDir, s.resultsLog with
  | some dir, true =>
    let path := s.artifactPath dir resultsLogSuffix
    writeFile path resultsLogHeader (.records noFile)
    modify fun st => { st with logPath := some path }
    return [path]
  | _, _ => return []

/-- Opens the metrics pipeline. -/
def openMetrics (s : Settings) : ClientM δ ω P (MetricsPipeline String) := do
  match MetricsPipeline.fresh s.metricsConfig resultsLogHeader (← get).logPath.isSome with
  | .error text => breakDown (.panicked text)
  | .ok metrics =>
    modify fun st => { st with metrics := some metrics }
    return metrics

/-- Opens everything and merges the streams of the workload, up to the run itself. -/
def prepare (s : Settings) (r : Registry δ ω P) (clock : Clock) :
    ClientM δ ω P (Execution δ P) := do
  let settingsPath ← prepareArtifacts s
  let db ← openDatabase s r
  modify fun st => { st with openDatabase := some db }
  let completion ← orStopReplay (CompletionService.start s.peerIds)
  let logPath ← prepareLog s
  let metrics ← openMetrics s
  let w ← openWorkload s r
  modify fun st => { st with openWorkload := some w }
  let streams ← buildStreams w s.seed
  let start ← orStop (startInstant (clock.read 0) s.startDelay)
  let mapped ← orStopReplay (Stream.timeMap streams start s.compressionRatio)
  let duration ← orStop (scaledDuration s.compressionRatio s.duration)
  let operations := limit ⟨s.operationCount, duration⟩ (merge mapped)
  return {
    scene := ⟨⟨s.runnerConfig, start, (← get).sink⟩, db, clock⟩
    run := Run.fresh operations completion metrics (← get).log
    artifacts := settingsPath ++ logPath }

/-- Shuts the metrics pipeline down, which completes the results log. -/
def closeMetrics : ClientM δ ω P (Except ClientError Unit) := do
  match (← get).metrics with
  | none => return .ok ()
  | some p =>
    let (answer, p, reports) := p.shutdown (← get).sink
    modify fun st => { st with
      metrics := some p
      log := reports.foldl (fun log text => log.report Collector.name text) st.log
      files := st.logPath.elim st.files fun path => st.files.add path p.collector.sink }
    for text in reports do note (.reported ⟨Collector.name, text⟩)
    noteFailure (answer.mapError .replay)

/-- Closes everything that is open, in the reverse order, and answers with the errors. -/
def closeAll : ClientM δ ω P (List ClientError) := do
  let s ← get
  let metrics ← closeMetrics
  modify fun st => { st with openDatabase := none, openWorkload := none }
  let database ← s.openDatabase.elim (pure (.ok ())) closeDatabase
  let workload ← s.openWorkload.elim (pure (.ok ())) closeWorkload
  return [metrics, database, workload].filterMap fun
    | .ok () => none
    | .error e => some e

/-- Takes over what a run has left. -/
def takeOver (run : Run P String) (database : δ) : ClientM δ ω P Unit := do
  modify fun st => { st with database := database, metrics := some run.metrics, log := run.log }
  for e in run.log.entries do note (.reported e)

/-- The report of a run that has ended. -/
def report (s : Settings) (x : Execution δ P) (run : Run P String) :
    ClientM δ ω P ExecutionReport := do
  match run.end? x.scene.setup with
  | none => breakDown .stuck
  | some (.panicked text) => breakDown (.panicked text)
  | some (.refused e) => stopWith (.replay e)
  | some (.finished summary) =>
    let closed ← closeMetrics
    orRethrow closed
    let results ← match (← get).metrics with
      | some p => orStopReplay p.results
      | none => stopWith (.replay .metricsNotFinalized)
    match s.resultsDir with
    | none => return ⟨summary, results, x.artifacts⟩
    | some dir =>
      let path := s.artifactPath dir resultsJsonSuffix
      saveFile path (results.documentText s.name summary) .json
      return ⟨summary, results, x.artifacts ++ [path]⟩

/-- Closes everything after an execution has been prepared and its run played, or has failed. -/
def finish (answer : Except ClientError ExecutionReport) : ClientM δ ω P ClientOutcome := do
  let errors ← closeAll
  let report ← orRethrow answer
  match (← get).log.first?, errors with
  | some first, _ => throw (.failed (.runFailed first.source first.message (some report)))
  | none, e :: _ => throw (.failed e)
  | none, [] => return .executed report

/-- The end of an execution after its run, which leaves the database in a state. -/
def conclude (s : Settings) (x : Execution δ P) (run : Run P String) (database : δ) :
    ClientM δ ω P ClientOutcome := do
  takeOver run database
  finish (← attempt (report s x run))

end Client

end WorkloadReplay
