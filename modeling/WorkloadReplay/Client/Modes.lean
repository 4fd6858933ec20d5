import WorkloadReplay.Client.Execution

/-!
# Client modes

`Client.begin` checks settings and runs the chosen mode, up to the run of an execution; `Client.run`
plays that run as a simulation and comes to the end.
-/

namespace WorkloadReplay

namespace Client

variable {δ ω P α : Type}

/-- Settings with nothing wrong about them. -/
def checkSettings (s : Settings) : ClientM δ ω P Unit := do
  match s.problems (← get).files with
  | [] => return ()
  | problems => stopWith (.settings (String.intercalate "; " problems))

/-- Checks the streams of the workload. -/
def validateWorkload (s : Settings) (r : Registry δ ω P) (codec : PayloadCodec P) :
    ClientM δ ω P ClientOutcome := do
  let w ← openWorkload s r
  let (answer, workload) :=
    WorkloadValidation.ofWorkload codec w s.seed s.limits (← get).workload
  modify fun st => { st with workload := workload }
  let v ← orBreakDown answer
  orRethrow (← closeWorkload w)
  return .workloadValidated v

/-- Compares the results of the database with those of a file. -/
def validateDatabase (s : Settings) (r : Registry δ ω P) (codec : PayloadCodec P) (path : String) :
    ClientM δ ω P ClientOutcome := do
  let text ← match (← get).files.read? path with
    | some text => pure text
    | none => stopWith (.records noFile)
  let params ← orStop (ParamsFile.read codec path text)
  let db ← openDatabase s r
  let (answer, database) := DatabaseValidation.ofParams db {} params (← get).database
  modify fun st => { st with database := database }
  let v ← orBreakDown answer
  orRethrow (← closeDatabase db)
  return .databaseValidated v

/-- Makes the directory of a file. -/
def makeParent (path : String) : ClientM δ ω P Unit := do
  match (← get).files.makeDirectories ((parentPath? path).getD "") with
  | some files => modify fun st => { st with files := files }
  | none => stopWith (.file noFile)

/-- Records operations of the workload and their results in a file. -/
def createValidationParams (s : Settings) (r : Registry δ ω P) (codec : PayloadCodec P)
    (path : String) (size : Nat) : ClientM δ ω P ClientOutcome := do
  makeParent path
  writeFile path "" (.records noFile)
  let w ← openWorkload s r
  let db ← openDatabase s r
  let st ← get
  let (answer, recording, workload) :=
    ParamsFile.record codec db w s.seed size st.database st.workload (st.disk.write path)
  set { st with
    database := recording.database
    workload := workload
    files := st.files.add path (st.disk.kept path recording.file.text) }
  let answer ← orBreakDown answer
  let answer ← noteFailure answer
  let _ ← closeDatabase db
  let _ ← closeWorkload w
  orRethrow answer
  completeFile path recording.file.text
  return .validationParamsCreated path recording.file.written

/-- Counts the operations of the workload. -/
def calculateStatistics (s : Settings) (r : Registry δ ω P) : ClientM δ ω P ClientOutcome := do
  let w ← openWorkload s r
  let streams ← buildStreams w s.seed
  let statistics ← attempt
    (orStopReplay (WorkloadStatistics.ofSchedule (limit s.limits (merge streams))))
  orRethrow (← closeWorkload w)
  return .statisticsCalculated (← orRethrow statistics)

/-- How far a session has come. -/
inductive Stage (δ ω P : Type) where
  /-- It has ended. -/
  | ended (answer : Except ClientStop ClientOutcome) (state : ClientState δ ω P)
  /-- A run is to be played. -/
  | ready (x : Execution δ P) (state : ClientState δ ω P)

/-- A session that ends with some steps. -/
def Stage.ofSteps (x : ClientM δ ω P ClientOutcome) (s : ClientState δ ω P) : Stage δ ω P :=
  let (answer, s) := x s
  .ended answer s

/-- The beginning of an execution. One that cannot be prepared ends. -/
def beginExecution (s : Settings) (r : Registry δ ω P) (clock : Clock)
    (state : ClientState δ ω P) : Stage δ ω P :=
  match attempt (prepare s r clock) state with
  | (.ok (.ok x), state) => .ready x state
  | (.ok (.error e), state) => .ofSteps (finish (.error e)) state
  | (.error stop, state) => .ended (.error stop) state

/-- Checks settings and runs the chosen mode, up to the run of an execution. -/
def begin (s : Settings) (r : Registry δ ω P) (codec : PayloadCodec P) (clock : Clock)
    (state : ClientState δ ω P) : Stage δ ω P :=
  match checkSettings s state with
  | (.error stop, state) => .ended (.error stop) state
  | (.ok (), state) =>
    match s.mode with
    | .execute => beginExecution s r clock state
    | .validateWorkload => .ofSteps (validateWorkload s r codec) state
    | .validateDatabase path => .ofSteps (validateDatabase s r codec path) state
    | .createValidationParams path size =>
      .ofSteps (createValidationParams s r codec path size) state
    | .calculateStatistics => .ofSteps (calculateStatistics s r) state

/-- Runs the mode that settings choose, an execution as a simulation. -/
def run (s : Settings) (r : Registry δ ω P) (codec : PayloadCodec P) (clock : Clock)
    (state : ClientState δ ω P) : Except ClientStop ClientOutcome × ClientState δ ω P :=
  match begin s r codec clock state with
  | .ended answer state => (answer, state)
  | .ready x state =>
    let played := Simulation.simulate x.scene x.run state.database []
    conclude s x played.run played.database state

end Client

end WorkloadReplay
