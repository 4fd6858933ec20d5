import WorkloadReplay.Client.Outcome
import WorkloadReplay.ErrorLog
import WorkloadReplay.Metrics.Pipeline
import WorkloadReplay.Registry
import WorkloadReplay.Settings

/-!
# Sessions of a client

A client mode is a sequence of steps over a `ClientState`, which holds the files, the states of the
database and the workload, and what has been opened and not closed yet. A step may stop the session,
with an error or because something breaks down; what it has done up to then stays done. The state
also keeps a trace of what is opened and closed and of every failure, in order.
-/

namespace WorkloadReplay

/-- Something that a session keeps in its trace. -/
inductive ClientEvent where
  /-- A database has been initialized. -/
  | databaseOpened
  /-- A database has been shut down, with an error or without. -/
  | databaseClosed
  /-- A workload has been initialized. -/
  | workloadOpened
  /-- A workload has been cleaned up, with an error or without. -/
  | workloadClosed
  /-- A step has failed. -/
  | failed (e : ClientError)
  /-- A component has reported an error while the workload was replayed. -/
  | reported (e : ReportedError)

/-- Why a session stops early. -/
inductive ClientStop where
  | failed (e : ClientError)
  | broken (b : Breakdown)

/-- The state of a session. -/
structure ClientState (δ ω P : Type) where
  files : Files
  /-- How files take up what is written to them. -/
  disk : Disk
  database : δ
  workload : ω
  /-- The database that is to be shut down. -/
  openDatabase : Option (Database δ P)
  /-- The workload that is to be cleaned up. -/
  openWorkload : Option (Workload ω P)
  /-- The metrics pipeline that is to be shut down. Its sink is the text of the results log. -/
  metrics : Option (MetricsPipeline String)
  /-- The path of the results log. -/
  logPath : Option String
  /-- How the results log takes up what is written to it. -/
  sink : Sink String
  /-- The errors reported while the workload was replayed. -/
  log : ErrorLog
  trace : List ClientEvent

/-- The steps of a session. -/
abbrev ClientM (δ ω P α : Type) := ExceptT ClientStop (StateM (ClientState δ ω P)) α

namespace Client

variable {δ ω P α : Type}

/-- The state at the beginning, with files and a results log that never fail. -/
def freshState (files : Files) (database : δ) (workload : ω) : ClientState δ ω P :=
  ⟨files, .sound, database, workload, none, none, none, none, resultsLog, ErrorLog.empty, []⟩

/-- Puts an event into the trace. -/
def note (e : ClientEvent) : ClientM δ ω P Unit :=
  modify fun s => { s with trace := s.trace ++ [e] }

/-- Stops with an error. -/
def stopWith (e : ClientError) : ClientM δ ω P α := do
  note (.failed e)
  throw (.failed e)

/-- Stops because something has broken down. -/
def breakDown (b : Breakdown) : ClientM δ ω P α := throw (.broken b)

/-- The answer of a step, which stops the session if it is an error. -/
def orStop : Except ClientError α → ClientM δ ω P α
  | .ok a => pure a
  | .error e => stopWith e

/-- The answer of a replay's step. -/
def orStopReplay : Except ReplayError α → ClientM δ ω P α
  | .ok a => pure a
  | .error (.panicked text) => breakDown (.panicked text)
  | .error e => stopWith (.replay e)

/-- The answer of a step that may break down. -/
def orBreakDown : Except Breakdown α → ClientM δ ω P α
  | .ok a => pure a
  | .error b => breakDown b

/-- The answer of a step that has failed before, with its failure in the trace. -/
def orRethrow : Except ClientError α → ClientM δ ω P α
  | .ok a => pure a
  | .error e => throw (.failed e)

/-- The answer of some steps, an error included. -/
def attempt (x : ClientM δ ω P α) : ClientM δ ω P (Except ClientError α) :=
  fun s =>
    match x s with
    | (.ok a, s) => (.ok (.ok a), s)
    | (.error (.failed e), s) => (.ok (.error e), s)
    | (.error (.broken b), s) => (.error (.broken b), s)

/-- An error that does not stop the session is noted as well. -/
def noteFailure (answer : Except ClientError Unit) : ClientM δ ω P (Except ClientError Unit) := do
  match answer with
  | .ok () => pure ()
  | .error e => note (.failed e)
  return answer

/-! ## Files -/

/-- The text of an error of a path under which nothing can be made. -/
def noFile : String := "No such file or directory"

/-- Makes the directory for results, where there may be one already. -/
def makeResultsDir (dir : String) (files : Files) : Except ClientError Files :=
  if files.isFile dir then
    .error (.settings ("results directory " ++ dir ++ " exists and is not a directory"))
  else
    match files.makeDirectories dir with
    | some files => .ok files
    | none => .error (.file noFile)

/-- Makes a file that begins with a text; `refusal` is the error if there cannot be one. -/
def writeFile (path text : String) (refusal : ClientError) : ClientM δ ω P Unit := do
  match (← get).files.write path text with
  | some files => modify fun s => { s with files := files }
  | none => stopWith refusal

/-- Completes a file with a text. -/
def completeFile (path text : String) : ClientM δ ω P Unit := do
  orStop (((← get).disk.flush path text).mapError .file)

/-- Makes a file of a whole text; `refusal` is the error if the disk does not take it. -/
def saveFile (path text : String) (refusal : String → ClientError) : ClientM δ ω P Unit := do
  let disk := (← get).disk
  writeFile path (disk.kept path text) (.file noFile)
  orStop ((disk.write path "" text).mapError refusal)
  completeFile path text

/-! ## Databases and workloads -/

/-- The name of a database or workload, which the mode needs. -/
def nameOr (missing : String) : Option String → Except ClientError String
  | some name => .ok name
  | none => .error (.settings missing)

/-- The database that settings name. -/
def chosenDatabase (s : Settings) (r : Registry δ ω P) : Except ClientError (Database δ P) :=
  (nameOr "no database configured" s.database).bind r.database

/-- The workload that settings name. -/
def chosenWorkload (s : Settings) (r : Registry δ ω P) : Except ClientError (Workload ω P) :=
  (nameOr "no workload configured" s.workload).bind r.workload

/-- Initializes the database that settings name. -/
def openDatabase (s : Settings) (r : Registry δ ω P) : ClientM δ ω P (Database δ P) := do
  let db ← orStop (chosenDatabase s r)
  let (answer, database) := db.init s.databaseParams db.fresh
  modify fun st => { st with database := database }
  match answer with
  | .error e => stopWith (.database e)
  | .ok () =>
    note .databaseOpened
    return db

/-- Initializes the workload that settings name. -/
def openWorkload (s : Settings) (r : Registry δ ω P) : ClientM δ ω P (Workload ω P) := do
  let w ← orStop (chosenWorkload s r)
  let (answer, workload) := w.init s.workloadParams w.fresh
  modify fun st => { st with workload := workload }
  match answer with
  | .error e => stopWith (.workload e)
  | .ok () =>
    note .workloadOpened
    return w

/-- Shuts a database down. -/
def closeDatabase (db : Database δ P) : ClientM δ ω P (Except ClientError Unit) := do
  note .databaseClosed
  let (answer, database) := db.shutdown (← get).database
  modify fun st => { st with database := database }
  noteFailure (answer.mapError .database)

/-- Cleans a workload up. -/
def closeWorkload (w : Workload ω P) : ClientM δ ω P (Except ClientError Unit) := do
  note .workloadClosed
  let (answer, workload) := w.cleanup (← get).workload
  modify fun st => { st with workload := workload }
  noteFailure (answer.mapError .workload)

/-- Builds the streams of a workload. -/
def buildStreams (w : Workload ω P) (seed : Nat) : ClientM δ ω P (List (OperationStream P)) := do
  let (answer, workload) := w.streams seed (← get).workload
  modify fun st => { st with workload := workload }
  match answer with
  | .ok streams => return streams
  | .error (.panicked text) => breakDown (.panicked text)
  | .error e => stopWith (.workload e)

end Client

end WorkloadReplay
