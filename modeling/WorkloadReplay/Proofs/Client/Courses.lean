import WorkloadReplay.Proofs.Client.Reports
import WorkloadReplay.Proofs.Client.Traces
import WorkloadReplay.Proofs.Run.Refusals

/-!
# The courses of sessions

`course_of_ends` says once, for all modes, what a session leaves when it comes to its end: its
answer, what it has opened and closed and which failures there were, in order, and the last call
that the database and the workload have seen. There is one kind of course for each way in which the
steps of a mode can fail.

The run of an execution may be played in any way in which nobody else reports an error.
-/

namespace WorkloadReplay

namespace Client

variable {δ ω P α β : Type} {s : Settings} {r : Registry δ ω P} {codec : PayloadCodec P}
  {clock : Clock} {state st t : ClientState δ ω P}

/-- A session in which nothing has happened yet. -/
structure IsNew (st : ClientState δ ω P) : Prop where
  trace : st.trace = []
  openDatabase : st.openDatabase = none
  openWorkload : st.openWorkload = none
  log : st.log = .empty

/-- The ways in which a session may end, with its answer and the state that it leaves. Its run takes
any events that it can take, in any order; only nobody else reports an error, and nothing is known
of the state in which the run leaves the database. -/
inductive Ends (s : Settings) (r : Registry δ ω P) (codec : PayloadCodec P) (clock : Clock)
    (state : ClientState δ ω P) :
    Except ClientStop ClientOutcome → ClientState δ ω P → Prop
  | ended {answer : Except ClientStop ClientOutcome} {st : ClientState δ ω P}
    (h : begin s r codec clock state = .ended answer st) : Ends s r codec clock state answer st
  | played {x : Execution δ P} {st : ClientState δ ω P} {events : List RunEvent}
    {run : Run P String} (h : begin s r codec clock state = .ready x st)
    (hs : x.run.steps x.scene.setup events = some run)
    (hquiet : ∀ source message, .report source message ∉ events) (database : δ) :
    Ends s r codec clock state (conclude s x run database st).1 (conclude s x run database st).2

/-- A session that plays its run as a simulation ends in one of these ways. -/
theorem ends_run (s : Settings) (r : Registry δ ω P) (codec : PayloadCodec P) (clock : Clock)
    (state : ClientState δ ω P) :
    Ends s r codec clock state (run s r codec clock state).1 (run s r codec clock state).2 := by
  unfold run
  cases hbegin : begin s r codec clock state with
  | ended answer st => exact .ended hbegin
  | ready x st =>
    obtain ⟨events, hs, hinside⟩ := Simulation.simulate_steps x.scene x.run st.database
    exact .played hbegin hs (fun source message hmem => hinside _ hmem trivial) _

/-- The error with which a session has stopped, unless something has broken down. -/
def error? : Except ClientStop ClientOutcome → Option ClientError
  | .error (.failed e) => some e
  | _ => none

/-! ## Courses -/

/-- The settings name a database, and it can be initialized. -/
def OpensDatabase (s : Settings) (r : Registry δ ω P) (db : Database δ P) : Prop :=
  chosenDatabase s r = .ok db ∧ (db.init s.databaseParams db.fresh).1 = .ok ()

/-- The settings name a workload, and it can be initialized. -/
def OpensWorkload (s : Settings) (r : Registry δ ω P) (w : Workload ω P) : Prop :=
  chosenWorkload s r = .ok w ∧ (w.init s.workloadParams w.fresh).1 = .ok ()

/-- Such a database is opened. -/
theorem openDatabase_run {db : Database δ P} (h : OpensDatabase s r db) (st : ClientState δ ω P) :
    openDatabase s r st = (.ok db, { st with
      database := initialDatabase s db, trace := st.trace ++ [.databaseOpened] }) := by
  obtain ⟨hchosen, hinit⟩ := h
  unfold openDatabase initialDatabase
  rw [hchosen, orStop, pure_bind]
  rcases hanswer : db.init s.databaseParams db.fresh with ⟨answer, database⟩
  rw [hanswer] at hinit
  obtain rfl : answer = .ok () := hinit
  rfl

/-- Such a workload is opened. -/
theorem openWorkload_run {w : Workload ω P} (h : OpensWorkload s r w) (st : ClientState δ ω P) :
    openWorkload s r st = (.ok w, { st with
      workload := initialWorkload s w, trace := st.trace ++ [.workloadOpened] }) := by
  obtain ⟨hchosen, hinit⟩ := h
  unfold openWorkload initialWorkload
  rw [hchosen, orStop, pure_bind]
  rcases hanswer : w.init s.workloadParams w.fresh with ⟨answer, workload⟩
  rw [hanswer] at hinit
  obtain rfl : answer = .ok () := hinit
  rfl

/-- The event of opening something, if it is opened. -/
def opening {γ : Type} (thing : Option γ) (event : ClientEvent) : List ClientEvent :=
  thing.elim [] fun _ => [event]

/-- The last call that a database has seen is its shutdown. -/
def IsShutDown (db : Database δ P) (st : ClientState δ ω P) : Prop :=
  ∃ σ, st.database = (db.shutdown σ).2

/-- The last call that a workload has seen is its cleanup. -/
def IsCleanedUp (w : Workload ω P) (st : ClientState δ ω P) : Prop :=
  ∃ σ, st.workload = (w.cleanup σ).2

/-- The answer of an execution: its own error, or else the first of those reported during the run,
or else the first of those of closing. -/
def verdict : Except ClientError ExecutionReport → List ReportedError → List ClientError →
    Except ClientError ClientOutcome
  | .error e, _, _ => .error e
  | .ok rep, first :: _, _ => .error (.runFailed first.source first.message (some rep))
  | .ok _, [], e :: _ => .error e
  | .ok rep, [], [] => .ok (.executed rep)

/-- The failure of a step that is taken only after another one has not failed. -/
def failureAfter : Except ClientError Unit → Except ClientError Unit → List ClientEvent
  | .ok _, answer => failure answer
  | .error _, _ => []

/-- An error about the results of an execution or the file that they are put into. -/
inductive ConcernsResults : ClientError → Prop
  | replay (e : ReplayError) : ConcernsResults (.replay e)
  | file (text : String) : ConcernsResults (.file text)
  | json (text : String) : ConcernsResults (.json text)

/-- How an execution comes out after its run, with the errors that have been reported by then. -/
inductive ComesOut : List ReportedError → Except ClientError ExecutionReport → Prop
  /-- The run is refused, and nothing but the refusal is reported, if that is. -/
  | refused {reports : List ReportedError} {e : ReplayError}
    (h : reports = [] ∨ reports = [e.asReported]) : ComesOut reports (.error (.replay e))
  /-- The run has ended. There may be no results, or no way to write them. -/
  | finished {reports : List ReportedError} {execution : Except ClientError ExecutionReport}
    (h : ∀ e, execution = .error e → ConcernsResults e) : ComesOut reports execution

/-- The course of a session that ends in a state: its trace and its answer. -/
inductive Course (s : Settings) (r : Registry δ ω P) (st : ClientState δ ω P) :
    List ClientEvent → Except ClientError ClientOutcome → Prop
  /-- The session stops before it has opened anything. -/
  | stopped {e : ClientError} : Course s r st [.failed e] (.error e)
  | workloadChecked {w : Workload ω P} {v : ClientOutcome} {cleanup : Except ClientError Unit}
    (hmode : s.mode = .validateWorkload) (hw : OpensWorkload s r w) (hclosed : IsCleanedUp w st) :
    Course s r st (.workloadOpened :: .workloadClosed :: failure cleanup) (cleanup.map fun _ => v)
  | databaseChecked {db : Database δ P} {v : ClientOutcome} {path : String}
    {shutdown : Except ClientError Unit} (hmode : s.mode = .validateDatabase path)
    (hdb : OpensDatabase s r db) (hclosed : IsShutDown db st) :
    Course s r st (.databaseOpened :: .databaseClosed :: failure shutdown)
      (shutdown.map fun _ => v)
  /-- There is no database to record the results of. -/
  | unrecorded {w : Workload ω P} {path : String} {size : Nat} {e : ClientError}
    (hmode : s.mode = .createValidationParams path size) (hw : OpensWorkload s r w)
    (hdb : ∀ db, ¬ OpensDatabase s r db) :
    Course s r st [.workloadOpened, .failed e] (.error e)
  /-- Whatever closing comes to, the file is completed, unless the recording has failed. -/
  | recorded {w : Workload ω P} {db : Database δ P} {path : String} {size : Nat}
    {v : ClientOutcome} {recording : Except ClientError Unit}
    {shutdown : Except DatabaseError Unit} {cleanup : Except WorkloadError Unit}
    {completion : Except String Unit} (hmode : s.mode = .createValidationParams path size)
    (hw : OpensWorkload s r w) (hdb : OpensDatabase s r db) (hclosed : IsCleanedUp w st)
    (hclosed' : IsShutDown db st) :
    Course s r st
      (.workloadOpened :: .databaseOpened :: (failure recording ++
        .databaseClosed :: (failure (shutdown.mapError .database) ++
          .workloadClosed :: (failure (cleanup.mapError .workload) ++
            failureAfter recording (completion.mapError .file)))))
      ((recording.bind fun _ => completion.mapError .file).map fun _ => v)
  /-- The workload has no streams to count. -/
  | unbuilt {w : Workload ω P} {e : WorkloadError} (hmode : s.mode = .calculateStatistics)
    (hw : OpensWorkload s r w) (hstreams : (w.streams s.seed (initialWorkload s w)).1 = .error e) :
    Course s r st [.workloadOpened, .failed (.workload e)] (.error (.workload e))
  | counted {w : Workload ω P} {streams : List (OperationStream P)}
    {statistics : Except ReplayError WorkloadStatistics} {cleanup : Except WorkloadError Unit}
    (hmode : s.mode = .calculateStatistics) (hw : OpensWorkload s r w)
    (hstreams : (w.streams s.seed (initialWorkload s w)).1 = .ok streams)
    (hclosed : IsCleanedUp w st) :
    Course s r st
      (.workloadOpened :: (failure (statistics.mapError .replay) ++
        .workloadClosed :: failure (cleanup.mapError .workload)))
      ((cleanup.mapError .workload).bind fun _ =>
        (statistics.mapError .replay).map .statisticsCalculated)
  /-- An execution cannot be prepared, and what it has opened is closed. -/
  | unprepared {db : Option (Database δ P)} {w : Option (Workload ω P)} {e : ClientError}
    {events : List ClientEvent} {reports : List ReportedError} {errors : List ClientError}
    (hmode : s.mode = .execute) (hdb : ∀ x, db = some x → OpensDatabase s r x)
    (hw : ∀ x, w = some x → OpensWorkload s r x)
    (hclosed : ClosesAll db w events reports errors st) :
    Course s r st
      (opening db .databaseOpened ++ opening w .workloadOpened ++ .failed e :: events) (.error e)
  /-- An execution has been played to the end of its run, and everything is closed. -/
  | executed {db : Option (Database δ P)} {w : Option (Workload ω P)}
    {execution : Except ClientError ExecutionReport} {events : List ClientEvent}
    {reports more : List ReportedError} {errors : List ClientError} (hmode : s.mode = .execute)
    (hdb : ∀ x, db = some x → OpensDatabase s r x) (hw : ∀ x, w = some x → OpensWorkload s r x)
    (hout : ComesOut reports execution) (hclosed : ClosesAll db w events more errors st) :
    Course s r st
      (opening db .databaseOpened ++ opening w .workloadOpened ++
        (reports.map .reported ++ failure execution ++ events))
      (verdict execution (reports ++ more) errors)

/-- A session has come to its end by one of these courses, or something has broken down. -/
def Concludes (s : Settings) (r : Registry δ ω P) :
    Except ClientStop ClientOutcome → ClientState δ ω P → Prop
  | .ok outcome, st => Course s r st st.trace (.ok outcome)
  | .error (.failed e), st => Course s r st st.trace (.error e)
  | .error (.broken _), _ => True

/-- An answer that has not broken down is that of a course. -/
theorem concludes_of_course {answer : Except ClientError ClientOutcome}
    (h : Course s r st st.trace answer) : Concludes s r (answer.mapError .failed) st := by
  cases answer <;> exact h

/-! ## The modes without a run -/

/-- Plain steps that come to their end leave a new session new. -/
theorem IsNew.passes {a : α} (h : IsNew st) (hp : Passes st (.ok a) t) : IsNew t where
  trace := hp.trace_eq.trans h.trace
  openDatabase := hp.openDatabase.trans h.openDatabase
  openWorkload := hp.openWorkload.trans h.openWorkload
  log := hp.log.trans h.log

/-- Plain steps that stop a new session are the whole of its course. -/
theorem concludes_of_stop {stop : ClientStop} (h : IsNew st)
    (hp : Passes st (.error stop : Except ClientStop α) t) : Concludes s r (.error stop) t := by
  cases stop with
  | failed e =>
    have htrace : t.trace = [.failed e] := by
      rw [hp.trace, h.trace]
      rfl
    change Course s r t t.trace (.error e)
    rw [htrace]
    exact .stopped
  | broken b => trivial

/-- Plain steps at the beginning of a session, and then others. -/
theorem concludes_bind (h : IsNew st) {x : ClientM δ ω P α} (hx : Plain x)
    {f : α → ClientM δ ω P ClientOutcome}
    (hf : ∀ a t, IsNew t → Concludes s r (f a t).1 (f a t).2) :
    Concludes s r ((x >>= f) st).1 ((x >>= f) st).2 := by
  have hp := hx st
  obtain ⟨stop, t, hxt, heq⟩ | ⟨a, t, hxt, heq⟩ := bind_cases x f st
  · rw [heq]
    rw [hxt] at hp
    exact concludes_of_stop h hp
  · rw [heq]
    rw [hxt] at hp
    exact hf a t (h.passes hp)

/-- A workload is opened at the beginning of a session, and then there are other steps. -/
theorem concludes_openWorkload (h : IsNew st) {f : Workload ω P → ClientM δ ω P ClientOutcome}
    (hf : ∀ w t, OpensWorkload s r w → t.trace = [.workloadOpened] →
      t.workload = initialWorkload s w → Concludes s r (f w t).1 (f w t).2) :
    Concludes s r ((openWorkload s r >>= f) st).1 ((openWorkload s r >>= f) st).2 := by
  rw [bind_run]
  obtain ⟨e, t, hopen, hp, -⟩ | ⟨w, hchosen, hinit, hopen⟩ := openWorkload_cases s r st
  · rw [hopen]
    exact concludes_of_stop h hp
  · rw [hopen]
    refine hf w _ ⟨hchosen, hinit⟩ ?_ rfl
    dsimp only
    rw [h.trace, List.nil_append]

/-- An answer that is rethrown, and then something is made of it. -/
theorem orRethrow_map_run (answer : Except ClientError α) (f : α → β) (st : ClientState δ ω P) :
    (orRethrow answer >>= fun a => pure (f a)) st = ((answer.map f).mapError .failed, st) := by
  cases answer <;> rfl

/-- A file is completed, which may stop the session. -/
theorem completeFile_run (path text : String) (st : ClientState δ ω P) :
    completeFile path text st =
      (((st.disk.flush path text).mapError .file).mapError .failed,
        { st with trace := st.trace ++ failure ((st.disk.flush path text).mapError .file) }) := by
  unfold completeFile
  rw [bind_get]
  cases st.disk.flush path text with
  | ok u =>
    change (_, st) = (_, { st with trace := st.trace ++ [] })
    rw [List.append_nil]
    rfl
  | error text => rfl

/-- An answer is rethrown, and after one that is no error a file is completed. -/
theorem orRethrow_completeFile_run (answer : Except ClientError Unit) (path text : String) (v : β)
    (st : ClientState δ ω P) :
    (orRethrow answer >>= fun _ => completeFile path text >>= fun _ => pure v) st =
      let completion := (st.disk.flush path text).mapError .file
      (((answer.bind fun _ => completion).map fun _ => v).mapError .failed,
        { st with trace := st.trace ++ failureAfter answer completion }) := by
  cases answer with
  | error e =>
    change (_, st) = (_, { st with trace := st.trace ++ [] })
    rw [List.append_nil]
    rfl
  | ok u =>
    rw [orRethrow, pure_bind, bind_run, completeFile_run]
    cases st.disk.flush path text <;> rfl

/-- Two answers that are rethrown, and then something is made of the second one. -/
theorem orRethrow_both_run (first : Except ClientError α) (second : Except ClientError β)
    (f : β → ClientOutcome) (st : ClientState δ ω P) :
    (orRethrow first >>= fun _ => orRethrow second >>= fun b => pure (f b)) st =
      ((first.bind fun _ => second.map f).mapError .failed, st) := by
  cases first with
  | error e => rfl
  | ok a => exact orRethrow_map_run second f st

/-- The check of a workload. -/
theorem concludes_validateWorkload (hmode : s.mode = .validateWorkload) (h : IsNew st) :
    Concludes s r (validateWorkload s r codec st).1 (validateWorkload s r codec st).2 := by
  unfold validateWorkload
  refine concludes_openWorkload h fun w t hw htrace _ => ?_
  rw [bind_get]
  rcases WorkloadValidation.ofWorkload codec w s.seed s.limits t.workload with ⟨answer, workload⟩
  dsimp only
  rw [bind_modify]
  cases answer with
  | error b => trivial
  | ok v =>
    rw [orBreakDown, pure_bind, bind_run, closeWorkload_run]
    dsimp only
    rw [orRethrow_map_run]
    apply concludes_of_course
    dsimp only
    rw [htrace]
    exact .workloadChecked hmode hw ⟨workload, rfl⟩

/-- The comparison of a database with recorded results. -/
theorem concludes_validateDatabase {path : String} (hmode : s.mode = .validateDatabase path)
    (h : IsNew st) : Concludes s r (validateDatabase s r codec path st).1
      (validateDatabase s r codec path st).2 := by
  unfold validateDatabase
  refine concludes_bind h plain_get fun st' t h => ?_
  dsimp only
  cases st'.files.read? path with
  | none =>
    dsimp only
    rw [bind_run]
    exact concludes_of_stop h (plain_stopWith (α := String) _ t)
  | some text =>
    dsimp only
    rw [pure_bind]
    refine concludes_bind h (plain_orStop _) fun params t h => ?_
    rw [bind_run]
    obtain ⟨e, t', hopen, hp, -⟩ | ⟨db, hchosen, hinit, hopen⟩ := openDatabase_cases s r t
    · rw [hopen]
      exact concludes_of_stop h hp
    · rw [hopen]
      dsimp only
      rw [bind_get]
      rcases DatabaseValidation.ofParams db {} params (initialDatabase s db) with ⟨answer, database⟩
      dsimp only
      rw [bind_modify]
      cases answer with
      | error b => trivial
      | ok v =>
        rw [orBreakDown, pure_bind, bind_run, closeDatabase_run]
        dsimp only
        rw [orRethrow_map_run]
        apply concludes_of_course
        dsimp only
        rw [h.trace, List.nil_append]
        exact .databaseChecked hmode ⟨hchosen, hinit⟩ ⟨database, rfl⟩

/-- There is no database to record the results of, where none can be opened. -/
theorem not_opensDatabase {e : ClientError} (h : openDatabase s r st = (.error (.failed e), t))
    (db : Database δ P) : ¬ OpensDatabase s r db := by
  intro hopens
  rw [openDatabase_run hopens] at h
  have hok : (.ok db : Except ClientStop (Database δ P)) = .error (.failed e) := congrArg Prod.fst h
  simp at hok

/-- The recording of results. -/
theorem concludes_createValidationParams {path : String} {size : Nat}
    (hmode : s.mode = .createValidationParams path size) (h : IsNew st) :
    Concludes s r (createValidationParams s r codec path size st).1
      (createValidationParams s r codec path size st).2 := by
  unfold createValidationParams
  refine concludes_bind h (plain_makeParent path) fun _ t h => ?_
  refine concludes_bind h (plain_writeFile path "" _) fun _ t h => ?_
  refine concludes_openWorkload h fun w t hw htrace _ => ?_
  rw [bind_run]
  obtain ⟨e, t', hopen, hp, -⟩ | ⟨db, hchosen, hinit, hopen⟩ := openDatabase_cases s r t
  · rw [hopen]
    have htrace' : t'.trace = [.workloadOpened, .failed e] := by
      rw [hp.trace, htrace]
      rfl
    change Course s r t' t'.trace (.error e)
    rw [htrace']
    exact .unrecorded hmode hw (not_opensDatabase hopen)
  · rw [hopen]
    dsimp only
    rw [bind_get]
    dsimp only
    rcases ParamsFile.record codec db w s.seed size (initialDatabase s db) t.workload
      (t.disk.write path) with ⟨answer, recording, workload⟩
    dsimp only
    rw [bind_set]
    cases answer with
    | error b => trivial
    | ok answer =>
      -- The error of the recording is noted now and rethrown after both have been closed.
      rw [orBreakDown, pure_bind, bind_run, noteFailure_run]
      dsimp only
      rw [bind_run, closeDatabase_run]
      dsimp only
      rw [bind_run, closeWorkload_run]
      dsimp only
      rw [orRethrow_completeFile_run]
      apply concludes_of_course
      dsimp only
      rw [htrace]
      simp only [List.append_assoc, List.cons_append, List.nil_append]
      exact .recorded hmode hw ⟨hchosen, hinit⟩ ⟨workload, rfl⟩ ⟨recording.database, rfl⟩

/-- Steps that have broken down do so when they are attempted. -/
theorem attempt_of_broken {steps : ClientM δ ω P α} {b : Breakdown}
    (h : steps st = (.error (.broken b), t)) : attempt steps st = (.error (.broken b), t) := by
  unfold attempt
  rw [h]

/-- Otherwise their answer is that of the attempt. -/
theorem attempt_of_answer {steps : ClientM δ ω P α} (answer : Except ClientError α)
    (h : steps st = (answer.mapError .failed, t)) : attempt steps st = (.ok answer, t) := by
  unfold attempt
  rw [h]
  cases answer <;> rfl

/-- A replay's answer that is attempted: what is not the text of a breakdown is the answer, with an
error noted. -/
theorem attempt_orStopReplay_run (answer : Except ReplayError α) (st : ClientState δ ω P) :
    (∃ b, attempt (orStopReplay answer) st = (.error (.broken b), st)) ∨
      attempt (orStopReplay answer) st = (.ok (answer.mapError .replay),
        { st with trace := st.trace ++ failure (answer.mapError .replay) }) := by
  cases answer with
  | ok a =>
    right
    change (_, st) = (_, { st with trace := st.trace ++ [] })
    rw [List.append_nil]
    rfl
  | error e =>
    cases e with
    | panicked text => exact .inl ⟨.panicked text, rfl⟩
    | _ => exact .inr rfl

/-- Streams are built, or the workload has failed to build them. -/
theorem buildStreams_cases (w : Workload ω P) (seed : Nat) (st : ClientState δ ω P) :
    (∃ b t, buildStreams w seed st = (.error (.broken b), t)) ∨
      (∃ e t, (w.streams seed st.workload).1 = .error e ∧
        buildStreams w seed st = (.error (.failed (.workload e)), t) ∧
        t.trace = st.trace ++ [.failed (.workload e)]) ∨
      ∃ streams t, (w.streams seed st.workload).1 = .ok streams ∧
        buildStreams w seed st = (.ok streams, t) ∧ t.trace = st.trace := by
  unfold buildStreams
  rw [bind_get]
  rcases w.streams seed st.workload with ⟨e | streams, workload⟩
  · cases e with
    | panicked text => exact .inl ⟨.panicked text, _, rfl⟩
    | _ => exact .inr (.inl ⟨_, _, rfl, rfl, rfl⟩)
  · exact .inr (.inr ⟨streams, _, rfl, rfl, rfl⟩)

/-- The counting of operations. -/
theorem concludes_calculateStatistics (hmode : s.mode = .calculateStatistics) (h : IsNew st) :
    Concludes s r (calculateStatistics s r st).1 (calculateStatistics s r st).2 := by
  unfold calculateStatistics
  refine concludes_openWorkload h fun w t hw htrace hstate => ?_
  rw [bind_run]
  obtain ⟨b, t', hbroken⟩ | ⟨e, t', hstreams, hbuilt, htrace'⟩ | ⟨streams, t', hstreams, hbuilt,
    htrace'⟩ := buildStreams_cases w s.seed t
  · rw [hbroken]
    trivial
  · rw [hbuilt]
    rw [htrace] at htrace'
    rw [hstate] at hstreams
    change Course s r t' t'.trace (.error (.workload e))
    rw [htrace']
    exact .unbuilt hmode hw hstreams
  · rw [hbuilt]
    rw [htrace] at htrace'
    rw [hstate] at hstreams
    dsimp only
    rw [bind_run]
    obtain ⟨b, hbroken⟩ | hcounted := attempt_orStopReplay_run
      (WorkloadStatistics.ofSchedule (limit s.limits (merge streams))) t'
    · rw [hbroken]
      trivial
    · -- The count is kept, and the workload is cleaned up before either error is rethrown.
      rw [hcounted]
      dsimp only
      rw [bind_run, closeWorkload_run]
      dsimp only
      rw [orRethrow_both_run]
      apply concludes_of_course
      dsimp only
      rw [htrace']
      simp only [List.cons_append, List.nil_append]
      exact .counted hmode hw hstreams ⟨t'.workload, rfl⟩

/-! ## Executions -/

section Executing

variable {db : Option (Database δ P)} {w : Option (Workload ω P)} {events : List ClientEvent}

/-- A session that is opening what an execution needs. It may have opened a database, a workload,
both in this order, or nothing; then there are some events, and nothing is reported. -/
structure HasOpened (s : Settings) (r : Registry δ ω P) (db : Option (Database δ P))
    (w : Option (Workload ω P)) (events : List ClientEvent) (st : ClientState δ ω P) : Prop where
  trace : st.trace = opening db .databaseOpened ++ opening w .workloadOpened ++ events
  openDatabase : st.openDatabase = db
  openWorkload : st.openWorkload = w
  log : st.log = .empty
  database : ∀ x, db = some x → OpensDatabase s r x
  workload : ∀ x, w = some x → OpensWorkload s r x

/-- A new session has opened nothing. -/
theorem IsNew.hasOpened (h : IsNew st) : HasOpened s r none none [] st where
  trace := h.trace
  openDatabase := h.openDatabase
  openWorkload := h.openWorkload
  log := h.log
  database := by simp
  workload := by simp

/-- Plain steps open nothing more. -/
theorem HasOpened.passes {answer : Except ClientStop α} (h : HasOpened s r db w [] st)
    (hp : Passes st answer t) : HasOpened s r db w (stopping answer) t where
  trace := by rw [hp.trace, h.trace, List.append_nil]
  openDatabase := hp.openDatabase.trans h.openDatabase
  openWorkload := hp.openWorkload.trans h.openWorkload
  log := hp.log.trans h.log
  database := h.database
  workload := h.workload

/-- The preparation of an execution ends with something opened, or nothing, and with its error if it
has failed. -/
def Prepares (s : Settings) (r : Registry δ ω P) (answer : Except ClientStop α)
    (st : ClientState δ ω P) : Prop :=
  ∃ db w, HasOpened s r db w (stopping answer) st

/-- An error with which a step stops is that of all the preparation. -/
theorem HasOpened.prepares {stop : ClientStop}
    (h : HasOpened s r db w (stopping (.error stop : Except ClientStop α)) st) :
    Prepares s r (.error stop : Except ClientStop β) st := by
  refine ⟨db, w, ?_⟩
  cases stop <;> exact h

/-- Plain steps, and then others. -/
theorem prepares_bind (h : HasOpened s r db w [] st) {x : ClientM δ ω P α} (hx : Plain x)
    {f : α → ClientM δ ω P β}
    (hf : ∀ a t, HasOpened s r db w [] t → Prepares s r (f a t).1 (f a t).2) :
    Prepares s r ((x >>= f) st).1 ((x >>= f) st).2 := by
  have hp := h.passes (hx st)
  obtain ⟨stop, t, hxt, heq⟩ | ⟨a, t, hxt, heq⟩ := bind_cases x f st
  · rw [heq]
    rw [hxt] at hp
    exact hp.prepares
  · rw [heq]
    rw [hxt] at hp
    exact hf a t hp

/-- The database is opened, and the session keeps it. -/
theorem prepares_openDatabase (h : HasOpened s r none none [] st)
    {f : Database δ P → ClientM δ ω P β}
    (hf : ∀ db t, HasOpened s r (some db) none [] t → Prepares s r (f db t).1 (f db t).2) :
    let steps := openDatabase s r >>= fun db =>
      modify (fun st => { st with openDatabase := some db }) >>= fun _ => f db
    Prepares s r (steps st).1 (steps st).2 := by
  intro steps
  obtain ⟨e, t, hopen, hp, -⟩ | ⟨db, hchosen, hinit, hopen⟩ := openDatabase_cases s r st
  · simp only [steps, bind_run, hopen]
    exact (h.passes hp).prepares
  · simp only [steps, bind_run, hopen]
    refine hf db _ ⟨?_, rfl, h.openWorkload, h.log, fun x hx => ?_, by simp⟩
    · exact congrArg (· ++ [ClientEvent.databaseOpened]) h.trace
    · exact Option.some.inj hx ▸ ⟨hchosen, hinit⟩

/-- The workload is opened, and the session keeps it. -/
theorem prepares_openWorkload (h : HasOpened s r db none [] st)
    {f : Workload ω P → ClientM δ ω P β}
    (hf : ∀ w t, HasOpened s r db (some w) [] t → Prepares s r (f w t).1 (f w t).2) :
    let steps := openWorkload s r >>= fun w =>
      modify (fun st => { st with openWorkload := some w }) >>= fun _ => f w
    Prepares s r (steps st).1 (steps st).2 := by
  intro steps
  obtain ⟨e, t, hopen, hp, -⟩ | ⟨w, hchosen, hinit, hopen⟩ := openWorkload_cases s r st
  · simp only [steps, bind_run, hopen]
    exact (h.passes hp).prepares
  · simp only [steps, bind_run, hopen]
    refine hf w _ ⟨?_, h.openDatabase, rfl, h.log, h.database, fun x hx => ?_⟩
    · simp [h.trace, opening]
    · exact Option.some.inj hx ▸ ⟨hchosen, hinit⟩

/-- The preparation of an execution. -/
theorem prepares_prepare (clock : Clock) (h : IsNew st) :
    Prepares s r (prepare s r clock st).1 (prepare s r clock st).2 := by
  refine prepares_bind h.hasOpened (plain_prepareArtifacts s) fun settingsPath t h => ?_
  refine prepares_openDatabase h fun db t h => ?_
  refine prepares_bind h (plain_orStopReplay _) fun completion t h => ?_
  refine prepares_bind h (plain_prepareLog s) fun logPath t h => ?_
  refine prepares_bind h (plain_openMetrics s) fun metrics t h => ?_
  refine prepares_openWorkload h fun w t h => ?_
  -- Both are open now, and closing them is left to the end of the execution.
  refine prepares_bind h (plain_buildStreams w s.seed) fun streams t h => ?_
  refine prepares_bind h (plain_orStop _) fun start t h => ?_
  refine prepares_bind h (plain_orStopReplay _) fun mapped t h => ?_
  refine prepares_bind h (plain_orStop _) fun duration t h => ?_
  exact ⟨some db, some w, h⟩

end Executing

/-! ### After the run -/

section Playing

variable {x : Execution δ P} {run : Run P String}

/-- Everything is closed after an execution, and its answer is the verdict. -/
theorem finish_run (execution : Except ClientError ExecutionReport) (st : ClientState δ ω P) :
    ∃ events reports errors t,
      finish execution st =
        ((verdict execution (st.log.entries ++ reports) errors).mapError .failed, t) ∧
      ClosesAll st.openDatabase st.openWorkload events reports errors t ∧
      t.trace = st.trace ++ events := by
  obtain ⟨events, reports, errors, t, hclosed, hcloses, htrace, hlog⟩ := closeAll_cases st
  refine ⟨events, reports, errors, t, ?_, hcloses, htrace⟩
  unfold finish
  rw [bind_run, hclosed, ← hlog]
  cases execution with
  | error e => rfl
  | ok rep =>
    dsimp only
    rw [orRethrow, pure_bind, bind_get, ErrorLog.first?]
    -- The log is looked at after closing, with what has been reported meanwhile.
    cases t.log.entries with
    | cons first rest => rfl
    | nil => cases errors <;> rfl

/-- A file is saved, unless it cannot be made, does not take up its text or cannot be completed. -/
theorem saveFile_answer (path text : String) (refusal : String → ClientError)
    (st : ClientState δ ω P) : ∃ answer : Except ClientError Unit,
    (saveFile path text refusal st).1 = answer.mapError .failed ∧
      ∀ e, answer = .error e → ∃ text, e = .file text ∨ e = refusal text := by
  unfold saveFile writeFile
  rw [bind_get, bind_run, bind_get]
  cases st.files.write path (st.disk.kept path text) with
  | none => exact ⟨.error (.file noFile), rfl, fun e he => ⟨_, .inl (Except.error.inj he).symm⟩⟩
  | some files =>
    dsimp only
    cases st.disk.write path "" text with
    | error text =>
      exact ⟨.error (refusal text), rfl, fun e he => ⟨_, .inr (Except.error.inj he).symm⟩⟩
    | ok u =>
      refine ⟨(st.disk.flush path text).mapError .file, ?_, fun e he => ?_⟩
      · change (completeFile path text { st with files := files }).1 = _
        rw [completeFile_run]
      · obtain ⟨text, -, rfl⟩ := eq_error_of_mapError he
        exact ⟨text, .inl rfl⟩

/-- A report is written. Only its file can fail. -/
theorem writeReport_cases (s : Settings) (x : Execution δ P) (summary : RunSummary)
    (results : ResultsSnapshot) (st : ClientState δ ω P) : ∃ execution t,
    writeReport s x summary results st = (execution.mapError .failed, t) ∧
      Adds st (failure execution) [] t ∧ ∀ e, execution = .error e → ConcernsResults e := by
  unfold writeReport
  cases s.resultsDir with
  | none => exact ⟨.ok _, st, rfl, .refl st, by simp⟩
  | some dir =>
    dsimp only
    generalize s.artifactPath dir resultsJsonSuffix = path
    obtain ⟨answer, hanswer, hkind⟩ :=
      saveFile_answer path (results.documentText s.name summary) .json st
    have hp := (plain_saveFile path (results.documentText s.name summary) .json st).adds
    rw [hanswer] at hp
    rw [bind_run]
    rcases hsaved : saveFile path (results.documentText s.name summary) .json st with ⟨_, t⟩
    rw [hsaved] at hanswer hp
    dsimp only at hanswer hp
    subst hanswer
    cases answer with
    | ok u => exact ⟨.ok _, t, rfl, hp, by simp⟩
    | error e =>
      refine ⟨.error e, t, rfl, hp, fun e' he' => ?_⟩
      obtain rfl := Except.error.inj he'
      obtain ⟨text, rfl | rfl⟩ := hkind e rfl
      · exact .file text
      · exact .json text

/-- A run that is refused is in the phase of that. -/
theorem phase_of_refused {setup : RunSetup String} {e : ReplayError}
    (h : run.end? setup = some (.refused e)) : run.phase = .refused e := by
  unfold Run.end? at h
  split at h
  case h_2 hphase =>
    obtain rfl := Run.RunEnd.refused.inj (Option.some.inj h)
    exact hphase
  all_goals simp at h

/-- What a report comes to, with the errors that are reported meanwhile. -/
inductive Delivers (run : Run P String) : List ReportedError →
    Except ClientError ExecutionReport → Prop
  | refused {e : ReplayError} (h : run.phase = .refused e) : Delivers run [] (.error (.replay e))
  | finished {reports : List ReportedError} {execution : Except ClientError ExecutionReport}
    (h : ∀ e, execution = .error e → ConcernsResults e) : Delivers run reports execution

/-- The report of a run that has ended. -/
theorem report_cases (s : Settings) (x : Execution δ P) (run : Run P String)
    (st : ClientState δ ω P) :
    (∃ b t, report s x run st = (.error (.broken b), t)) ∨
      ∃ execution reports t, report s x run st = (execution.mapError .failed, t) ∧
        Adds st (reports.map .reported ++ failure execution) reports t ∧
        Delivers run reports execution := by
  unfold report
  rcases hend : run.end? x.scene.setup with _ | (summary | e | text)
  · exact .inl ⟨.stuck, st, rfl⟩
  · dsimp only
    obtain ⟨reports, answer, t, hclosed, hadds, hkind⟩ := closeMetrics_cases st
    rw [bind_run, hclosed]
    cases answer with
    | error e =>
      obtain ⟨e, rfl⟩ := hkind _ rfl
      refine .inr ⟨.error (.replay e), reports, t, rfl, hadds, .finished fun e' he' => ?_⟩
      exact Except.error.inj he' ▸ .replay e
    | ok u =>
      -- From here on, nothing is reported any more.
      have hthen : ∀ {execution : Except ClientError ExecutionReport} {t'},
          Adds t (failure execution) [] t' →
            Adds st (reports.map .reported ++ failure execution) reports t' := by
        intro execution t' h
        simpa [failure] using hadds.trans h
      dsimp only
      rw [orRethrow, pure_bind, bind_get]
      cases t.metrics with
      | none =>
        exact .inr ⟨.error (.replay .metricsNotFinalized), reports, _, rfl,
          hthen (plain_stopWith (α := Unit) _ t).adds,
          .finished fun e he => Except.error.inj he ▸ .replay _⟩
      | some p =>
        dsimp only
        rw [bind_run]
        cases p.results with
        | ok results =>
          obtain ⟨execution, t', hwritten, hadds', hkind⟩ :=
            writeReport_cases s x summary results t
          exact .inr ⟨execution, reports, t', hwritten, hthen hadds',
            .finished hkind⟩
        | error e =>
          cases e with
          | panicked text => exact .inl ⟨.panicked text, t, rfl⟩
          | _ =>
            exact .inr ⟨.error (.replay _), reports, _, rfl,
              hthen (plain_stopWith (α := Unit) _ t).adds,
              .finished fun e he => Except.error.inj he ▸ .replay _⟩
  · right
    refine ⟨.error (.replay e), [], _, rfl, ⟨rfl, (List.append_nil _).symm, rfl, rfl⟩, .refused ?_⟩
    exact phase_of_refused hend
  · exact .inl ⟨.panicked text, st, rfl⟩

/-- The end of an execution whose run has been played. -/
theorem concludes_conclude {db : Option (Database δ P)} {w : Option (Workload ω P)}
    (hmode : s.mode = .execute) (h : HasOpened s r db w [] st)
    (hrefused : ∀ e, run.phase = .refused e →
      run.log.entries = [] ∨ run.log.entries = [e.asReported]) (database : δ) :
    Concludes s r (conclude s x run database st).1 (conclude s x run database st).2 := by
  unfold conclude
  rw [bind_run, takeOver_run]
  dsimp only
  rw [bind_run]
  generalize htaken : ({ st with
    database := database, metrics := some run.metrics, log := run.log
    trace := st.trace ++ run.log.entries.map .reported } : ClientState δ ω P) = taken
  obtain ⟨b, t, hbroken⟩ | ⟨execution, reports, t, hreport, hadds, hdelivers⟩ :=
    report_cases s x run taken
  · rw [attempt_of_broken hbroken]
    trivial
  · rw [attempt_of_answer execution hreport]
    dsimp only
    obtain ⟨events, more, errors, t', hfinish, hclosed, htrace⟩ := finish_run execution t
    have hout : ComesOut (run.log.entries ++ reports) execution := by
      cases hdelivers with
      | refused hphase =>
        rw [List.append_nil]
        exact .refused (hrefused _ hphase)
      | finished hkind => exact .finished hkind
    have hlog : t.log.entries = run.log.entries ++ reports := by
      rw [hadds.log, ← htaken]
    have htrace' : t'.trace = opening db .databaseOpened ++ opening w .workloadOpened ++
        ((run.log.entries ++ reports).map .reported ++ failure execution ++ events) := by
      rw [htrace, hadds.trace, ← htaken]
      dsimp only
      rw [h.trace]
      simp only [List.append_assoc, List.nil_append, List.map_append]
    rw [hadds.openDatabase, hadds.openWorkload, ← htaken] at hclosed
    dsimp only at hclosed
    rw [h.openDatabase, h.openWorkload] at hclosed
    rw [hfinish]
    apply concludes_of_course
    rw [htrace', hlog]
    exact .executed hmode h.database h.workload hout hclosed

end Playing

/-! ## All modes -/

/-- The beginning of a new session: it is over with that, or an execution has been prepared. -/
inductive Begins (s : Settings) (r : Registry δ ω P) (clock : Clock) : Stage δ ω P → Prop
  | ended {answer : Except ClientStop ClientOutcome} {st : ClientState δ ω P}
    (h : Concludes s r answer st) : Begins s r clock (.ended answer st)
  | ready {x : Execution δ P} {st₀ st : ClientState δ ω P} {db : Option (Database δ P)}
    {w : Option (Workload ω P)} (hmode : s.mode = .execute) (hopened : HasOpened s r db w [] st)
    (hprepare : prepare s r clock st₀ = (.ok x, st)) : Begins s r clock (.ready x st)

/-- A session that is over with some steps. -/
theorem begins_ofSteps {steps : ClientM δ ω P ClientOutcome}
    (h : Concludes s r (steps st).1 (steps st).2) : Begins s r clock (.ofSteps steps st) :=
  .ended h

/-- An execution begins. If it cannot be prepared, everything is closed. -/
theorem begins_beginExecution (hmode : s.mode = .execute) (h : IsNew st) :
    Begins s r clock (beginExecution s r clock st) := by
  obtain ⟨db, w, hopened⟩ := prepares_prepare (r := r) clock h
  unfold beginExecution
  rcases hprepare : prepare s r clock st with ⟨(e | b) | x, t⟩
  · rw [hprepare] at hopened
    obtain ⟨events, reports, errors, t', hfinish, hclosed, htrace⟩ :=
      finish_run (.error e) t
    rw [hopened.openDatabase, hopened.openWorkload] at hclosed
    rw [hopened.trace] at htrace
    rw [attempt_of_answer (.error e) hprepare]
    apply begins_ofSteps
    rw [hfinish]
    change Course s r t' t'.trace (.error e)
    rw [htrace, List.append_assoc]
    exact .unprepared hmode hopened.database hopened.workload hclosed
  · rw [attempt_of_broken hprepare]
    exact .ended trivial
  · rw [hprepare] at hopened
    rw [attempt_of_answer (.ok x) hprepare]
    exact .ready hmode hopened hprepare

/-- A new session begins in this way. -/
theorem begins_begin (h : IsNew st) : Begins s r clock (begin s r codec clock st) := by
  have hp := plain_checkSettings s st
  unfold begin
  rcases hchecked : checkSettings s st with ⟨stop | u, t⟩ <;> rw [hchecked] at hp
  · exact .ended (concludes_of_stop h hp)
  · have hnew := h.passes hp
    dsimp only
    cases hmode : s.mode with
    | execute => exact begins_beginExecution hmode hnew
    | validateWorkload => exact begins_ofSteps (concludes_validateWorkload hmode hnew)
    | validateDatabase path => exact begins_ofSteps (concludes_validateDatabase hmode hnew)
    | createValidationParams path size =>
      exact begins_ofSteps (concludes_createValidationParams hmode hnew)
    | calculateStatistics => exact begins_ofSteps (concludes_calculateStatistics hmode hnew)

/-- A session that is new comes to its end by one of the courses, unless something breaks down. -/
theorem course_of_ends {answer : Except ClientStop ClientOutcome} (hnew : IsNew state)
    (h : Ends s r codec clock state answer st) : Concludes s r answer st := by
  have hbegins : Begins s r clock (begin s r codec clock state) := begins_begin hnew
  cases h with
  | ended hbegin =>
    rw [hbegin] at hbegins
    cases hbegins with
    | ended hconcludes => exact hconcludes
  | played hbegin hs hquiet database =>
    rw [hbegin] at hbegins
    obtain - | ⟨hmode, hopened, hprepare⟩ := hbegins
    refine concludes_conclude hmode hopened (fun e hrefused => ?_) database
    -- A run that is refused has nothing in its log but its own refusal.
    obtain ⟨operations, metrics, active, -, hmetrics, hrun⟩ := prepare_eq_ok hprepare
    rw [hrun, hopened.log] at hs
    exact Run.refusal_of_steps hmetrics hquiet hs hrefused

end Client

end WorkloadReplay
