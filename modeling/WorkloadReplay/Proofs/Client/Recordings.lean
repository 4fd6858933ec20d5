import WorkloadReplay.Proofs.Client.Courses
import WorkloadReplay.Proofs.Files
import WorkloadReplay.Proofs.Validation.Replay

/-!
# Validation parameters that are recorded and given again

A session that records validation parameters executes the first operations that the workload keeps,
and only these, and leaves them with their results in a file (`Recorded`). A later session that
validates a database with this file reads the same operations back and finds the same results, if
they survive being written as JSON (`Recorded.replay`). Both sessions shut the database down: the
first one goes on if that fails, the second one then ends with this error, and not with its
findings. `recording_replays` puts both sessions together; `passed_but_not_shut_down` is a database
that gives every recorded result and cannot be shut down.
-/

namespace WorkloadReplay

namespace ParamsFile

variable {σ ω P : Type} {codec : PayloadCodec P} {db : Database σ P} {w : Workload ω P}

/-- A recording that succeeds has built the streams of the workload. -/
theorem record_eq_ok {seed size : Nat} {database : σ} {workload workload' : ω}
    {write : String → String → Except String Unit} {r : Recording σ}
    (h : record codec db w seed size database workload write = (.ok (.ok ()), r, workload')) :
    ∃ streams, w.streams seed workload = (.ok streams, workload') ∧
      recordSchedule codec db write (w.keepsForValidation workload') size ⟨empty, database⟩
        (merge streams) = (.ok (.ok ()), r) := by
  unfold record at h
  split at h
  · simp at h
  · simp at h
  · rename_i streams workload'' hstreams
    obtain ⟨hanswer, hrest⟩ := Prod.mk.inj h
    obtain ⟨hr, rfl⟩ := Prod.mk.inj hrest
    exact ⟨streams, hstreams, Prod.ext hanswer hr⟩

end ParamsFile

namespace Client

variable {δ ω P : Type} {s : Settings} {r : Registry δ ω P} {codec : PayloadCodec P}
  {clock : Clock} {state st t : ClientState δ ω P} {path : String} {size n : Nat}

/-! ## Steps that succeed -/

/-- Steps that stop the session do not come to their end. -/
theorem stopWith_ne_ok {α : Type} (e : ClientError) (a : α) :
    (stopWith e : ClientM δ ω P α) st ≠ (.ok a, t) := by
  intro h
  have hanswer : (.error (.failed e) : Except ClientStop α) = .ok a := congrArg Prod.fst h
  simp at hanswer

/-- Settings are checked without a problem. -/
theorem checkSettings_eq_ok :
    checkSettings s st = (.ok (), t) ↔ s.problems st.files = [] ∧ t = st := by
  unfold checkSettings
  rw [bind_get]
  cases hproblems : s.problems st.files with
  | nil =>
    simp only [true_and]
    exact ⟨fun h => (Prod.mk.inj h).2.symm, fun h => Prod.ext rfl h.symm⟩
  | cons p ps =>
    simp only [reduceCtorEq, false_and, iff_false]
    exact stopWith_ne_ok _ ()

/-- A file is written. -/
theorem writeFile_eq_ok {text : String} {refusal : ClientError} :
    writeFile path text refusal st = (.ok (), t) ↔
      ∃ files, st.files.write path text = some files ∧ t = { st with files := files } := by
  unfold writeFile
  rw [bind_get]
  cases hfiles : st.files.write path text with
  | none =>
    simp only [reduceCtorEq, false_and, exists_false, iff_false]
    exact stopWith_ne_ok _ ()
  | some files =>
    simp only [Option.some.injEq, exists_eq_left']
    exact ⟨fun h => (Prod.mk.inj h).2.symm, fun h => Prod.ext rfl h.symm⟩

/-- The directory of a file is made. -/
theorem makeParent_eq_ok :
    makeParent path st = (.ok (), t) ↔
      ∃ files, st.files.makeDirectories ((parentPath? path).getD "") = some files ∧
        t = { st with files := files } := by
  unfold makeParent
  rw [bind_get]
  cases hfiles : st.files.makeDirectories ((parentPath? path).getD "") with
  | none =>
    simp only [reduceCtorEq, false_and, exists_false, iff_false]
    exact stopWith_ne_ok _ ()
  | some files =>
    simp only [Option.some.injEq, exists_eq_left']
    exact ⟨fun h => (Prod.mk.inj h).2.symm, fun h => Prod.ext rfl h.symm⟩

/-- A database that is opened is one that the settings name. -/
theorem opensDatabase_of_eq_ok {db : Database δ P} (h : openDatabase s r st = (.ok db, t)) :
    OpensDatabase s r db ∧ t = { st with
      database := initialDatabase s db, trace := st.trace ++ [.databaseOpened] } := by
  obtain ⟨e, t', hopen, -⟩ | ⟨db', hchosen, hinit, hopen⟩ := openDatabase_cases s r st
  · have hanswer : (.error (.failed e) : Except ClientStop (Database δ P)) = .ok db :=
      congrArg Prod.fst (hopen.symm.trans h)
    simp at hanswer
  · obtain ⟨hdb, ht⟩ := Prod.mk.inj (hopen.symm.trans h)
    obtain rfl := Except.ok.inj hdb
    exact ⟨⟨hchosen, hinit⟩, ht.symm⟩

/-- A workload that is opened is one that the settings name. -/
theorem opensWorkload_of_eq_ok {w : Workload ω P} (h : openWorkload s r st = (.ok w, t)) :
    OpensWorkload s r w ∧ t = { st with
      workload := initialWorkload s w, trace := st.trace ++ [.workloadOpened] } := by
  obtain ⟨hchosen, hinit, ht⟩ := openWorkload_eq_ok h
  exact ⟨⟨hchosen, hinit⟩, ht⟩

/-- What a recording of validation parameters does when all of its steps succeed: a file is made,
the workload and the database are opened, the operations are recorded, and the file is completed. -/
structure Records (s : Settings) (r : Registry δ ω P) (codec : PayloadCodec P) (path : String)
    (size : Nat) (disk : Disk) (before after : Files) (w : Workload ω P) (db : Database δ P)
    (recording : ParamsFile.Recording δ) : Prop where
  file : ∃ files made, before.makeDirectories ((parentPath? path).getD "") = some files ∧
    files.write path "" = some made ∧ after = made.add path recording.file.text
  opensWorkload : OpensWorkload s r w
  opensDatabase : OpensDatabase s r db
  answer : ∃ workload, ParamsFile.record codec db w s.seed size (initialDatabase s db)
    (initialWorkload s w) (disk.write path) = (.ok (.ok ()), recording, workload)
  completed : disk.flush path recording.file.text = .ok ()

/-- Once a file has been made and the workload and the database are open, the operations are
recorded, whether that succeeds or not, and the file has what the disk keeps of the records. -/
theorem createValidationParams_run (st : ClientState δ ω P) {files made : Files}
    {w : Workload ω P} {db : Database δ P} {answer : Except Breakdown (Except ClientError Unit)}
    {recording : ParamsFile.Recording δ} {workload : ω}
    (hparent : st.files.makeDirectories ((parentPath? path).getD "") = some files)
    (hmade : files.write path "" = some made) (hw : OpensWorkload s r w)
    (hdb : OpensDatabase s r db)
    (hrecord : ParamsFile.record codec db w s.seed size (initialDatabase s db)
      (initialWorkload s w) (st.disk.write path) = (answer, recording, workload)) :
    ∃ t, t.files = made.add path (st.disk.kept path recording.file.text) ∧
      createValidationParams s r codec path size st =
        let completion := (st.disk.flush path recording.file.text).mapError .file
        ((answer.mapError .broken).bind fun answer => ((answer.bind fun _ => completion).map
          fun _ => .validationParamsCreated path recording.file.written).mapError .failed, t) := by
  unfold createValidationParams
  rw [bind_run, makeParent_eq_ok.mpr ⟨files, hparent, rfl⟩]
  dsimp only
  rw [bind_run, writeFile_eq_ok.mpr ⟨made, hmade, rfl⟩]
  dsimp only
  rw [bind_run, openWorkload_run hw]
  dsimp only
  rw [bind_run, openDatabase_run hdb]
  dsimp only
  rw [bind_get]
  dsimp only
  rw [hrecord]
  dsimp only
  rw [bind_set]
  cases answer with
  | error b => exact ⟨_, rfl, rfl⟩
  | ok answer =>
    rw [orBreakDown, pure_bind, bind_run, noteFailure_run]
    dsimp only
    rw [bind_run, closeDatabase_run]
    dsimp only
    rw [bind_run, closeWorkload_run]
    dsimp only
    rw [orRethrow_completeFile_run]
    exact ⟨_, rfl, rfl⟩

/-- A recording succeeds exactly if all of its steps do, whatever comes of closing the database and
the workload at its end. -/
theorem createValidationParams_eq_ok {outcome : ClientOutcome} {files : Files} :
    (∃ t, createValidationParams s r codec path size st = (.ok outcome, t) ∧ t.files = files) ↔
      ∃ w db recording, Records s r codec path size st.disk st.files files w db recording ∧
        outcome = .validationParamsCreated path recording.file.written := by
  constructor
  · -- The steps before the recording have succeeded, and from there on the session runs as above.
    rintro ⟨t, h, rfl⟩
    have hsteps := h
    unfold createValidationParams at hsteps
    obtain ⟨_, st₁, hparent, hsteps⟩ := bind_eq_ok hsteps
    obtain ⟨_, st₂, hwrite, hsteps⟩ := bind_eq_ok hsteps
    obtain ⟨w, st₃, hw, hsteps⟩ := bind_eq_ok hsteps
    obtain ⟨db, st₄, hdb, -⟩ := bind_eq_ok hsteps
    obtain ⟨files, hfiles, rfl⟩ := makeParent_eq_ok.mp hparent
    obtain ⟨made, hmade, -⟩ := writeFile_eq_ok.mp hwrite
    obtain ⟨hworkload, -⟩ := opensWorkload_of_eq_ok hw
    obtain ⟨hdatabase, -⟩ := opensDatabase_of_eq_ok hdb
    rcases hrecord : ParamsFile.record codec db w s.seed size (initialDatabase s db)
      (initialWorkload s w) (st.disk.write path) with ⟨answer, recording, workload⟩
    obtain ⟨t', hfile, hrun⟩ :=
      createValidationParams_run st hfiles hmade hworkload hdatabase hrecord
    obtain ⟨hanswer, rfl⟩ := Prod.mk.inj (hrun.symm.trans h)
    rcases answer with b | e | u
    · have hbroken : (.error (.broken b) : Except ClientStop ClientOutcome) = .ok outcome := hanswer
      simp at hbroken
    · have hfailed : (.error (.failed e) : Except ClientStop ClientOutcome) = .ok outcome := hanswer
      simp at hfailed
    · cases hcompleted : st.disk.flush path recording.file.text with
      | error text =>
        rw [hcompleted] at hanswer
        have hfailed : (.error (.failed (.file text)) : Except ClientStop ClientOutcome) =
          .ok outcome := hanswer
        simp at hfailed
      | ok u =>
        rw [hcompleted] at hanswer
        rw [st.disk.kept_of_flush _ _ hcompleted] at hfile
        obtain rfl := Except.ok.inj hanswer
        exact ⟨w, db, recording, ⟨⟨files, made, hfiles, hmade, hfile⟩, hworkload, hdatabase,
          ⟨workload, hrecord⟩, hcompleted⟩, rfl⟩
  · rintro ⟨w, db, recording, h, rfl⟩
    obtain ⟨files', made, hfiles, hmade, rfl⟩ := h.file
    obtain ⟨workload, hrecord⟩ := h.answer
    -- What closing comes to is noted in the trace and does not change the answer.
    obtain ⟨t, hfile, hrun⟩ :=
      createValidationParams_run st hfiles hmade h.opensWorkload h.opensDatabase hrecord
    rw [st.disk.kept_of_flush _ _ h.completed] at hfile
    rw [h.completed] at hrun
    exact ⟨t, hrun, hfile⟩

/-- The answer of a session that has an outcome and then shuts its database down: the outcome, or
the error of the shutdown. -/
def answerAfter (shutdown : Except DatabaseError Unit) (outcome : ClientOutcome) :
    Except ClientStop ClientOutcome :=
  (shutdown.mapError fun e => .failed (.database e)).map fun _ => outcome

/-- A validation that has its findings ends with them, unless the database cannot be shut down. -/
theorem validateDatabase_run {text : String} {params : List (ValidationParam P)}
    {db : Database δ P} {v : DatabaseValidation} {database : δ}
    (hread : st.files.read? path = some text)
    (hparams : ParamsFile.read codec path text = .ok params) (hdb : OpensDatabase s r db)
    (hreplay : DatabaseValidation.ofParams db {} params (initialDatabase s db) =
      (.ok v, database)) :
    (validateDatabase s r codec path st).1 =
      answerAfter (db.shutdown database).1 (.databaseValidated v) := by
  unfold validateDatabase
  rw [bind_get, hread]
  dsimp only
  rw [pure_bind, hparams, orStop, pure_bind, bind_run, openDatabase_run hdb]
  dsimp only
  rw [bind_get]
  dsimp only
  rw [hreplay]
  dsimp only
  rw [bind_modify, orBreakDown, pure_bind, bind_run, closeDatabase_run]
  dsimp only
  rw [orRethrow_map_run]
  rcases (db.shutdown database).1 with e | u <;> rfl

/-! ## Two sessions -/

/-- A session that comes to its end has settings without a problem. -/
theorem problems_of_run_eq_ok {outcome : ClientOutcome}
    (h : run s r codec clock state = (.ok outcome, st)) : s.problems state.files = [] := by
  unfold run begin at h
  rcases hchecked : checkSettings s state with ⟨stop | u, t⟩
  · rw [hchecked] at h
    have hanswer : (.error stop : Except ClientStop ClientOutcome) = .ok outcome :=
      congrArg Prod.fst h
    simp at hanswer
  · exact (checkSettings_eq_ok.mp hchecked).1

/-- With such settings a session goes through the steps of its mode. -/
theorem run_createValidationParams (hmode : s.mode = .createValidationParams path size)
    (hproblems : s.problems state.files = []) :
    run s r codec clock state = createValidationParams s r codec path size state := by
  unfold run begin
  rw [checkSettings_eq_ok.mpr ⟨hproblems, rfl⟩]
  dsimp only
  rw [hmode]
  rfl

/-- The same for the mode that gives the recording again. -/
theorem run_validateDatabase (hmode : s.mode = .validateDatabase path)
    (hproblems : s.problems state.files = []) :
    run s r codec clock state = validateDatabase s r codec path state := by
  unfold run begin
  rw [checkSettings_eq_ok.mpr ⟨hproblems, rfl⟩]
  dsimp only
  rw [hmode]
  rfl

/-- There is no problem where its condition does not hold. -/
theorem problemIf_eq_nil {p : Bool} {text : String} :
    Settings.problemIf p text = [] ↔ p = false := by
  cases p <;> simp [Settings.problemIf]

/-- Settings that are good for a recording are good for a validation with its file. -/
theorem problems_validateDatabase {before after : Files}
    (hmode : s.mode = .createValidationParams path size) (h : s.problems before = [])
    (hfile : after.isFile path = true) :
    ({ s with mode := .validateDatabase path } : Settings).problems after = [] := by
  simp only [Settings.problems, List.append_eq_nil_iff, problemIf_eq_nil, hmode,
    ClientMode.needsDatabase] at h ⊢
  obtain ⟨⟨⟨⟨⟨hname, hworkload⟩, hdatabase⟩, -⟩, hcount⟩, hduration⟩ := h
  refine ⟨⟨⟨⟨⟨hname, hworkload⟩, hdatabase⟩, ?_⟩, hcount⟩, hduration⟩
  simp [Settings.modeProblems, problemIf_eq_nil, hfile]

/-- The operations that a session may record: those of the merged streams of its workload that the
workload keeps, in order. -/
def Recordable (s : Settings) (r : Registry δ ω P) (kept : List (Operation P)) : Prop :=
  ∃ w streams workload, OpensWorkload s r w ∧
    w.streams s.seed (initialWorkload s w) = (.ok streams, workload) ∧
    kept = (merge streams).kept (w.keepsForValidation workload)

/-- What a recording leaves: a text with `n` parameters. They are the first of the operations that
are kept, with the results that the database gives when it is initialized and executes only these,
and comes to the state `database`. -/
structure Recorded (s : Settings) (r : Registry δ ω P) (codec : PayloadCodec P) (size n : Nat)
    (params : List (ValidationParam P)) (db : Database δ P) (database : δ) (text : String) :
    Prop where
  operations : ∃ kept, Recordable s r kept ∧ n = min size kept.length ∧
    params.map (·.operation) = kept.take n
  opens : OpensDatabase s r db
  results : db.Gives (initialDatabase s db) params database
  written : ParamsFile.ofParams codec params = .ok ⟨text, n⟩

/-- A recording that succeeds leaves its parameters in its file. -/
theorem recorded_of_records {disk : Disk} {before after : Files} {w : Workload ω P}
    {db : Database δ P} {recording : ParamsFile.Recording δ}
    (h : Records s r codec path size disk before after w db recording) :
    ∃ params, after.read? path = some recording.file.text ∧
      Recorded s r codec size recording.file.written params db recording.database
        recording.file.text := by
  obtain ⟨workload, hanswer⟩ := h.answer
  obtain ⟨streams, hstreams, hschedule⟩ := ParamsFile.record_eq_ok hanswer
  obtain ⟨params, hgives, hoperations, hwritten⟩ := ParamsFile.recordSchedule_eq_ok hschedule
  obtain ⟨files, made, -, hmade, rfl⟩ := h.file
  obtain ⟨rows, -, hfile⟩ := ParamsFile.foldlM_write_eq_ok hwritten
  generalize hkept : (merge streams).kept (w.keepsForValidation workload) = kept at hoperations
  -- Each of the operations has a record, so that the records tell how many there are.
  have hcount : recording.file.written = min size kept.length := by
    have hlength := congrArg List.length hoperations
    rw [List.length_map, List.length_take] at hlength
    rw [hfile]
    dsimp only [ParamsFile.empty]
    dsimp only [ParamsFile.empty] at hlength
    omega
  refine ⟨params, Files.read?_of_write hmade _, ?_, h.opensDatabase, hgives, hwritten⟩
  refine ⟨kept, ⟨w, streams, workload, h.opensWorkload, hstreams, hkept.symm⟩, hcount, ?_⟩
  rw [hoperations, hcount, ← List.take_eq_take_min]
  rfl

/-- A session that has recorded validation parameters leaves them in its file. -/
theorem recorded_of_run {outcome : ClientOutcome}
    (hmode : s.mode = .createValidationParams path size)
    (h : run s r codec clock state = (.ok outcome, st)) :
    ∃ n params db database text, outcome = .validationParamsCreated path n ∧
      Recorded s r codec size n params db database text ∧ st.files.read? path = some text := by
  rw [run_createValidationParams hmode (problems_of_run_eq_ok h)] at h
  obtain ⟨w, db, recording, hrecords, houtcome⟩ := createValidationParams_eq_ok.mp ⟨st, h, rfl⟩
  obtain ⟨params, hread, hrecorded⟩ := recorded_of_records hrecords
  exact ⟨_, params, db, _, _, houtcome, hrecorded, hread⟩

/-- A session that validates the same database with the file of a recording reads its parameters
back and finds that all of them pass, if they survive being written. It ends with these findings,
unless the database cannot be shut down. -/
theorem Recorded.replay {params : List (ValidationParam P)} {db : Database δ P} {database : δ}
    {text : String} (h : Recorded s r codec size n params db database text)
    (hmode : s.mode = .createValidationParams path size) {before : Files}
    (hproblems : s.problems before = []) (hread : state.files.read? path = some text)
    (hsurvive : ∀ param ∈ params, param.Survives codec) :
    (run { s with mode := .validateDatabase path } r codec clock state).1 =
      answerAfter (db.shutdown database).1 (.databaseValidated ⟨n, []⟩) := by
  have hlater := problems_validateDatabase hmode hproblems (Files.isFile_of_read? hread)
  obtain ⟨params', hparams, hsame⟩ := ParamsFile.read_of_ofParams path h.written hsurvive
  have hcount : n = params.length := by
    obtain ⟨rows, -, hfile⟩ := ParamsFile.foldlM_write_eq_ok h.written
    have hwritten := congrArg ParamsFile.written hfile
    simpa [ParamsFile.empty] using hwritten
  have hreplay := DatabaseValidation.ofParams_of_gives h.results hsame {}
  dsimp only at hreplay
  rw [Nat.zero_add, ← hcount] at hreplay
  -- The settings name the same database in both modes.
  have hopens : OpensDatabase { s with mode := .validateDatabase path } r db := h.opens
  rw [run_validateDatabase rfl hlater, validateDatabase_run hread hparams hopens hreplay]

/-- A session that has recorded validation parameters has written the first of the operations that
its workload keeps, as many as asked for or as there are, with the results that the database gives
when it executes only these. If payloads and results survive being written as JSON, the file gives
the same parameters again, and any session that validates the same database with it finds that all
of them pass and none fails. It ends with these findings if the database can then be shut down, and
with the error of the shutdown otherwise. -/
theorem recording_replays (s : Settings) (r : Registry δ ω P) (codec : PayloadCodec P)
    (clock : Clock) (state : ClientState δ ω P) {path : String} {size : Nat}
    (hmode : s.mode = .createValidationParams path size) {outcome : ClientOutcome}
    {st : ClientState δ ω P} (hrun : run s r codec clock state = (.ok outcome, st)) :
    ∃ n params db database text, outcome = .validationParamsCreated path n ∧
      Recorded s r codec size n params db database text ∧ st.files.read? path = some text ∧
      ((∀ param ∈ params, param.Survives codec) →
        (∃ params', ParamsFile.read codec path text = .ok params' ∧
          List.Forall₂ ValidationParam.Same params params') ∧
        ∀ (later : Clock) (next : ClientState δ ω P), next.files = st.files →
          (run { s with mode := .validateDatabase path } r codec later next).1 =
            answerAfter (db.shutdown database).1 (.databaseValidated ⟨n, []⟩)) := by
  obtain ⟨n, params, db, database, text, houtcome, hrecorded, hread⟩ := recorded_of_run hmode hrun
  refine ⟨n, params, db, database, text, houtcome, hrecorded, hread, fun hsurvive => ⟨?_, ?_⟩⟩
  · have hagain := ParamsFile.read_of_ofParams path hrecorded.written hsurvive
    exact hagain
  · intro later next hnext
    rw [← hnext] at hread
    exact hrecorded.replay hmode (problems_of_run_eq_ok hrun) hread hsurvive

/-! ## A database that remembers -/

/-- Payloads that are texts. -/
def textCodec : PayloadCodec String where
  encode text := .ok (.str text)
  decode v :=
    match v with
    | .str text => .ok text
    | _ => .error "not a text"
  read _ t := t.toText?

/-- A database that answers with the text that it was given before. It may be too busy to be shut
down. -/
def notesDatabase (busy : Bool) : Database String String where
  fresh := ""
  init _ _ := (.ok (), "nothing yet")
  execute op last := (.returned (.ok (.str last)), op.payload)
  pause _ := Duration.zero
  shutdown last := (if busy then .error (.shutdown "still busy") else .ok (), last)

/-- A workload with two notes and a draft between them, of which only the notes are kept. -/
def notesWorkload : Workload Unit String where
  fresh := ()
  init _ _ := (.ok (), ())
  streams _ _ := (.ok [⟨"note", .nil, .ofList
    [.ok (.independent "note" .epoch "tea|milk"),
      .ok (.independent "draft" .epoch "sugar?"),
      .ok (.independent "note" .epoch "say \"hi\"")]⟩], ())
  maxInterleave _ := Duration.zero
  keepsForValidation _ op := op.operationType == "note"
  cleanup _ := (.ok (), ())

/-- Plugins with this database and this workload. -/
def notesPlugins (busy : Bool) : Registry String Unit String where
  databases := ⟨[("notes", notesDatabase busy)]⟩
  workloads := ⟨[("notes", notesWorkload)]⟩

/-- Settings that record up to five notes. -/
def notesSettings : Settings :=
  { mode := .createValidationParams "p" 5, database := some "notes",
    workload := some "notes" }

/-- What the recording of the notes comes to on a sound disk. -/
def recordNotes (busy : Bool) :
    Except Breakdown (Except ClientError Unit) × ParamsFile.Recording String × Unit :=
  ParamsFile.record textCodec (notesDatabase busy) notesWorkload notesSettings.seed 5
    (initialDatabase notesSettings (notesDatabase busy))
    (initialWorkload notesSettings notesWorkload) (Disk.sound.write "p")

/-- The notes are recorded, whether the database is busy or not. -/
theorem record_notes (busy : Bool) :
    ∃ recording workload, recordNotes busy = (.ok (.ok ()), recording, workload) ∧
      recording.file.written = 2 := by
  have hanswer : ((recordNotes busy).1.toOption.bind Except.toOption).isSome := by
    cases busy <;> decide +kernel
  have hwritten : (recordNotes busy).2.1.file.written = 2 := by
    cases busy <;> decide +kernel
  generalize recordNotes busy = outcome at hanswer hwritten
  obtain ⟨answer, recording, workload⟩ := outcome
  rcases answer with b | e | u
  · simp [Except.toOption] at hanswer
  · simp [Except.toOption] at hanswer
  · exact ⟨recording, workload, rfl, hwritten⟩

/-- The path `p` has one name, and that of the directory which it is in is empty. -/
theorem pathNames_p : pathNames "p" = ["p"] ∧ pathNames "" = [""] := by
  constructor
  · rw [pathNames, String.splitOn, if_neg (by decide +kernel), String.splitOnAux,
      if_neg (by decide +kernel), if_neg (by decide +kernel), String.splitOnAux,
      if_pos (by decide +kernel)]
    decide +kernel
  · rw [pathNames, String.splitOn, if_neg (by decide +kernel), String.splitOnAux,
      if_pos (by decide +kernel)]
    decide +kernel

/-- So a file can be made there. -/
theorem makes_p : ((Files.empty.makeDirectories ((parentPath? "p").getD "")).bind
    fun files => files.write "p" "").isSome = true := by
  obtain ⟨hp, hempty⟩ := pathNames_p
  have hparent : parentPath? "p" = some "" := by
    rw [parentPath?, hp]
    decide +kernel
  simp only [hparent, Option.getD_some, Files.makeDirectories, Files.write, Files.isDirectory,
    Files.resolve?, hp, hempty]
  decide +kernel

/-- The session that records the notes comes to its end. -/
theorem run_notes (busy : Bool) :
    ∃ st, run notesSettings (notesPlugins busy) textCodec (.fixed ⟨0, by decide⟩)
      (freshState Files.empty "" ()) = (.ok (.validationParamsCreated "p" 2), st) := by
  have hproblems : notesSettings.problems Files.empty = [] := by decide +kernel
  obtain ⟨made, hsteps⟩ := Option.isSome_iff_exists.mp makes_p
  obtain ⟨files, hparent, hmade⟩ := Option.bind_eq_some_iff.mp hsteps
  obtain ⟨recording, workload, hrecord, hwritten⟩ := record_notes busy
  have hw : OpensWorkload notesSettings (notesPlugins busy) notesWorkload := ⟨rfl, rfl⟩
  have hdb : OpensDatabase notesSettings (notesPlugins busy) (notesDatabase busy) := ⟨rfl, rfl⟩
  obtain ⟨st, -, hrun⟩ := createValidationParams_run
    (freshState Files.empty "" ()) hparent hmade hw hdb hrecord
  refine ⟨st, ?_⟩
  rw [run_createValidationParams rfl hproblems]
  rw [hwritten] at hrun
  exact hrun

/-- What the database has answered survives. -/
theorem survives_notes {busy : Bool} {s t : String} {params : List (ValidationParam String)}
    (h : (notesDatabase busy).Gives s params t) :
    ∀ param ∈ params, param.Survives textCodec := by
  induction h with
  | nil s => simp
  | @cons param params s t u hexecute hrest ih =>
    intro p hp
    rcases List.mem_cons.mp hp with rfl | hp
    · have hresult : .str s = p.expected :=
        Except.ok.inj (CallOutcome.returned.inj (Prod.mk.inj hexecute).1)
      refine ⟨fun v hv => ?_, ?_⟩
      · obtain rfl := Except.ok.inj hv
        exact ⟨_, (Json.reads_str p.operation.payload).ofText?, rfl⟩
      · rw [← hresult]
        exact Json.survives_str s
    · exact ih p hp

/-- Three operations, of which two are recorded: both pass, and the session ends with that. -/
theorem recording_replays_notes :
    ∃ st, run notesSettings (notesPlugins false) textCodec (.fixed ⟨0, by decide⟩)
        (freshState Files.empty "" ()) = (.ok (.validationParamsCreated "p" 2), st) ∧
      ∀ (later : Clock) (next : ClientState String Unit String), next.files = st.files →
        (run { notesSettings with mode := .validateDatabase "p" } (notesPlugins false) textCodec
          later next).1 = .ok (.databaseValidated ⟨2, []⟩) := by
  obtain ⟨st, hrun⟩ := run_notes false
  refine ⟨st, hrun, fun later next hnext => ?_⟩
  obtain ⟨n, params, db, database, text, houtcome, hrecorded, -, hreplay⟩ :=
    recording_replays notesSettings (notesPlugins false) textCodec (.fixed ⟨0, by decide⟩)
      (freshState Files.empty "" ()) rfl hrun
  obtain ⟨-, rfl⟩ := ClientOutcome.validationParamsCreated.inj houtcome
  have hopens : OpensDatabase notesSettings (notesPlugins false) (notesDatabase false) := ⟨rfl, rfl⟩
  obtain rfl := Except.ok.inj (hopens.1.symm.trans hrecorded.opens.1)
  have hpasses := (hreplay (survives_notes hrecorded.results)).2 later next hnext
  exact hpasses

/-- The same operations and results, and a database that is too busy to be shut down: the second
session ends with that error, although both operations pass. -/
theorem passed_but_not_shut_down :
    ∃ st, run notesSettings (notesPlugins true) textCodec (.fixed ⟨0, by decide⟩)
        (freshState Files.empty "" ()) = (.ok (.validationParamsCreated "p" 2), st) ∧
      ∀ (later : Clock) (next : ClientState String Unit String), next.files = st.files →
        (run { notesSettings with mode := .validateDatabase "p" } (notesPlugins true) textCodec
          later next).1 = .error (.failed (.database (.shutdown "still busy"))) := by
  obtain ⟨st, hrun⟩ := run_notes true
  refine ⟨st, hrun, fun later next hnext => ?_⟩
  obtain ⟨n, params, db, database, text, -, hrecorded, hread⟩ := recorded_of_run rfl hrun
  have hopens : OpensDatabase notesSettings (notesPlugins true) (notesDatabase true) := ⟨rfl, rfl⟩
  obtain rfl := Except.ok.inj (hopens.1.symm.trans hrecorded.opens.1)
  rw [← hnext] at hread
  exact hrecorded.replay rfl (problems_of_run_eq_ok hrun) hread
    (survives_notes hrecorded.results)

end Client

end WorkloadReplay
