import WorkloadReplay.Proofs.Client.Sessions

/-!
# The steps of an execution

What an execution does before its run and after it. `prepare_eq_ok` says what run is prepared: that
of the planned sequence (`plan?`), which depends on the settings, the workload and the clock and on
nothing else in the session. `report_eq_ok` says what is in the report, and `finish_cases` how the
session ends with a report or without one.
-/

namespace WorkloadReplay

namespace Client

variable {δ ω P α : Type}

/-! ## Before the run -/

/-- The sequence that an execution is to replay: the streams of the workload, with their times moved
onto the start, merged and cut off at the limits. -/
def plan? (s : Settings) (r : Registry δ ω P) (clock : Clock) : Option (Schedule P) := do
  let w ← (chosenWorkload s r).toOption
  let streams ← (w.streams s.seed (w.init s.workloadParams w.fresh).2).1.toOption
  let start ← (startInstant (clock.read 0) s.startDelay).toOption
  let mapped ← (Stream.timeMap streams start s.compressionRatio).toOption
  let duration ← (scaledDuration s.compressionRatio s.duration).toOption
  return limit ⟨s.operationCount, duration⟩ (merge mapped)

section Preparing

variable {s : Settings} {r : Registry δ ω P} {clock : Clock} {st st' : ClientState δ ω P}

/-- An unknown name is no error that carries results. -/
theorem partialReport?_of_find {t : Named α} {kind name : String} {e : ClientError}
    (h : t.find kind name = .error e) : e.partialReport? = none := by
  unfold Named.find at h
  split at h
  · simp at h
  · rw [← Except.error.inj h]
    rfl

/-- The choice of something by its name fails without results. -/
theorem partialReport?_of_choice {t : Named α} {missing kind : String} {name : Option String}
    {e : ClientError} (h : (nameOr missing name).bind (t.find kind) = .error e) :
    e.partialReport? = none := by
  cases name with
  | none =>
    rw [← Except.error.inj h]
    rfl
  | some name => exact partialReport?_of_find h

/-- The directory for results is made. -/
theorem orderly_prepareArtifacts (s : Settings) :
    Orderly (prepareArtifacts s : ClientM δ ω P (List String)) := by
  unfold prepareArtifacts
  split
  · exact orderly_pure _
  · refine .bind orderly_get fun st => .bind (orderly_orStop fun e he => ?_) fun files => ?_
    · unfold makeResultsDir at he
      split at he
      · exact Except.error.inj he ▸ rfl
      · split at he
        · simp at he
        · exact Except.error.inj he ▸ rfl
    · refine .bind (orderly_modify fun _ => rfl) fun _ => ?_
      exact .bind (orderly_saveFile _ _ fun _ => rfl) fun _ => orderly_pure _

/-- The database is opened. -/
theorem orderly_openDatabase (s : Settings) (r : Registry δ ω P) :
    Orderly (openDatabase s r : ClientM δ ω P (Database δ P)) := by
  refine .bind (orderly_orStop fun e he => partialReport?_of_choice he) fun db => ?_
  split
  refine .bind (orderly_modify fun _ => rfl) fun _ => ?_
  split
  · exact orderly_stopWith rfl
  · exact .bind (orderly_note _) fun _ => orderly_pure _

/-- The workload is opened. -/
theorem orderly_openWorkload (s : Settings) (r : Registry δ ω P) :
    Orderly (openWorkload s r : ClientM δ ω P (Workload ω P)) := by
  refine .bind (orderly_orStop fun e he => partialReport?_of_choice he) fun w => ?_
  split
  refine .bind (orderly_modify fun _ => rfl) fun _ => ?_
  split
  · exact orderly_stopWith rfl
  · exact .bind (orderly_note _) fun _ => orderly_pure _

/-- The results log is begun. -/
theorem orderly_prepareLog (s : Settings) :
    Orderly (prepareLog s : ClientM δ ω P (List String)) := by
  unfold prepareLog
  split
  · refine .bind (orderly_writeFile _ _ rfl) fun _ => ?_
    exact .bind (orderly_modify fun _ => rfl) fun _ => orderly_pure _
  · exact orderly_pure _

/-- The metrics pipeline is opened. -/
theorem orderly_openMetrics (s : Settings) :
    Orderly (openMetrics s : ClientM δ ω P (MetricsPipeline String)) := by
  refine .bind orderly_get fun st => ?_
  split
  · exact orderly_breakDown _
  · exact .bind (orderly_modify fun _ => rfl) fun _ => orderly_pure _

/-- The streams are built. -/
theorem orderly_buildStreams (w : Workload ω P) (seed : Nat) :
    Orderly (buildStreams w seed : ClientM δ ω P (List (OperationStream P))) := by
  refine .bind orderly_get fun st => ?_
  split
  refine .bind (orderly_modify fun _ => rfl) fun _ => ?_
  split
  · exact orderly_pure _
  · exact orderly_breakDown _
  · exact orderly_stopWith rfl

/-- A start that does not fit is no error that carries results. -/
theorem partialReport?_of_startInstant {now : Instant} {delay : Duration} {e : ClientError}
    (h : startInstant now delay = .error e) : e.partialReport? = none := by
  unfold startInstant at h
  split at h
  · simp at h
  · exact Except.error.inj h ▸ rfl

/-- Nor is a limit that does not fit. -/
theorem partialReport?_of_scaledDuration {ratio : Binary64} {d : Option Duration} {e : ClientError}
    (h : scaledDuration ratio d = .error e) : e.partialReport? = none := by
  unfold scaledDuration at h
  split at h
  · simp at h
  · split at h
    · simp at h
    · exact Except.error.inj h ▸ rfl

/-- An execution is prepared. -/
theorem orderly_prepare (s : Settings) (r : Registry δ ω P) (clock : Clock) :
    Orderly (prepare s r clock : ClientM δ ω P (Execution δ P)) := by
  refine .bind (orderly_prepareArtifacts s) fun settingsPath => ?_
  refine .bind (orderly_openDatabase s r) fun db => ?_
  refine .bind (orderly_modify fun _ => rfl) fun _ => ?_
  refine .bind (orderly_orStopReplay _) fun completion => ?_
  refine .bind (orderly_prepareLog s) fun logPath => ?_
  refine .bind (orderly_openMetrics s) fun metrics => ?_
  refine .bind (orderly_openWorkload s r) fun w => ?_
  refine .bind (orderly_modify fun _ => rfl) fun _ => ?_
  refine .bind (orderly_buildStreams w s.seed) fun streams => ?_
  refine .bind (orderly_orStop fun _ => partialReport?_of_startInstant) fun start => ?_
  refine .bind (orderly_orStopReplay _) fun mapped => ?_
  refine .bind (orderly_orStop fun _ => partialReport?_of_scaledDuration) fun duration => ?_
  exact .bind orderly_get fun _ => .bind orderly_get fun _ => orderly_pure _

/-- A metrics pipeline that is opened is a fresh one. -/
theorem openMetrics_eq_ok {metrics : MetricsPipeline String}
    (h : openMetrics s st = (.ok metrics, st')) :
    ∃ active, MetricsPipeline.fresh s.metricsConfig resultsLogHeader active = .ok metrics := by
  unfold openMetrics at h
  rw [bind_get] at h
  refine ⟨st.logPath.isSome, ?_⟩
  cases hfresh : MetricsPipeline.fresh s.metricsConfig resultsLogHeader st.logPath.isSome with
  | error text =>
    rw [hfresh] at h
    have hstop : (.error (.broken (.panicked text)) : Except ClientStop _) = .ok metrics :=
      congrArg Prod.fst h
    simp at hstop
  | ok p =>
    rw [hfresh] at h
    have hopened : (.ok p : Except ClientStop _) = .ok metrics := congrArg Prod.fst h
    exact congrArg _ (Except.ok.inj hopened)

/-- A workload that is opened is the one chosen, in its state after initialization. -/
theorem openWorkload_eq_ok {w : Workload ω P} (h : openWorkload s r st = (.ok w, st')) :
    chosenWorkload s r = .ok w ∧ (w.init s.workloadParams w.fresh).1 = .ok () ∧
      st' = { st with
        workload := (w.init s.workloadParams w.fresh).2
        trace := st.trace ++ [.workloadOpened] } := by
  obtain ⟨w', st₁, hchoice, hinit⟩ := bind_eq_ok h
  obtain ⟨hchosen, rfl⟩ := orStop_eq_ok hchoice
  rcases hanswer : w'.init s.workloadParams w'.fresh with ⟨answer, workload⟩
  rw [hanswer] at hinit
  dsimp only at hinit
  rw [bind_modify] at hinit
  cases answer with
  | error e =>
    have hstop : (.error (.failed (.workload e)) : Except ClientStop _) = .ok w :=
      congrArg Prod.fst hinit
    simp at hstop
  | ok u =>
    obtain ⟨hopened, rfl⟩ := Prod.mk.inj hinit
    obtain rfl := Except.ok.inj hopened
    rw [hanswer]
    exact ⟨hchosen, rfl, rfl⟩

/-- Streams that are built are those of the workload in its state. -/
theorem buildStreams_eq_ok {w : Workload ω P} {seed : Nat} {streams : List (OperationStream P)}
    (h : buildStreams w seed st = (.ok streams, st')) :
    (w.streams seed st.workload).1 = .ok streams := by
  unfold buildStreams at h
  rw [bind_get] at h
  rcases hbuilt : w.streams seed st.workload with ⟨answer, workload⟩
  rw [hbuilt] at h
  dsimp only at h
  rw [bind_modify] at h
  cases answer with
  | error e =>
    have hstop : ∃ stop, (.error stop : Except ClientStop _) = .ok streams := by
      cases e <;> exact ⟨_, congrArg Prod.fst h⟩
    obtain ⟨stop, hstop⟩ := hstop
    simp at hstop
  | ok built =>
    have hanswer : (.ok built : Except ClientStop _) = .ok streams := congrArg Prod.fst h
    exact congrArg _ (Except.ok.inj hanswer)

/-- What the run of an execution has been prepared from: the streams of the chosen workload, moved
onto the start, and limited to the scaled duration. -/
structure IsPrepared (s : Settings) (r : Registry δ ω P) (clock : Clock) (log : ErrorLog)
    (x : Execution δ P) (w : Workload ω P) (streams mapped : List (OperationStream P))
    (start : Instant) (duration : Option Duration) : Prop where
  chosen : chosenWorkload s r = .ok w
  built : (w.streams s.seed (w.init s.workloadParams w.fresh).2).1 = .ok streams
  begun : startInstant (clock.read 0) s.startDelay = .ok start
  moved : Stream.timeMap streams start s.compressionRatio = .ok mapped
  scaled : scaledDuration s.compressionRatio s.duration = .ok duration
  run : ∃ metrics active,
    MetricsPipeline.fresh s.metricsConfig resultsLogHeader active = .ok metrics ∧
      x.run = .fresh (limit ⟨s.operationCount, duration⟩ (merge mapped)) (.ofPeers s.peerIds)
        metrics log
  setup : ∃ sink, x.scene.setup = ⟨s.runnerConfig, start, sink⟩

/-- An execution that is prepared has all this, and the error log of the session. -/
theorem prepare_spec {x : Execution δ P} (h : prepare s r clock st = (.ok x, st')) :
    ∃ w streams mapped start duration,
      IsPrepared s r clock st'.log x w streams mapped start duration := by
  obtain ⟨settingsPath, st₁, -, h₁⟩ := bind_eq_ok h
  obtain ⟨db, st₂, -, h₂⟩ := bind_eq_ok h₁
  rw [bind_modify, CompletionService.start_eq, orStopReplay, pure_bind] at h₂
  obtain ⟨logPath, st₃, -, h₃⟩ := bind_eq_ok h₂
  obtain ⟨metrics, st₄, hmetrics, h₄⟩ := bind_eq_ok h₃
  obtain ⟨w, st₅, hworkload, h₅⟩ := bind_eq_ok h₄
  rw [bind_modify] at h₅
  obtain ⟨streams, st₆, hstreams, h₆⟩ := bind_eq_ok h₅
  obtain ⟨start, st₇, hstart, h₇⟩ := bind_eq_ok h₆
  obtain ⟨mapped, st₈, hmapped, h₈⟩ := bind_eq_ok h₇
  obtain ⟨duration, st₉, hduration, h₉⟩ := bind_eq_ok h₈
  obtain ⟨active, hfresh⟩ := openMetrics_eq_ok hmetrics
  obtain ⟨hchosen, -, hopened⟩ := openWorkload_eq_ok hworkload
  have hanswer := buildStreams_eq_ok hstreams
  have hbuilt : (w.streams s.seed st₅.workload).1 = .ok streams := hanswer
  rw [hopened] at hbuilt
  have hx : (.ok _ : Except ClientStop (Execution δ P)) = .ok x := congrArg Prod.fst h₉
  obtain rfl : st₉ = st' := congrArg Prod.snd h₉
  -- Between its initialization and the building of streams, nothing else changes the workload.
  refine ⟨w, streams, mapped, start, duration, hchosen, hbuilt, (orStop_eq_ok hstart).1,
    (orStopReplay_eq_ok hmapped).1, (orStop_eq_ok hduration).1, ⟨metrics, active, hfresh, ?_⟩,
    ⟨st₉.sink, ?_⟩⟩
  · rw [← Except.ok.inj hx]
  · rw [← Except.ok.inj hx]

/-- The run that is prepared is one of the planned sequence, over a fresh metrics pipeline and with
the error log of the session. -/
theorem prepare_eq_ok {x : Execution δ P} (h : prepare s r clock st = (.ok x, st')) :
    ∃ operations metrics active, plan? s r clock = some operations ∧
      MetricsPipeline.fresh s.metricsConfig resultsLogHeader active = .ok metrics ∧
      x.run = .fresh operations (.ofPeers s.peerIds) metrics st'.log := by
  obtain ⟨w, streams, mapped, start, duration, hprepared⟩ := prepare_spec h
  obtain ⟨metrics, active, hmetrics, hrun⟩ := hprepared.run
  refine ⟨_, metrics, active, ?_, hmetrics, hrun⟩
  simp [plan?, hprepared.chosen, hprepared.built, hprepared.begun, hprepared.moved,
    hprepared.scaled, Except.toOption]

end Preparing

/-! ## After the run -/

section Closing

variable {s : Settings} {st st' : ClientState δ ω P}

/-- A step that closes something: it does not stop the session, its error carries no results, and
it only adds to the error log. -/
def Closes (x : ClientM δ ω P (Except ClientError Unit)) : Prop :=
  ∀ st, ∃ answer t, x st = (.ok answer, t) ∧
    (∀ e, answer = .error e → e.partialReport? = none) ∧ st.log.entries <+: t.log.entries

/-- An error of closing that then stops the session carries no results either. -/
theorem Closes.bind_orRethrow {x : ClientM δ ω P (Except ClientError Unit)} (h : Closes x)
    {f : Unit → ClientM δ ω P α} (hf : ∀ u, Orderly (f u)) :
    Orderly (x >>= fun closed => orRethrow closed >>= f) where
  log st := by
    obtain ⟨answer, t, hx, -, hlog⟩ := h st
    rw [bind_run, hx]
    cases answer with
    | ok u => exact hlog.trans ((hf u).log t)
    | error e => exact hlog
  errors st e he := by
    obtain ⟨answer, t, hx, hanswer, -⟩ := h st
    rw [bind_run, hx] at he
    cases answer with
    | ok u => exact (hf u).errors t e he
    | error e' =>
      have hstop : (.error (.failed e') : Except ClientStop α) = .error (.failed e) := he
      obtain rfl := ClientStop.failed.inj (Except.error.inj hstop)
      exact hanswer e' rfl

/-- There is nothing to close. -/
theorem closes_nothing : Closes (pure (.ok ()) : ClientM δ ω P (Except ClientError Unit)) :=
  fun st => ⟨_, st, rfl, by simp, List.prefix_refl _⟩

/-- A call whose error is one of a kind carries no results. -/
theorem partialReport?_of_mapError {ε : Type} {kind : ε → ClientError}
    (hkind : ∀ x, (kind x).partialReport? = none) {answer : Except ε Unit} {e : ClientError}
    (h : answer.mapError kind = .error e) : e.partialReport? = none := by
  obtain ⟨x, -, rfl⟩ := eq_error_of_mapError h
  exact hkind x

/-- Texts that are reported one after another are put at the end of an error log. -/
theorem entries_reportAll (source : String) (texts : List String) (log : ErrorLog) :
    (texts.foldl (fun log text => log.report source text) log).entries =
      log.entries ++ texts.map (⟨source, ·⟩) := by
  induction texts generalizing log with
  | nil => simp
  | cons text rest ih => simp [ih]

/-- A metrics pipeline that is open is shut down, what its consumer reports is put into the log, and
that and the error with which the pipeline has ended are noted. -/
theorem closeMetrics_run {p : MetricsPipeline String} (h : st.metrics = some p) :
    ∃ t, closeMetrics st = (.ok ((p.shutdown st.sink).1.mapError .replay), t) ∧
      t.metrics = some (p.shutdown st.sink).2.1 ∧
      t.log.entries = st.log.entries ++ (p.shutdown st.sink).2.2.map (⟨Collector.name, ·⟩) ∧
      t.trace = st.trace ++
        ((p.shutdown st.sink).2.2.map fun text => .reported ⟨Collector.name, text⟩) ++
          failure ((p.shutdown st.sink).1.mapError .replay) ∧
      t.openDatabase = st.openDatabase ∧ t.openWorkload = st.openWorkload := by
  unfold closeMetrics
  rw [bind_get, h]
  dsimp only
  rw [bind_get]
  rcases p.shutdown st.sink with ⟨answer, p', texts⟩
  dsimp only
  rw [bind_modify, bind_run, noteAll_run (fun text => .reported ⟨Collector.name, text⟩)]
  dsimp only
  rw [noteFailure_run]
  exact ⟨_, rfl, rfl, entries_reportAll Collector.name texts st.log, rfl, rfl, rfl⟩

/-- Without a metrics pipeline, nothing happens. -/
theorem closeMetrics_none (h : st.metrics = none) : closeMetrics st = (.ok (.ok ()), st) := by
  unfold closeMetrics
  rw [bind_get, h]
  rfl

/-- A database is shut down, once, and its error is noted. -/
theorem closeDatabase_run (db : Database δ P) (st : ClientState δ ω P) :
    closeDatabase db st = (.ok ((db.shutdown st.database).1.mapError .database), { st with
      database := (db.shutdown st.database).2
      trace := st.trace ++ .databaseClosed ::
        failure ((db.shutdown st.database).1.mapError .database) }) := by
  unfold closeDatabase
  rw [note, bind_modify, bind_get]
  rcases db.shutdown st.database with ⟨answer, database⟩
  dsimp only
  rw [bind_modify, noteFailure_run, List.append_assoc]
  rfl

/-- A workload is cleaned up, once, and its error is noted. -/
theorem closeWorkload_run (w : Workload ω P) (st : ClientState δ ω P) :
    closeWorkload w st = (.ok ((w.cleanup st.workload).1.mapError .workload), { st with
      workload := (w.cleanup st.workload).2
      trace := st.trace ++ .workloadClosed ::
        failure ((w.cleanup st.workload).1.mapError .workload) }) := by
  unfold closeWorkload
  rw [note, bind_modify, bind_get]
  rcases w.cleanup st.workload with ⟨answer, workload⟩
  dsimp only
  rw [bind_modify, noteFailure_run, List.append_assoc]
  rfl

/-- The metrics pipeline is closed, if one is open. -/
theorem closes_metrics : Closes (closeMetrics : ClientM δ ω P (Except ClientError Unit)) := by
  intro st
  cases h : st.metrics with
  | none => exact ⟨.ok (), st, closeMetrics_none h, by simp, List.prefix_refl _⟩
  | some p =>
    obtain ⟨t, hclosed, -, hlog, -⟩ := closeMetrics_run h
    refine ⟨_, t, hclosed, fun e => partialReport?_of_mapError fun _ => rfl, ?_⟩
    rw [hlog]
    exact List.prefix_append _ _

/-- A database is closed. -/
theorem closes_database (db : Database δ P) :
    Closes (closeDatabase db : ClientM δ ω P (Except ClientError Unit)) := fun st =>
  ⟨_, _, closeDatabase_run db st, fun _ => partialReport?_of_mapError fun _ => rfl,
    List.prefix_refl _⟩

/-- A workload is closed. -/
theorem closes_workload (w : Workload ω P) :
    Closes (closeWorkload w : ClientM δ ω P (Except ClientError Unit)) := fun st =>
  ⟨_, _, closeWorkload_run w st, fun _ => partialReport?_of_mapError fun _ => rfl,
    List.prefix_refl _⟩

/-- The errors among the answers of steps that close something. -/
def closingErrors (answers : List (Except ClientError Unit)) : List ClientError :=
  answers.filterMap fun
    | .ok () => none
    | .error e => some e

/-- Each of them is an answer. -/
theorem error_mem_of_closingErrors {answers : List (Except ClientError Unit)} {e : ClientError}
    (h : e ∈ closingErrors answers) : .error e ∈ answers := by
  obtain ⟨answer, hanswer, heq⟩ := List.mem_filterMap.mp h
  cases answer with
  | ok u => simp at heq
  | error e' => exact Option.some.inj heq ▸ hanswer

/-- Everything is closed, whatever is open. -/
theorem closeAll_run (st : ClientState δ ω P) : ∃ errors t, closeAll st = (.ok errors, t) ∧
    (∀ e ∈ errors, e.partialReport? = none) ∧ st.log.entries <+: t.log.entries := by
  have hopen : ∀ {γ : Type} (thing : Option γ)
      (close : γ → ClientM δ ω P (Except ClientError Unit)), (∀ x, Closes (close x)) →
      Closes (thing.elim (pure (.ok ())) close) := by
    intro γ thing close hclose
    cases thing with
    | none => exact closes_nothing
    | some x => exact hclose x
  obtain ⟨metrics, t₁, h₁, hmetrics, hlog₁⟩ := closes_metrics st
  obtain ⟨database, t₂, h₂, hdatabase, hlog₂⟩ := hopen st.openDatabase closeDatabase closes_database
    { t₁ with openDatabase := none, openWorkload := none }
  obtain ⟨workload, t₃, h₃, hworkload, hlog₃⟩ :=
    hopen st.openWorkload closeWorkload closes_workload t₂
  refine ⟨closingErrors [metrics, database, workload], t₃, ?_, fun e he => ?_,
    (hlog₁.trans hlog₂).trans hlog₃⟩
  · unfold closeAll
    rw [bind_get, bind_run, h₁]
    dsimp only
    rw [bind_modify, bind_run, h₂]
    dsimp only
    rw [bind_run, h₃]
    rfl
  · have hmem := error_mem_of_closingErrors he
    simp only [List.mem_cons, List.not_mem_nil, or_false] at hmem
    rcases hmem with hfails | hfails | hfails
    · exact hmetrics e hfails.symm
    · exact hdatabase e hfails.symm
    · exact hworkload e hfails.symm

end Closing

/-! ## The report -/

section Reporting

variable {s : Settings} {x : Execution δ P} {run : Run P String} {st st' : ClientState δ ω P}

/-- What a run has left is taken over, and all that was reported in it is put into the trace. -/
theorem takeOver_run (run : Run P String) (database : δ) (st : ClientState δ ω P) :
    takeOver run database st = (.ok (), { st with
      database := database, metrics := some run.metrics, log := run.log
      trace := st.trace ++ run.log.entries.map .reported }) := by
  unfold takeOver
  rw [bind_modify, bind_run, noteAll_run]
  rfl

/-- The end of a report: its results are put into a file, if they are to be. -/
def writeReport (s : Settings) (x : Execution δ P) (summary : RunSummary)
    (results : ResultsSnapshot) : ClientM δ ω P ExecutionReport :=
  match s.resultsDir with
  | none => return ⟨summary, results, x.artifacts⟩
  | some dir => do
    let path := s.artifactPath dir resultsJsonSuffix
    saveFile path (results.documentText s.name summary) .json
    return ⟨summary, results, x.artifacts ++ [path]⟩

/-- The results of a report are put into a file. -/
theorem orderly_writeReport (s : Settings) (x : Execution δ P) (summary : RunSummary)
    (results : ResultsSnapshot) :
    Orderly (writeReport s x summary results : ClientM δ ω P ExecutionReport) := by
  unfold writeReport
  split
  · exact orderly_pure _
  · exact .bind (orderly_saveFile _ _ fun _ => rfl) fun _ => orderly_pure _

/-- A report that is written has the summary and the results that it is written with. -/
theorem writeReport_eq_ok {summary : RunSummary} {results : ResultsSnapshot} {rep : ExecutionReport}
    (h : writeReport s x summary results st = (.ok rep, st')) :
    ∃ artifacts, rep = ⟨summary, results, artifacts⟩ := by
  unfold writeReport at h
  cases hdir : s.resultsDir with
  | none =>
    rw [hdir] at h
    exact ⟨_, (Except.ok.inj (congrArg Prod.fst h)).symm⟩
  | some dir =>
    rw [hdir] at h
    obtain ⟨u, t, -, hrest⟩ := bind_eq_ok h
    exact ⟨_, (Except.ok.inj (congrArg Prod.fst hrest)).symm⟩

/-- A report is written. -/
theorem orderly_report (s : Settings) (x : Execution δ P) (run : Run P String) :
    Orderly (report s x run : ClientM δ ω P ExecutionReport) := by
  unfold report
  split
  · exact orderly_breakDown _
  · exact orderly_breakDown _
  · exact orderly_stopWith rfl
  · refine closes_metrics.bind_orRethrow fun _ => .bind orderly_get fun st => ?_
    dsimp only
    split
    · exact .bind (orderly_orStopReplay _) fun results => orderly_writeReport s x _ results
    · exact .bind (orderly_stopWith rfl) fun results => orderly_writeReport s x _ results

/-- An answer that has not stopped the session has left its state alone. -/
theorem state_of_orRethrow {answer : Except ClientError α} {a : α}
    (h : orRethrow answer st = (.ok a, st')) : st' = st := by
  cases answer <;> exact (congrArg Prod.snd h).symm

/-- Results that a pipeline gives are its snapshot. -/
theorem snapshot_of_results {p : MetricsPipeline String} {results : ResultsSnapshot}
    (h : p.results = .ok results) : p.snapshot = some results := by
  unfold MetricsPipeline.results at h
  split at h
  · rename_i kept hkept
    rw [hkept, Except.ok.inj h]
  · simp at h

/-- Where a run has come to its end with a summary, it has terminated. -/
theorem phase_of_finished {setup : RunSetup String} {summary : RunSummary}
    (h : run.end? setup = some (.finished summary)) :
    ∃ finish, run.phase = .terminated finish ∧ summary = run.summary setup.start finish := by
  unfold Run.end? at h
  split at h
  · rename_i finish hphase
    exact ⟨finish, hphase, (Run.RunEnd.finished.inj (Option.some.inj h)).symm⟩
  all_goals simp at h

/-- A report is that of a run that has ended, with the results that the metrics pipeline has after
its shutdown. -/
theorem report_eq_ok {rep : ExecutionReport} {p : MetricsPipeline String}
    (h : report s x run st = (.ok rep, st')) (hmetrics : st.metrics = some p) :
    ∃ finish, run.phase = .terminated finish ∧
      rep.summary = run.summary x.scene.setup.start finish ∧
      (p.shutdown st.sink).2.1.snapshot = some rep.results := by
  -- Unless the run has ended with a summary, the session stops.
  have hstops : ∀ {stop : ClientStop},
      (.error stop : Except ClientStop ExecutionReport) ≠ .ok rep := by
    simp
  unfold report at h
  rcases hend : run.end? x.scene.setup with _ | (summary | e | text)
  · rw [hend] at h
    exact absurd (congrArg Prod.fst h) hstops
  · rw [hend] at h
    dsimp only at h
    obtain ⟨finish, hphase, rfl⟩ := phase_of_finished hend
    obtain ⟨t, hclosed, hafter, -, -, -⟩ := closeMetrics_run hmetrics
    obtain ⟨closed, t', hclose, h₁⟩ := bind_eq_ok h
    -- The results that are read afterwards are those that this shutdown has left.
    obtain ⟨-, rfl⟩ := Prod.mk.inj (hclosed.symm.trans hclose)
    obtain ⟨u, t'', hrethrow, h₂⟩ := bind_eq_ok h₁
    obtain rfl := state_of_orRethrow hrethrow
    rw [bind_get, hafter] at h₂
    dsimp only at h₂
    obtain ⟨results, t₃, hresults, h₃⟩ := bind_eq_ok h₂
    obtain ⟨hsnapshot, -⟩ := orStopReplay_eq_ok hresults
    obtain ⟨artifacts, rfl⟩ := writeReport_eq_ok h₃
    exact ⟨finish, hphase, rfl, snapshot_of_results hsnapshot⟩
  · rw [hend] at h
    exact absurd (congrArg Prod.fst h) hstops
  · rw [hend] at h
    exact absurd (congrArg Prod.fst h) hstops

end Reporting

/-! ## The end -/

section Finishing

variable {s : Settings} {x : Execution δ P}

/-- The answers with which a session ends after an execution: the execution has failed or has a
report, and with a report either something has reported an error during the run, or something has
failed to close, or nothing is wrong. -/
inductive Finishes (execution : Except ClientError ExecutionReport) (log : ErrorLog) :
    Except ClientStop ClientOutcome → Prop
  | failed {e : ClientError} (h : execution = .error e) :
    Finishes execution log (.error (.failed e))
  | reported {rep : ExecutionReport} {component message : String} (h : execution = .ok rep) :
    Finishes execution log (.error (.failed (.runFailed component message (some rep))))
  | unclosed {rep : ExecutionReport} {e : ClientError} (h : execution = .ok rep)
    (he : e.partialReport? = none) : Finishes execution log (.error (.failed e))
  | executed {rep : ExecutionReport} (h : execution = .ok rep) (hlog : log.entries = []) :
    Finishes execution log (.ok (.executed rep))

/-- A session ends with one of these answers. -/
theorem finishes (execution : Except ClientError ExecutionReport) (st : ClientState δ ω P) :
    Finishes execution st.log (finish execution st).1 := by
  obtain ⟨errors, t, hclosed, herrors, hlog⟩ := closeAll_run st
  unfold finish
  rw [bind_run, hclosed]
  cases execution with
  | error e => exact .failed rfl
  | ok rep =>
    dsimp only [orRethrow]
    rw [pure_bind, bind_get]
    cases hfirst : t.log.first? with
    | some first => exact .reported rfl
    | none =>
      cases errors with
      | cons e rest => exact .unclosed rfl (herrors e List.mem_cons_self)
      | nil =>
        rw [ErrorLog.first?, List.head?_eq_none_iff] at hfirst
        exact .executed rfl (List.prefix_nil.mp (hfirst ▸ hlog))

/-- The report that the answer of a session carries, as that of an execution or with the error of a
run that failed. -/
def report? : Except ClientStop ClientOutcome → Option ExecutionReport
  | .ok (.executed rep) => some rep
  | .error (.failed e) => e.partialReport?
  | _ => none

/-- Orderly steps that are attempted: something breaks down, or the answer carries no results if it
is an error, and otherwise is that of the steps. -/
theorem attempt_cases {steps : ClientM δ ω P α} (h : Orderly steps) (st : ClientState δ ω P) :
    (∃ b t, attempt steps st = (.error (.broken b), t)) ∨
      ∃ answer t, attempt steps st = (.ok answer, t) ∧ st.log.entries <+: t.log.entries ∧
        (∀ e, answer = .error e → e.partialReport? = none) ∧
        ∀ a, answer = .ok a → steps st = (.ok a, t) := by
  have hlog := h.log st
  have herrors := h.errors st
  unfold attempt
  revert hlog herrors
  rcases steps st with ⟨(e | b) | a, t⟩ <;> intro hlog herrors
  · refine .inr ⟨_, t, rfl, hlog, fun e' he => ?_, by simp⟩
    obtain rfl := Except.error.inj he
    exact herrors e rfl
  · exact .inl ⟨b, t, rfl⟩
  · exact .inr ⟨_, t, rfl, hlog, by simp, fun a' ha => Except.ok.inj ha ▸ rfl⟩

/-- A report at the end of an execution is that of its run. -/
theorem conclude_report {run : Run P String} {database : δ} {st : ClientState δ ω P}
    {rep : ExecutionReport} (h : report? (conclude s x run database st).1 = some rep) :
    ∃ finish, run.phase = .terminated finish ∧
      rep.summary = run.summary x.scene.setup.start finish ∧
      (run.metrics.shutdown st.sink).2.1.snapshot = some rep.results ∧
      ((conclude s x run database st).1 = .ok (.executed rep) → run.log.entries = []) := by
  unfold conclude at h ⊢
  rw [bind_run, takeOver_run] at h ⊢
  dsimp only at h ⊢
  rw [bind_run] at h ⊢
  rcases attempt_cases (orderly_report s x run) { st with
    database := database, metrics := some run.metrics, log := run.log
    trace := st.trace ++ run.log.entries.map .reported } with
    ⟨b, t, hbroken⟩ | ⟨answer, t, hanswer, hlog, herrors, hok⟩
  · rw [hbroken] at h
    simp [report?] at h
  · rw [hanswer] at h ⊢
    dsimp only at h hlog ⊢
    have hfinishes := finishes answer t
    generalize (finish answer t).1 = ending at h hfinishes ⊢
    cases hfinishes with
    | failed he => simp [report?, herrors _ he] at h
    | unclosed _ he => simp [report?, he] at h
    | reported hrep =>
      obtain rfl := Option.some.inj h
      obtain ⟨finish, hphase, hsummary, hsnapshot⟩ := report_eq_ok (hok _ hrep) rfl
      exact ⟨finish, hphase, hsummary, hsnapshot, by simp⟩
    | executed hrep hempty =>
      obtain rfl := Option.some.inj h
      obtain ⟨finish, hphase, hsummary, hsnapshot⟩ := report_eq_ok (hok _ hrep) rfl
      exact ⟨finish, hphase, hsummary, hsnapshot, fun _ => List.prefix_nil.mp (hempty ▸ hlog)⟩

end Finishing

end Client

end WorkloadReplay
