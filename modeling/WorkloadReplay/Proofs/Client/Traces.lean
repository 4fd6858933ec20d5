import WorkloadReplay.Proofs.Client.Executions

/-!
# What steps leave in the trace

The trace of a session holds what is opened and closed and every failure, in order. Most steps are
`Plain`: they open and close nothing, and all that they add to the trace is the error with which
they stop the session. The steps that open something add that they have done so, or their error
(`openDatabase_cases`, `openWorkload_cases`); those that close something add that and then their
error, with which they do not stop the session (`closeDatabase_run`, `closeWorkload_run`,
`closeAll_cases`).
-/

namespace WorkloadReplay

namespace Client

variable {δ ω P α β : Type} {s : Settings} {r : Registry δ ω P} {st t u : ClientState δ ω P}

/-- The events of an answer that may stop the session. What breaks down leaves no event. -/
def stopping : Except ClientStop α → List ClientEvent
  | .error (.failed e) => [.failed e]
  | _ => []

/-! ## Plain steps -/

/-- A step with this answer has left the state `t`, and nothing but its failure in the trace. -/
structure Passes (st : ClientState δ ω P) (answer : Except ClientStop α) (t : ClientState δ ω P) :
    Prop where
  trace : t.trace = st.trace ++ stopping answer
  openDatabase : t.openDatabase = st.openDatabase
  openWorkload : t.openWorkload = st.openWorkload
  log : t.log = st.log

/-- A step that opens and closes nothing. -/
def Plain (x : ClientM δ ω P α) : Prop := ∀ st, Passes st (x st).1 (x st).2

/-- A step that has come to its end, and then another one. -/
theorem Passes.trans {a : α} {answer : Except ClientStop β} (h : Passes st (.ok a) t)
    (h' : Passes t answer u) : Passes st answer u where
  trace := by
    have hfirst : t.trace = st.trace := by simpa [stopping] using h.trace
    rw [h'.trace, hfirst]
  openDatabase := h'.openDatabase.trans h.openDatabase
  openWorkload := h'.openWorkload.trans h.openWorkload
  log := h'.log.trans h.log

/-- A step that has come to its end leaves the trace as it was. -/
theorem Passes.trace_eq {a : α} (h : Passes st (.ok a) t) : t.trace = st.trace := by
  simpa [stopping] using h.trace

/-- A step that has stopped the session has done so for all that was to come after it. -/
theorem Passes.stop {stop : ClientStop} (h : Passes st (.error stop : Except ClientStop α) t) :
    Passes st (.error stop : Except ClientStop β) t where
  trace := by
    rw [h.trace]
    cases stop <;> rfl
  openDatabase := h.openDatabase
  openWorkload := h.openWorkload
  log := h.log

/-- Nothing happens. -/
theorem plain_pure (a : α) : Plain (pure a : ClientM δ ω P α) :=
  fun st => ⟨(List.append_nil st.trace).symm, rfl, rfl, rfl⟩

/-- The state is looked at. -/
theorem plain_get : Plain (get : ClientM δ ω P (ClientState δ ω P)) :=
  fun st => ⟨(List.append_nil st.trace).symm, rfl, rfl, rfl⟩

/-- The state changes in what a trace says nothing about. -/
theorem plain_modify {f : ClientState δ ω P → ClientState δ ω P}
    (h : ∀ st, (f st).trace = st.trace ∧ (f st).openDatabase = st.openDatabase ∧
      (f st).openWorkload = st.openWorkload ∧ (f st).log = st.log) :
    Plain (modify f : ClientM δ ω P PUnit) := fun st =>
  ⟨(h st).1.trans (List.append_nil st.trace).symm, (h st).2.1, (h st).2.2.1, (h st).2.2.2⟩

/-- Steps in a row that open and close nothing. -/
theorem Plain.bind {x : ClientM δ ω P α} {f : α → ClientM δ ω P β} (hx : Plain x)
    (hf : ∀ a, Plain (f a)) : Plain (x >>= f) := by
  intro st
  have hfirst := hx st
  rw [bind_run]
  revert hfirst
  rcases x st with ⟨stop | a, t⟩ <;> intro hfirst
  · exact hfirst.stop
  · exact hfirst.trans (hf a t)

/-- The session stops with an error. -/
theorem plain_stopWith (e : ClientError) : Plain (stopWith e : ClientM δ ω P α) :=
  fun _ => ⟨rfl, rfl, rfl, rfl⟩

/-- The session stops because something has broken down. -/
theorem plain_breakDown (b : Breakdown) : Plain (breakDown b : ClientM δ ω P α) :=
  fun st => ⟨(List.append_nil st.trace).symm, rfl, rfl, rfl⟩

/-- An answer stops the session if it is an error. -/
theorem plain_orStop (answer : Except ClientError α) : Plain (orStop answer : ClientM δ ω P α) := by
  cases answer with
  | ok a => exact plain_pure a
  | error e => exact plain_stopWith e

/-- So does the answer of a replay. -/
theorem plain_orStopReplay (answer : Except ReplayError α) :
    Plain (orStopReplay answer : ClientM δ ω P α) := by
  unfold orStopReplay
  split
  · exact plain_pure _
  · exact plain_breakDown _
  · exact plain_stopWith _

/-- A file is written. -/
theorem plain_writeFile (path text : String) (refusal : ClientError) :
    Plain (writeFile path text refusal : ClientM δ ω P Unit) := by
  refine plain_get.bind fun st => ?_
  split
  · exact plain_modify fun _ => ⟨rfl, rfl, rfl, rfl⟩
  · exact plain_stopWith _

/-- A file is completed. -/
theorem plain_completeFile (path text : String) :
    Plain (completeFile path text : ClientM δ ω P Unit) :=
  plain_get.bind fun _ => plain_orStop _

/-- A file is saved. -/
theorem plain_saveFile (path text : String) (refusal : String → ClientError) :
    Plain (saveFile path text refusal : ClientM δ ω P Unit) := by
  refine plain_get.bind fun st => (plain_writeFile _ _ _).bind fun _ => ?_
  exact (plain_orStop _).bind fun _ => plain_completeFile _ _

/-- Settings are checked. -/
theorem plain_checkSettings (s : Settings) : Plain (checkSettings s : ClientM δ ω P Unit) := by
  refine plain_get.bind fun st => ?_
  split
  · exact plain_pure _
  · exact plain_stopWith _

/-- The directory of a file is made. -/
theorem plain_makeParent (path : String) : Plain (makeParent path : ClientM δ ω P Unit) := by
  refine plain_get.bind fun st => ?_
  split
  · exact plain_modify fun _ => ⟨rfl, rfl, rfl, rfl⟩
  · exact plain_stopWith _

/-- The directory for results is made and the settings are written down. -/
theorem plain_prepareArtifacts (s : Settings) :
    Plain (prepareArtifacts s : ClientM δ ω P (List String)) := by
  unfold prepareArtifacts
  split
  · exact plain_pure _
  · refine plain_get.bind fun st => (plain_orStop _).bind fun files => ?_
    refine .bind (plain_modify fun _ => ⟨rfl, rfl, rfl, rfl⟩) fun _ => ?_
    exact (plain_saveFile _ _ _).bind fun _ => plain_pure _

/-- The results log is begun. -/
theorem plain_prepareLog (s : Settings) : Plain (prepareLog s : ClientM δ ω P (List String)) := by
  unfold prepareLog
  split
  · refine (plain_writeFile _ _ _).bind fun _ => ?_
    exact .bind (plain_modify fun _ => ⟨rfl, rfl, rfl, rfl⟩) fun _ => plain_pure _
  · exact plain_pure _

/-- The metrics pipeline is opened, which no trace says anything about. -/
theorem plain_openMetrics (s : Settings) :
    Plain (openMetrics s : ClientM δ ω P (MetricsPipeline String)) := by
  refine plain_get.bind fun st => ?_
  split
  · exact plain_breakDown _
  · exact .bind (plain_modify fun _ => ⟨rfl, rfl, rfl, rfl⟩) fun _ => plain_pure _

/-- The streams of a workload are built. -/
theorem plain_buildStreams (w : Workload ω P) (seed : Nat) :
    Plain (buildStreams w seed : ClientM δ ω P (List (OperationStream P))) := by
  refine plain_get.bind fun st => ?_
  split
  refine .bind (plain_modify fun _ => ⟨rfl, rfl, rfl, rfl⟩) fun _ => ?_
  split
  · exact plain_pure _
  · exact plain_breakDown _
  · exact plain_stopWith _

/-! ## Opening -/

/-- A step and then others: either the first one stops the session, or it comes to its end and the
others go on. -/
theorem bind_cases (x : ClientM δ ω P α) (f : α → ClientM δ ω P β) (st : ClientState δ ω P) :
    (∃ stop t, x st = (.error stop, t) ∧ (x >>= f) st = (.error stop, t)) ∨
      ∃ a t, x st = (.ok a, t) ∧ (x >>= f) st = f a t := by
  rw [bind_run]
  rcases x st with ⟨stop | a, t⟩
  · exact .inl ⟨stop, t, rfl, rfl⟩
  · exact .inr ⟨a, t, rfl, rfl⟩

/-- The chosen database in its state after initialization. -/
def initialDatabase (s : Settings) (db : Database δ P) : δ := (db.init s.databaseParams db.fresh).2

/-- The chosen workload in its state after initialization. -/
def initialWorkload (s : Settings) (w : Workload ω P) : ω := (w.init s.workloadParams w.fresh).2

/-- A database is opened: it has been chosen and initialized, or the session stops. -/
theorem openDatabase_cases (s : Settings) (r : Registry δ ω P) (st : ClientState δ ω P) :
    (∃ e t, openDatabase s r st = (.error (.failed e), t) ∧
      Passes st (.error (.failed e) : Except ClientStop Unit) t ∧ t.workload = st.workload) ∨
    ∃ db, chosenDatabase s r = .ok db ∧ (db.init s.databaseParams db.fresh).1 = .ok () ∧
      openDatabase s r st = (.ok db, { st with
        database := initialDatabase s db, trace := st.trace ++ [.databaseOpened] }) := by
  unfold openDatabase
  cases hchosen : chosenDatabase s r with
  | error e => exact .inl ⟨e, _, rfl, ⟨rfl, rfl, rfl, rfl⟩, rfl⟩
  | ok db =>
    rw [orStop, pure_bind]
    rcases hinit : db.init s.databaseParams db.fresh with ⟨e | u, database⟩
    · exact .inl ⟨.database e, _, rfl, ⟨rfl, rfl, rfl, rfl⟩, rfl⟩
    · refine .inr ⟨db, rfl, by rw [hinit], ?_⟩
      rw [initialDatabase, hinit]
      rfl

/-- A workload is opened: it has been chosen and initialized, or the session stops. -/
theorem openWorkload_cases (s : Settings) (r : Registry δ ω P) (st : ClientState δ ω P) :
    (∃ e t, openWorkload s r st = (.error (.failed e), t) ∧
      Passes st (.error (.failed e) : Except ClientStop Unit) t ∧ t.database = st.database) ∨
    ∃ w, chosenWorkload s r = .ok w ∧ (w.init s.workloadParams w.fresh).1 = .ok () ∧
      openWorkload s r st = (.ok w, { st with
        workload := initialWorkload s w, trace := st.trace ++ [.workloadOpened] }) := by
  unfold openWorkload
  cases hchosen : chosenWorkload s r with
  | error e => exact .inl ⟨e, _, rfl, ⟨rfl, rfl, rfl, rfl⟩, rfl⟩
  | ok w =>
    rw [orStop, pure_bind]
    rcases hinit : w.init s.workloadParams w.fresh with ⟨e | u, workload⟩
    · exact .inl ⟨.workload e, _, rfl, ⟨rfl, rfl, rfl, rfl⟩, rfl⟩
    · refine .inr ⟨w, rfl, by rw [hinit], ?_⟩
      rw [initialWorkload, hinit]
      rfl

/-! ## Closing -/

/-- A step that puts some events into the trace and some reports into the error log. What is open
stays open. -/
structure Adds (st : ClientState δ ω P) (events : List ClientEvent) (reports : List ReportedError)
    (t : ClientState δ ω P) : Prop where
  trace : t.trace = st.trace ++ events
  log : t.log.entries = st.log.entries ++ reports
  openDatabase : t.openDatabase = st.openDatabase
  openWorkload : t.openWorkload = st.openWorkload

/-- Nothing is added. -/
theorem Adds.refl (st : ClientState δ ω P) : Adds st [] [] st :=
  ⟨(List.append_nil _).symm, (List.append_nil _).symm, rfl, rfl⟩

/-- A plain step adds its failure and reports nothing. -/
theorem Passes.adds {answer : Except ClientStop α} (h : Passes st answer t) :
    Adds st (stopping answer) [] t :=
  ⟨h.trace, by rw [h.log, List.append_nil], h.openDatabase, h.openWorkload⟩

/-- One thing is added after another. -/
theorem Adds.trans {events events' : List ClientEvent} {reports reports' : List ReportedError}
    (h : Adds st events reports t) (h' : Adds t events' reports' u) :
    Adds st (events ++ events') (reports ++ reports') u where
  trace := by rw [h'.trace, h.trace, List.append_assoc]
  log := by rw [h'.log, h.log, List.append_assoc]
  openDatabase := h'.openDatabase.trans h.openDatabase
  openWorkload := h'.openWorkload.trans h.openWorkload

/-- The metrics pipeline is shut down: what its consumer reports is noted and put into the log, and
then the error with which the pipeline has ended. -/
theorem closeMetrics_cases (st : ClientState δ ω P) : ∃ reports answer t,
    closeMetrics st = (.ok answer, t) ∧
      Adds st (reports.map .reported ++ failure answer) reports t ∧
      ∀ e, answer = .error e → ∃ e', e = .replay e' := by
  cases hmetrics : st.metrics with
  | none => exact ⟨[], .ok (), st, closeMetrics_none hmetrics, .refl st, by simp⟩
  | some p =>
    obtain ⟨t, hclosed, -, hlog, htrace, hdb, hw⟩ := closeMetrics_run hmetrics
    refine ⟨_, _, t, hclosed, ⟨?_, hlog, hdb, hw⟩, fun e he => ?_⟩
    · rw [htrace, List.map_map, List.append_assoc]
      rfl
    · obtain ⟨e', -, rfl⟩ := eq_error_of_mapError he
      exact ⟨e', rfl⟩

/-- The events of closing something, if it is open. -/
def closing {γ : Type} (thing : Option γ) (event : ClientEvent) (answer : Except ClientError Unit) :
    List ClientEvent := thing.elim [] fun _ => event :: failure answer

/-- Everything that is open is closed. The events are those of the metrics pipeline, of the database
and of the workload, in this order. -/
structure ClosesAll (db : Option (Database δ P)) (w : Option (Workload ω P))
    (events : List ClientEvent) (reports : List ReportedError) (errors : List ClientError)
    (t : ClientState δ ω P) : Prop where
  answers : ∃ metrics database workload,
    events = reports.map .reported ++ failure metrics ++
      (closing db .databaseClosed database ++ closing w .workloadClosed workload) ∧
    errors = closingErrors [metrics, database, workload] ∧
    (db = none → database = .ok ()) ∧ (w = none → workload = .ok ())
  /-- The last call that the database has seen is its shutdown. -/
  database : ∀ x, db = some x → ∃ σ, t.database = (x.shutdown σ).2
  /-- The last call that the workload has seen is its cleanup. -/
  workload : ∀ x, w = some x → ∃ σ, t.workload = (x.cleanup σ).2

/-- Something is closed if it is open. What holds after closing it, holds; if there is nothing to
close, then nothing happens. -/
theorem closeIfOpen_cases {γ : Type} {close : γ → ClientM δ ω P (Except ClientError Unit)}
    (event : ClientEvent) (after : ClientState δ ω P → γ → ClientState δ ω P → Prop)
    (h : ∀ x st, ∃ answer t, close x st = (.ok answer, t) ∧
      t.trace = st.trace ++ event :: failure answer ∧ after st x t)
    (thing : Option γ) (st : ClientState δ ω P) : ∃ answer t,
    thing.elim (pure (.ok ())) close st = (.ok answer, t) ∧
      t.trace = st.trace ++ closing thing event answer ∧
      (thing = none → answer = .ok () ∧ t = st) ∧ ∀ x, thing = some x → after st x t := by
  cases thing with
  | none => exact ⟨.ok (), st, rfl, (List.append_nil _).symm, fun _ => ⟨rfl, rfl⟩, by simp⟩
  | some x =>
    obtain ⟨answer, t, hclose, htrace, hafter⟩ := h x st
    exact ⟨answer, t, hclose, htrace, by simp, fun y hy => Option.some.inj hy ▸ hafter⟩

/-- Everything is closed, in the order reverse to that of opening. -/
theorem closeAll_cases (st : ClientState δ ω P) : ∃ events reports errors t,
    closeAll st = (.ok errors, t) ∧
      ClosesAll st.openDatabase st.openWorkload events reports errors t ∧
      t.trace = st.trace ++ events ∧ t.log.entries = st.log.entries ++ reports := by
  obtain ⟨reports, metrics, t₁, h₁, hadds, -⟩ := closeMetrics_cases st
  obtain ⟨database, t₂, h₂, htrace₂, hnone₂, hsome₂⟩ := closeIfOpen_cases
    .databaseClosed (fun st x t => t.database = (x.shutdown st.database).2 ∧ t.log = st.log)
    (fun db st => ⟨_, _, closeDatabase_run db st, rfl, rfl, rfl⟩) st.openDatabase
    { t₁ with openDatabase := none, openWorkload := none }
  obtain ⟨workload, t₃, h₃, htrace₃, hnone₃, hsome₃⟩ := closeIfOpen_cases
    .workloadClosed (fun st x t => t.workload = (x.cleanup st.workload).2 ∧
      t.database = st.database ∧ t.log = st.log)
    (fun w st => ⟨_, _, closeWorkload_run w st, rfl, rfl, rfl, rfl⟩) st.openWorkload t₂
  -- Closing the database and the workload reports nothing, and neither touches the other one.
  have hlog₂ : t₂.log = t₁.log := by
    cases hdb : st.openDatabase with
    | none => rw [(hnone₂ hdb).2]
    | some db => exact (hsome₂ db hdb).2
  have hkept₃ : t₃.database = t₂.database ∧ t₃.log = t₂.log := by
    cases hw : st.openWorkload with
    | none => rw [(hnone₃ hw).2]; exact ⟨rfl, rfl⟩
    | some w => exact (hsome₃ w hw).2
  have hcloses : ClosesAll st.openDatabase st.openWorkload
      (reports.map .reported ++ failure metrics ++
        (closing st.openDatabase .databaseClosed database ++
          closing st.openWorkload .workloadClosed workload))
      reports (closingErrors [metrics, database, workload]) t₃ :=
    { answers := ⟨metrics, database, workload, rfl, rfl, fun h => (hnone₂ h).1,
        fun h => (hnone₃ h).1⟩
      database := fun db hdb => ⟨_, hkept₃.1.trans (hsome₂ db hdb).1⟩
      workload := fun w hw => ⟨_, (hsome₃ w hw).1⟩ }
  refine ⟨_, reports, _, t₃, ?_, hcloses, ?_, ?_⟩
  · unfold closeAll
    rw [bind_get, bind_run, h₁]
    dsimp only
    rw [bind_modify, bind_run, h₂]
    dsimp only
    rw [bind_run, h₃]
    rfl
  · rw [htrace₃, htrace₂, hadds.trace]
    simp only [List.append_assoc]
  · rw [hkept₃.2, hlog₂, hadds.log]

end Client

end WorkloadReplay
