import WorkloadReplay.Proofs.Client.Courses

/-!
# Which failure a session ends with

Several steps of a session may fail, and an execution may report errors as well, but a session ends
with one error. `error_names_first` says for all modes which one: it names the failure that came
first in the session, with three exceptions (`Replaced`). Where operations are counted, a workload
that cannot be cleaned up gives its error although the count has failed before. Where results are
recorded, a file that cannot be completed gives its error although the database or the workload
could not be closed before. In an execution whose run has reported errors, a metrics pipeline that
breaks down or a results document that cannot be written gives its error in place of those reported.
`first_failure_replaced` is a session of the first kind.
-/

namespace WorkloadReplay

namespace ClientEvent

/-- The event is a failure of a step or a report of an error. -/
def isFailure : ClientEvent → Bool
  | failed _ => true
  | reported _ => true
  | _ => false

/-- What has failed, in words. -/
def failureText : ClientEvent → String
  | failed e => e.message
  | reported e => e.toText
  | _ => ""

end ClientEvent

namespace Client

variable {δ ω P α : Type} {s : Settings} {r : Registry δ ω P} {codec : PayloadCodec P}
  {clock : Clock} {state st : ClientState δ ω P}

/-- The failures in a trace, in order. -/
def failures (trace : List ClientEvent) : List ClientEvent := trace.filter ClientEvent.isFailure

/-- An error names a failure: it is the error of the step that has failed, or the error that was
reported, or that of a failed run with the source and the message of the report. -/
inductive Names : ClientError → ClientEvent → Prop
  | own (e : ClientError) : Names e (.failed e)
  | replay (e : ReplayError) : Names (.replay e) (.reported e.asReported)
  | report (a : ReportedError) (rep : Option ExecutionReport) :
    Names (.runFailed a.source a.message rep) (.reported a)

/-- An error names the first of some failures. -/
def NamesFirst (e : ClientError) (failures : List ClientEvent) : Prop :=
  ∃ first rest, failures = first :: rest ∧ Names e first

/-- A later error has taken the place of the first failure. -/
inductive Replaced (s : Settings) : ClientError → List ClientEvent → Prop
  /-- The count has failed, and so has the cleanup after it. -/
  | count {e : ReplayError} {e' : WorkloadError} (hmode : s.mode = .calculateStatistics) :
    Replaced s (.workload e') [.failed (.replay e), .failed (.workload e')]
  /-- The database could not be shut down, or the workload not be cleaned up, or both, and after
  that the file of a recording cannot be completed. -/
  | recording {path text : String} {size : Nat} {shutdown : Except DatabaseError Unit}
    {cleanup : Except WorkloadError Unit} (hmode : s.mode = .createValidationParams path size)
    (hclosing : shutdown ≠ .ok () ∨ cleanup ≠ .ok ()) :
    Replaced s (.file text) (failure (shutdown.mapError .database) ++
      (failure (cleanup.mapError .workload) ++ [.failed (.file text)]))
  /-- Errors have been reported, and after them there are no results or no way to write them. -/
  | results {e : ClientError} {reports : List ReportedError} {rest : List ClientEvent}
    (hmode : s.mode = .execute) (hreports : reports ≠ []) (he : ConcernsResults e) :
    Replaced s e (reports.map .reported ++ .failed e :: rest)

/-- An error that has taken the place of the first failure carries no results. -/
theorem Replaced.partialReport? {e : ClientError} {failures : List ClientEvent}
    (h : Replaced s e failures) : e.partialReport? = none := by
  cases h with
  | count hmode => rfl
  | recording hmode hclosing => rfl
  | results hmode hreports he => cases he <;> rfl

/-- The wording of an error is that of the failure that it names. -/
theorem message_of_names {e : ClientError} {event : ClientEvent} (h : Names e event) :
    e.message = event.failureText := by
  cases h <;> rfl

/-! ## Failures in parts of a trace -/

@[simp] theorem failures_nil : failures [] = [] := rfl

@[simp] theorem failures_append (trace more : List ClientEvent) :
    failures (trace ++ more) = failures trace ++ failures more :=
  List.filter_append trace more

@[simp] theorem failures_databaseOpened (trace : List ClientEvent) :
    failures (.databaseOpened :: trace) = failures trace := rfl

@[simp] theorem failures_databaseClosed (trace : List ClientEvent) :
    failures (.databaseClosed :: trace) = failures trace := rfl

@[simp] theorem failures_workloadOpened (trace : List ClientEvent) :
    failures (.workloadOpened :: trace) = failures trace := rfl

@[simp] theorem failures_workloadClosed (trace : List ClientEvent) :
    failures (.workloadClosed :: trace) = failures trace := rfl

@[simp] theorem failures_failed (e : ClientError) (trace : List ClientEvent) :
    failures (.failed e :: trace) = .failed e :: failures trace := rfl

/-- A failed step is a failure. -/
@[simp] theorem failures_failure (answer : Except ClientError α) :
    failures (failure answer) = failure answer := by
  cases answer <;> rfl

/-- So is that of a step which is taken. -/
@[simp] theorem failures_failureAfter (first answer : Except ClientError Unit) :
    failures (failureAfter first answer) = failureAfter first answer := by
  cases first with
  | ok u => exact failures_failure answer
  | error e => rfl

/-- Reports are failures. -/
@[simp] theorem failures_reported (reports : List ReportedError) :
    failures (reports.map .reported) = reports.map .reported := by
  induction reports with
  | nil => rfl
  | cons a rest ih => exact congrArg (ClientEvent.reported a :: ·) ih

/-- What is opened is no failure. -/
theorem failures_opening {γ : Type} (thing : Option γ) {event : ClientEvent}
    (hevent : event.isFailure = false) : failures (opening thing event) = [] := by
  cases thing with
  | none => rfl
  | some x => simp [opening, failures, hevent]

/-- The errors of steps that close something are their failures. -/
theorem map_closingErrors (answers : List (Except ClientError Unit)) :
    (closingErrors answers).map .failed = answers.flatMap failure := by
  induction answers with
  | nil => rfl
  | cons answer rest ih =>
    cases answer with
    | ok u => exact ih
    | error e => exact congrArg (ClientEvent.failed e :: ·) ih

/-- The failure of closing something. What is not open does not fail to be closed. -/
theorem failures_closing {γ : Type} {thing : Option γ} {event : ClientEvent}
    (hevent : event.isFailure = false) {answer : Except ClientError Unit}
    (hnone : thing = none → answer = .ok ()) :
    failures (closing thing event answer) = failure answer := by
  cases thing with
  | none =>
    rw [hnone rfl]
    rfl
  | some x => simpa [closing, failures, hevent] using failures_failure answer

/-- The failures of closing everything are the reports of the metrics pipeline and then the errors
that are left for the verdict. -/
theorem ClosesAll.failures_eq {db : Option (Database δ P)} {w : Option (Workload ω P)}
    {events : List ClientEvent} {reports : List ReportedError} {errors : List ClientError}
    (h : ClosesAll db w events reports errors st) :
    failures events = reports.map .reported ++ errors.map .failed := by
  obtain ⟨metrics, database, workload, rfl, rfl, hdb, hw⟩ := h.answers
  rw [failures_append, failures_append, failures_append, failures_reported, failures_failure,
    failures_closing rfl hdb, failures_closing rfl hw, map_closingErrors, List.append_assoc]
  simp

/-! ## All modes -/

/-- The first of some failures is named by its own error. -/
theorem namesFirst_own (e : ClientError) (rest : List ClientEvent) :
    NamesFirst e (.failed e :: rest) := ⟨_, rest, rfl, .own e⟩

/-- An error that is the answer of a step, whatever is made of other answers. -/
theorem eq_error_of_map {answer : Except ClientError α} {v : ClientOutcome} {e : ClientError}
    (h : (answer.map fun _ => v) = .error e) : answer = .error e := by
  cases answer with
  | ok a => exact absurd h (by simp [Except.map])
  | error e' => exact congrArg _ (Except.error.inj h)

/-- The verdict on an execution names the first failure, unless errors have been reported and then
there are no results or no way to write them. -/
theorem verdict_namesFirst (hmode : s.mode = .execute)
    {execution : Except ClientError ExecutionReport} {reports more : List ReportedError}
    {errors : List ClientError} (hout : ComesOut reports execution) {e : ClientError}
    (h : verdict execution (reports ++ more) errors = .error e) :
    NamesFirst e (reports.map .reported ++ (failure execution ++
        (more.map .reported ++ errors.map .failed))) ∨
      Replaced s e (reports.map .reported ++ (failure execution ++
        (more.map .reported ++ errors.map .failed))) := by
  cases execution with
  | ok rep =>
    left
    -- Without an error of its own, an execution has the reports and the errors of closing.
    rw [failure, List.nil_append, ← List.append_assoc, ← List.map_append]
    generalize reports ++ more = all at h ⊢
    cases all with
    | cons first rest =>
      obtain rfl := Except.error.inj h
      exact ⟨_, _, rfl, .report first (some rep)⟩
    | nil =>
      cases errors with
      | nil => simp [verdict] at h
      | cons e' rest =>
        obtain rfl := Except.error.inj h
        exact namesFirst_own e' _
  | error e' =>
    obtain rfl := Except.error.inj h
    cases hout with
    | refused hreports =>
      left
      rcases hreports with rfl | rfl
      · exact namesFirst_own _ _
      · exact ⟨_, _, rfl, .replay _⟩
    | finished hkind =>
      by_cases hreports : reports = []
      · left
        rw [hreports]
        exact namesFirst_own e' _
      · right
        exact .results hmode hreports (hkind e' rfl)

/-- The error of a recording names the first failure, unless only closing has failed before the file
cannot be completed. -/
theorem recording_namesFirst {path : String} {size : Nat}
    (hmode : s.mode = .createValidationParams path size) {v : ClientOutcome}
    {recording : Except ClientError Unit} {shutdown : Except DatabaseError Unit}
    {cleanup : Except WorkloadError Unit} {completion : Except String Unit} {e : ClientError}
    (h : ((recording.bind fun _ => completion.mapError .file).map fun _ => v) = .error e) :
    NamesFirst e (failure recording ++ (failure (shutdown.mapError .database) ++
        (failure (cleanup.mapError .workload) ++
          failureAfter recording (completion.mapError .file)))) ∨
      Replaced s e (failure recording ++ (failure (shutdown.mapError .database) ++
        (failure (cleanup.mapError .workload) ++
          failureAfter recording (completion.mapError .file)))) := by
  have herror := eq_error_of_map h
  cases recording with
  | error e' =>
    obtain rfl := Except.error.inj herror
    exact .inl (namesFirst_own e' _)
  | ok u =>
    obtain ⟨text, rfl, rfl⟩ := eq_error_of_mapError herror
    by_cases hclosing : shutdown = .ok () ∧ cleanup = .ok ()
    · obtain ⟨rfl, rfl⟩ := hclosing
      exact .inl (namesFirst_own _ [])
    · exact .inr (.recording hmode (not_and_or.mp hclosing))

/-- The error of a course names its first failure, unless that has been replaced. -/
theorem Course.namesFirst {trace : List ClientEvent} {e : ClientError}
    (h : Course s r st trace (.error e)) :
    NamesFirst e (failures trace) ∨ Replaced s e (failures trace) := by
  generalize hanswer : (.error e : Except ClientError ClientOutcome) = answer at h
  cases h with
  | stopped =>
    obtain rfl := Except.error.inj hanswer
    exact .inl (namesFirst_own e [])
  | workloadChecked =>
    obtain rfl := eq_error_of_map hanswer.symm
    exact .inl (namesFirst_own e [])
  | databaseChecked =>
    obtain rfl := eq_error_of_map hanswer.symm
    exact .inl (namesFirst_own e [])
  | unrecorded =>
    obtain rfl := Except.error.inj hanswer
    exact .inl (namesFirst_own e [])
  | @recorded w db path size v recording shutdown cleanup completion hmode =>
    simp only [failures_workloadOpened, failures_databaseOpened, failures_databaseClosed,
      failures_workloadClosed, failures_append, failures_failure, failures_failureAfter]
    exact recording_namesFirst hmode hanswer.symm
  | unbuilt =>
    obtain rfl := Except.error.inj hanswer
    exact .inl (namesFirst_own _ [])
  | @counted w streams statistics cleanup hmode =>
    -- The error of the cleanup is rethrown first, although it comes second.
    cases cleanup with
    | ok u =>
      cases statistics with
      | ok counted =>
        have hok : (.error e : Except ClientError ClientOutcome) =
          .ok (.statisticsCalculated counted) := hanswer
        simp at hok
      | error e' =>
        obtain rfl := Except.error.inj hanswer
        exact .inl (namesFirst_own _ [])
    | error e' =>
      obtain rfl := Except.error.inj hanswer
      cases statistics with
      | ok counted => exact .inl (namesFirst_own _ [])
      | error e₁ => exact .inr (.count hmode)
  | unprepared =>
    obtain rfl := Except.error.inj hanswer
    left
    rw [failures_append, failures_append, failures_opening _ rfl, failures_opening _ rfl]
    exact namesFirst_own e _
  | executed hmode hdb hw hout hclosed =>
    rw [failures_append, failures_append, failures_opening _ rfl, failures_opening _ rfl]
    simpa [hclosed.failures_eq] using verdict_namesFirst hmode hout hanswer.symm

/-- The error with which a new session stops names the failure that came first in it, whatever else
has failed, unless a later error has replaced that: the error of a cleanup that of a count, the
error of completing a recording's file those of closing, or an error about the results of an
execution those reported in its run. -/
theorem error_names_first (s : Settings) (r : Registry δ ω P) (codec : PayloadCodec P)
    (clock : Clock) (state : ClientState δ ω P) (hnew : IsNew state) :
    Ends s r codec clock state (run s r codec clock state).1 (run s r codec clock state).2 ∧
      ∀ answer st e, Ends s r codec clock state answer st → error? answer = some e →
        NamesFirst e (failures st.trace) ∨ Replaced s e (failures st.trace) := by
  refine ⟨ends_run s r codec clock state, fun answer st e hends herror => ?_⟩
  have hcourse := course_of_ends hnew hends
  rcases answer with (e' | b) | outcome
  · obtain rfl := Option.some.inj herror
    exact hcourse.namesFirst
  · simp [error?] at herror
  · simp [error?] at herror

/-- A workload with an operation and then an error in its stream, which cannot be cleaned up, and a
database that cannot be shut down. -/
def faultyPlugins : Registry Unit Unit Unit where
  databases := ⟨[("busy", {
    fresh := ()
    init := fun _ _ => (.ok (), ())
    execute := fun _ _ => (.returned (.ok .null), ())
    pause := fun _ => Duration.zero
    shutdown := fun _ => (.error (.shutdown "still busy"), ()) })]⟩
  workloads := ⟨[("locked", {
    fresh := ()
    init := fun _ _ => (.ok (), ())
    streams := fun _ _ => (.ok [⟨"put", .nil,
      .ofList [.ok (.independent "put" .epoch ()), .error (.stream "gone")]⟩], ())
    maxInterleave := fun _ => Duration.zero
    keepsForValidation := fun _ _ => true
    cleanup := fun _ => (.error (.cleanup "locked"), ()) })]⟩

/-- Settings that execute the operations of this workload at once. -/
def faultyExecution : Settings :=
  { database := some "busy", workload := some "locked", ignoreScheduledStarts := true }

/-- Settings that count them. -/
def faultyCount : Settings := { mode := .calculateStatistics, workload := some "locked" }

/-- Three failures, of which the error in the stream is the first: it is reported in the run, and
the execution ends with the error that names it. -/
theorem error_names_first_execution : ∃ e,
    error? (run faultyExecution faultyPlugins unitCodec (.fixed ⟨0, by decide⟩)
      (freshState Files.empty () ())).1 = some e ∧
    NamesFirst e (failures (run faultyExecution faultyPlugins unitCodec (.fixed ⟨0, by decide⟩)
      (freshState Files.empty () ())).2.trace) ∧
    (failures (run faultyExecution faultyPlugins unitCodec (.fixed ⟨0, by decide⟩)
      (freshState Files.empty () ())).2.trace).map ClientEvent.failureText =
        ["stream merger: stream construction failed: put operations: " ++
            "Stream generation failed: gone",
          "database: Shutdown failed: still busy", "workload: Cleanup failed: locked"] := by
  obtain ⟨hends, hall⟩ := error_names_first faultyExecution faultyPlugins unitCodec
    (.fixed ⟨0, by decide⟩) (freshState Files.empty () ()) ⟨rfl, rfl, rfl, rfl⟩
  have hreport : ((error? (run faultyExecution faultyPlugins unitCodec (.fixed ⟨0, by decide⟩)
      (freshState Files.empty () ())).1).bind ClientError.partialReport?).isSome = true := by
    decide +kernel
  have htexts : (failures (run faultyExecution faultyPlugins unitCodec (.fixed ⟨0, by decide⟩)
      (freshState Files.empty () ())).2.trace).map ClientEvent.failureText =
        ["stream merger: stream construction failed: put operations: " ++
            "Stream generation failed: gone",
          "database: Shutdown failed: still busy", "workload: Cleanup failed: locked"] := by
    decide +kernel
  cases herror : error? (run faultyExecution faultyPlugins unitCodec (.fixed ⟨0, by decide⟩)
      (freshState Files.empty () ())).1 with
  | none => simp [herror] at hreport
  | some e =>
    refine ⟨e, rfl, (hall _ _ e hends herror).resolve_right fun hreplaced => ?_, htexts⟩
    rw [herror, Option.bind_some, hreplaced.partialReport?] at hreport
    simp at hreport

/-- The count fails at the error in the stream, and the session ends with the error of the cleanup
after it, which does not name the first failure. -/
theorem first_failure_replaced :
    (error? (run faultyCount faultyPlugins unitCodec (.fixed ⟨0, by decide⟩)
      (freshState Files.empty () ())).1).map ClientError.message =
        some "workload: Cleanup failed: locked" ∧
    (failures (run faultyCount faultyPlugins unitCodec (.fixed ⟨0, by decide⟩)
      (freshState Files.empty () ())).2.trace).map ClientEvent.failureText =
        ["stream merger: stream construction failed: put operations: " ++
            "Stream generation failed: gone",
          "workload: Cleanup failed: locked"] ∧
    ∀ e, error? (run faultyCount faultyPlugins unitCodec (.fixed ⟨0, by decide⟩)
        (freshState Files.empty () ())).1 = some e →
      ¬ NamesFirst e (failures (run faultyCount faultyPlugins unitCodec (.fixed ⟨0, by decide⟩)
        (freshState Files.empty () ())).2.trace) := by
  have hmessage : (error? (run faultyCount faultyPlugins unitCodec (.fixed ⟨0, by decide⟩)
      (freshState Files.empty () ())).1).map ClientError.message =
        some "workload: Cleanup failed: locked" := by
    decide +kernel
  have htexts : (failures (run faultyCount faultyPlugins unitCodec (.fixed ⟨0, by decide⟩)
      (freshState Files.empty () ())).2.trace).map ClientEvent.failureText =
        ["stream merger: stream construction failed: put operations: " ++
            "Stream generation failed: gone",
          "workload: Cleanup failed: locked"] := by
    decide +kernel
  refine ⟨hmessage, htexts, fun e he hnames => ?_⟩
  obtain ⟨first, rest, hfailures, hname⟩ := hnames
  rw [he] at hmessage
  rw [hfailures] at htexts
  have hfirst := (List.cons.inj htexts).1
  rw [← message_of_names hname, Option.some.inj hmessage] at hfirst
  revert hfirst
  decide +kernel

end Client

end WorkloadReplay
