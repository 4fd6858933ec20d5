import WorkloadReplay.Proofs.Client.Courses

/-!
# What sessions leave open

Whatever fails, a session shuts down every database that it has initialized, once, and nothing calls
the database after that. It cleans up the workload that it has initialized, once and as the last
call, unless it stops between the initialization of the workload and the teardown of its mode. There
are two such stops (`LeavesWorkload`): where operations are counted and the workload cannot build
its streams, and where results are recorded and the database cannot be initialized. `closes_opened`
says so for all modes, from the courses of sessions; `workload_left_open` is a session with such a
stop.
-/

namespace WorkloadReplay

/-- What a session opens and closes. -/
inductive ClientComponent where
  | database
  | workload

/-- A call that opens a component or closes it. -/
inductive ComponentCall where
  | opened
  | closed
  deriving DecidableEq, Repr

/-- The call of a component that an event is, if it is one. -/
def ClientEvent.call? : ClientComponent → ClientEvent → Option ComponentCall
  | .database, databaseOpened => some .opened
  | .database, databaseClosed => some .closed
  | .workload, workloadOpened => some .opened
  | .workload, workloadClosed => some .closed
  | _, _ => none

namespace Client

variable {δ ω P α : Type} {s : Settings} {r : Registry δ ω P} {codec : PayloadCodec P}
  {clock : Clock} {state st : ClientState δ ω P}

/-- The initializations of a component in a trace, and its shutdowns or cleanups, in order. -/
def calls (c : ClientComponent) (trace : List ClientEvent) : List ComponentCall :=
  trace.filterMap (·.call? c)

/-! ## Calls in parts of a trace -/

@[simp] theorem calls_nil (c : ClientComponent) : calls c [] = [] := rfl

@[simp] theorem calls_cons (c : ClientComponent) (e : ClientEvent) (trace : List ClientEvent) :
    calls c (e :: trace) = (e.call? c).toList ++ calls c trace := by
  unfold calls
  rw [List.filterMap_cons]
  cases e.call? c <;> rfl

@[simp] theorem calls_append (c : ClientComponent) (trace more : List ClientEvent) :
    calls c (trace ++ more) = calls c trace ++ calls c more :=
  List.filterMap_append

/-- A failure is no call of a component. -/
@[simp] theorem calls_failure (c : ClientComponent) (answer : Except ClientError α) :
    calls c (failure answer) = [] := by
  cases answer <;> cases c <;> rfl

/-- Nor is that of a step which may not be taken. -/
@[simp] theorem calls_failureAfter (c : ClientComponent) (first answer : Except ClientError Unit) :
    calls c (failureAfter first answer) = [] := by
  cases first with
  | ok u => exact calls_failure c answer
  | error e => rfl

/-- Nor are reports. -/
@[simp] theorem calls_reported (c : ClientComponent) (reports : List ReportedError) :
    calls c (reports.map .reported) = [] := by
  induction reports with
  | nil => rfl
  | cons e rest ih => cases c <;> simpa [ClientEvent.call?] using ih

/-- The calls of a component that is opened and closed, or is not opened at all. -/
def roundTrip {γ : Type} (thing : Option γ) : List ComponentCall :=
  thing.elim [] fun _ => [.opened, .closed]

/-- What is open after an execution is closed, and nothing else. -/
theorem ClosesAll.calls_eq {db : Option (Database δ P)} {w : Option (Workload ω P)}
    {events more : List ClientEvent} {reports : List ReportedError} {errors : List ClientError}
    (h : ClosesAll db w events reports errors st) (hmore : ∀ c, calls c more = []) :
    calls .database (opening db .databaseOpened ++ opening w .workloadOpened ++ (more ++ events)) =
        roundTrip db ∧
      calls .workload (opening db .databaseOpened ++ opening w .workloadOpened ++
        (more ++ events)) = roundTrip w := by
  obtain ⟨metrics, database, workload, rfl, -⟩ := h.answers
  constructor
  · cases db <;> cases w <;>
      simp [opening, closing, roundTrip, hmore, ClientEvent.call?]
  · cases db <;> cases w <;>
      simp [opening, closing, roundTrip, hmore, ClientEvent.call?]

/-! ## All modes -/

/-- The settings choose a mode in which a workload is left without its cleanup. -/
def LeavesWorkload (s : Settings) (r : Registry δ ω P) : Prop :=
  match s.mode with
  | .createValidationParams .. => ∀ db, ¬ OpensDatabase s r db
  | .calculateStatistics => ∃ w e, OpensWorkload s r w ∧
      (w.streams s.seed (initialWorkload s w)).1 = .error e
  | _ => False

/-- A database is not initialized, or it is initialized once and then shut down once, as the last
call. -/
def DatabaseClosed (s : Settings) (r : Registry δ ω P) (st : ClientState δ ω P) : Prop :=
  calls .database st.trace = [] ∨ calls .database st.trace = [.opened, .closed] ∧
    ∃ db, OpensDatabase s r db ∧ IsShutDown db st

/-- A workload is not initialized, or it is initialized once and then cleaned up once, as the last
call. -/
def WorkloadClosed (s : Settings) (r : Registry δ ω P) (st : ClientState δ ω P) : Prop :=
  calls .workload st.trace = [] ∨ calls .workload st.trace = [.opened, .closed] ∧
    ∃ w, OpensWorkload s r w ∧ IsCleanedUp w st

/-- The end of a session, as to what it has opened. -/
structure Leaves (s : Settings) (r : Registry δ ω P) (st : ClientState δ ω P) : Prop where
  database : DatabaseClosed s r st
  workload : ¬ LeavesWorkload s r → WorkloadClosed s r st
  /-- Where the workload is left, it is never cleaned up. -/
  leak : LeavesWorkload s r →
    calls .workload st.trace = [] ∨ calls .workload st.trace = [.opened]

/-- What is closed whenever it is opened is left in no mode. -/
theorem leaves_of_closed (hnot : ¬ LeavesWorkload s r) (hdatabase : DatabaseClosed s r st)
    (hworkload : WorkloadClosed s r st) : Leaves s r st :=
  ⟨hdatabase, fun _ => hworkload, fun h => absurd h hnot⟩

/-- An execution leaves nothing: all that it has opened is closed at its end. -/
theorem leaves_of_closesAll {db : Option (Database δ P)} {w : Option (Workload ω P)}
    {events more : List ClientEvent} {reports : List ReportedError} {errors : List ClientError}
    (hmode : s.mode = .execute) (hdb : ∀ x, db = some x → OpensDatabase s r x)
    (hw : ∀ x, w = some x → OpensWorkload s r x)
    (hclosed : ClosesAll db w events reports errors st) (hmore : ∀ c, calls c more = [])
    (htrace : st.trace =
      opening db .databaseOpened ++ opening w .workloadOpened ++ (more ++ events)) :
    Leaves s r st := by
  obtain ⟨hdatabase, hworkload⟩ := hclosed.calls_eq hmore
  rw [← htrace] at hdatabase hworkload
  apply leaves_of_closed
  · simp [LeavesWorkload, hmode]
  · cases db with
    | none => exact .inl hdatabase
    | some x => exact .inr ⟨hdatabase, x, hdb x rfl, hclosed.database x rfl⟩
  · cases w with
    | none => exact .inl hworkload
    | some x => exact .inr ⟨hworkload, x, hw x rfl, hclosed.workload x rfl⟩

/-- What a course leaves. -/
theorem leaves_of_course {trace : List ClientEvent} {answer : Except ClientError ClientOutcome}
    (htrace : st.trace = trace) (h : Course s r st trace answer) : Leaves s r st := by
  cases h with
  | stopped =>
    have hnone : ∀ c, calls c st.trace = [] := fun c => by
      rw [htrace]
      cases c <;> rfl
    exact ⟨.inl (hnone _), fun _ => .inl (hnone _), fun _ => .inl (hnone _)⟩
  | workloadChecked hmode hw hclosed =>
    apply leaves_of_closed
    · simp [LeavesWorkload, hmode]
    · left
      simp [htrace, ClientEvent.call?]
    · right
      exact ⟨by simp [htrace, ClientEvent.call?], _, hw, hclosed⟩
  | databaseChecked hmode hdb hclosed =>
    apply leaves_of_closed
    · simp [LeavesWorkload, hmode]
    · right
      exact ⟨by simp [htrace, ClientEvent.call?], _, hdb, hclosed⟩
    · left
      simp [htrace, ClientEvent.call?]
  | unrecorded hmode hw hdb =>
    have hleft : LeavesWorkload s r := by simpa [LeavesWorkload, hmode] using hdb
    refine ⟨.inl ?_, fun hnot => absurd hleft hnot, fun _ => .inr ?_⟩
    · simp [htrace, ClientEvent.call?]
    · simp [htrace, ClientEvent.call?]
  | recorded hmode hw hdb hcleaned hshut =>
    apply leaves_of_closed
    · simp only [LeavesWorkload, hmode]
      exact fun hnone => hnone _ hdb
    · right
      exact ⟨by simp [htrace, ClientEvent.call?], _, hdb, hshut⟩
    · right
      exact ⟨by simp [htrace, ClientEvent.call?], _, hw, hcleaned⟩
  | unbuilt hmode hw hstreams =>
    have hleft : LeavesWorkload s r := by
      simp only [LeavesWorkload, hmode]
      exact ⟨_, _, hw, hstreams⟩
    refine ⟨.inl ?_, fun hnot => absurd hleft hnot, fun _ => .inr ?_⟩
    · simp [htrace, ClientEvent.call?]
    · simp [htrace, ClientEvent.call?]
  | counted hmode hw hstreams hclosed =>
    apply leaves_of_closed
    · simp only [LeavesWorkload, hmode]
      rintro ⟨w', e, hw', hfails⟩
      -- The settings name one workload, and its streams cannot be both built and not built.
      obtain rfl := Except.ok.inj (hw.1.symm.trans hw'.1)
      simp [hstreams] at hfails
    · left
      simp [htrace, ClientEvent.call?]
    · right
      exact ⟨by simp [htrace, ClientEvent.call?], _, hw, hclosed⟩
  | @unprepared db w e events reports errors hmode hdb hw hclosed =>
    have hmore : ∀ c, calls c [.failed e] = [] := fun c => by cases c <;> rfl
    exact leaves_of_closesAll hmode hdb hw hclosed hmore htrace
  | executed hmode hdb hw hout hclosed =>
    exact leaves_of_closesAll hmode hdb hw hclosed (by simp) htrace

/-- A new session that comes to its end closes what it has opened, whatever fails, except for the
workload in the modes that leave it: the database is shut down and the workload cleaned up once, and
not called any more. In those modes a workload that has been initialized is never cleaned up. -/
theorem closes_opened (s : Settings) (r : Registry δ ω P) (codec : PayloadCodec P) (clock : Clock)
    (state : ClientState δ ω P) (hnew : IsNew state) :
    Ends s r codec clock state (run s r codec clock state).1 (run s r codec clock state).2 ∧
      ∀ answer st, Ends s r codec clock state answer st →
        (∀ b, answer ≠ .error (.broken b)) → Leaves s r st := by
  refine ⟨ends_run s r codec clock state, fun answer st hends hanswer => ?_⟩
  have hcourse := course_of_ends hnew hends
  rcases answer with (e | b) | outcome
  · exact leaves_of_course rfl hcourse
  · exact absurd rfl (hanswer b)
  · exact leaves_of_course rfl hcourse

/-- The execution of `pairSettings` opens its database and its workload once and closes both once,
although the database refuses an operation. -/
theorem closes_opened_pair :
    calls .database (run pairSettings pairPlugins unitCodec (.fixed ⟨0, by decide⟩)
      (freshState Files.empty () ())).2.trace = [.opened, .closed] ∧
    calls .workload (run pairSettings pairPlugins unitCodec (.fixed ⟨0, by decide⟩)
      (freshState Files.empty () ())).2.trace = [.opened, .closed] := by
  obtain ⟨hends, hall⟩ := closes_opened pairSettings pairPlugins unitCodec (.fixed ⟨0, by decide⟩)
    (freshState Files.empty () ()) ⟨rfl, rfl, rfl, rfl⟩
  have hok : (run pairSettings pairPlugins unitCodec (.fixed ⟨0, by decide⟩)
      (freshState Files.empty () ())).1.isOk = true := by
    decide +kernel
  have hopened : calls .database (run pairSettings pairPlugins unitCodec (.fixed ⟨0, by decide⟩)
        (freshState Files.empty () ())).2.trace ≠ [] ∧
      calls .workload (run pairSettings pairPlugins unitCodec (.fixed ⟨0, by decide⟩)
        (freshState Files.empty () ())).2.trace ≠ [] := by
    decide +kernel
  have hleaves := hall _ _ hends fun b hb => by simp [hb, Except.isOk, Except.toBool] at hok
  constructor
  · exact (hleaves.database.resolve_left hopened.1).1
  · exact ((hleaves.workload (by simp [LeavesWorkload, pairSettings])).resolve_left hopened.2).1

/-- A workload that can be initialized and has no streams. -/
def dryPlugins : Registry Unit Unit Unit where
  databases := .empty
  workloads := ⟨[("dry", {
    fresh := ()
    init := fun _ _ => (.ok (), ())
    streams := fun _ _ => (.error (.stream "no data"), ())
    maxInterleave := fun _ => Duration.zero
    keepsForValidation := fun _ _ => true
    cleanup := fun _ => (.ok (), ()) })]⟩

/-- Settings that count its operations. -/
def drySettings : Settings := { mode := .calculateStatistics, workload := some "dry" }

/-- The session ends with the error of the streams, and the workload that it has initialized is
never cleaned up. -/
theorem workload_left_open :
    (error? (run drySettings dryPlugins unitCodec (.fixed ⟨0, by decide⟩)
      (freshState Files.empty () ())).1).map ClientError.message =
        some "workload: Stream generation failed: no data" ∧
    calls .workload (run drySettings dryPlugins unitCodec (.fixed ⟨0, by decide⟩)
      (freshState Files.empty () ())).2.trace = [.opened] := by
  decide +kernel

end Client

end WorkloadReplay
