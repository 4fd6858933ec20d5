import WorkloadReplay.Proofs.Client.Reports
import WorkloadReplay.Proofs.Client.Traces
import WorkloadReplay.Proofs.Run.Breakdowns

/-!
# When an execution breaks down

The steps of a session may fail, but in nearly all of them nothing breaks down (`Sturdy`). In an
execution of a workload that does not break down itself there are three others: the opening of the
metrics pipeline, whose queue may be asked to hold more than it can (`QueueBreaks`), the beginning
of the run proper, for which the same is true of its pools, and the sleep of the scheduler before a
batch, which computes how long it still has to sleep. Settings are checked for numbers that are too
small only, so settings without a problem may ask for too much.

`execution_breaks_down` says exactly when an execution breaks down; if all counts are within their
bounds and the clock does not go back, it never does.
-/

namespace WorkloadReplay

/-- A workload that does not break down, neither when its streams are built nor later. -/
structure Workload.NeverBreaks {ω P : Type} (w : Workload ω P) : Prop where
  streams : ∀ seed state text, (w.streams seed state).1 ≠ .error (.panicked text)
  items : ∀ seed state streams, (w.streams seed state).1 = .ok streams → NeverBreak streams

namespace Client

variable {δ ω P α β : Type} {s : Settings} {r : Registry δ ω P} {clock : Clock}
  {st t : ClientState δ ω P}

/-! ## Sturdy steps -/

/-- What has broken down in a step, if something has. -/
def breakdown? : Except ClientStop α → Option Breakdown
  | .error (.broken b) => some b
  | _ => none

/-- A step in which nothing breaks down but what is named. -/
def BreaksOnly (named : Breakdown → Prop) (x : ClientM δ ω P α) : Prop :=
  ∀ st b, breakdown? (x st).1 = some b → named b

/-- A step in which nothing breaks down. -/
def Sturdy (x : ClientM δ ω P α) : Prop := BreaksOnly (fun _ => False) x

/-- Steps in a row, where the later ones may use that the first one has come to its end. -/
theorem BreaksOnly.bind {named : Breakdown → Prop} {x : ClientM δ ω P α}
    {f : α → ClientM δ ω P β} (hx : BreaksOnly named x)
    (hf : ∀ a, (∃ st t, x st = (.ok a, t)) → BreaksOnly named (f a)) :
    BreaksOnly named (x >>= f) := by
  intro st b hb
  obtain ⟨stop, t, hxt, heq⟩ | ⟨a, t, hxt, heq⟩ := bind_cases x f st
  · rw [heq] at hb
    refine hx st b ?_
    rw [hxt]
    cases stop <;> exact hb
  · rw [heq] at hb
    exact hf a ⟨st, t, hxt⟩ t b hb

/-- Sturdy steps in a row. -/
theorem Sturdy.bind {x : ClientM δ ω P α} {f : α → ClientM δ ω P β} (hx : Sturdy x)
    (hf : ∀ a, (∃ st t, x st = (.ok a, t)) → Sturdy (f a)) : Sturdy (x >>= f) :=
  BreaksOnly.bind hx hf

/-- In a sturdy step nothing breaks down but what is named, whatever that is. -/
theorem Sturdy.breaksOnly {x : ClientM δ ω P α} (h : Sturdy x) (named : Breakdown → Prop) :
    BreaksOnly named x := fun st b hb => (h st b hb).elim

/-- A step is sturdy if nothing breaks down in it, from any state. -/
theorem sturdy_of_forall {x : ClientM δ ω P α} (h : ∀ st, breakdown? (x st).1 = none) :
    Sturdy x := fun st b hb => by simp [h st] at hb

/-- Nothing breaks down in it. -/
theorem Sturdy.breakdown?_eq_none {x : ClientM δ ω P α} (h : Sturdy x) (st : ClientState δ ω P) :
    breakdown? (x st).1 = none := Option.eq_none_iff_forall_ne_some.mpr fun b hb => h st b hb

/-- A step that comes to its end is sturdy. -/
theorem sturdy_of_ok {x : ClientM δ ω P α} (h : ∀ st, ∃ a t, x st = (.ok a, t)) : Sturdy x :=
  sturdy_of_forall fun st => by
    obtain ⟨a, t, hx⟩ := h st
    rw [hx]
    rfl

/-- Nothing to do. -/
theorem sturdy_pure (a : α) : Sturdy (pure a : ClientM δ ω P α) := sturdy_of_forall fun _ => rfl

/-- The state is looked at. -/
theorem sturdy_get : Sturdy (get : ClientM δ ω P (ClientState δ ω P)) :=
  sturdy_of_forall fun _ => rfl

/-- The state changes. -/
theorem sturdy_modify (f : ClientState δ ω P → ClientState δ ω P) :
    Sturdy (modify f : ClientM δ ω P PUnit) := sturdy_of_forall fun _ => rfl

/-- The session stops with an error. -/
theorem sturdy_stopWith (e : ClientError) : Sturdy (stopWith e : ClientM δ ω P α) :=
  sturdy_of_forall fun _ => rfl

/-- The session stops if an answer is an error. -/
theorem sturdy_orStop (answer : Except ClientError α) :
    Sturdy (orStop answer : ClientM δ ω P α) := by
  cases answer with
  | ok a => exact sturdy_pure a
  | error e => exact sturdy_stopWith e

/-- So it does if an answer is an error that is in the trace already. -/
theorem sturdy_orRethrow (answer : Except ClientError α) :
    Sturdy (orRethrow answer : ClientM δ ω P α) := by
  cases answer with
  | ok a => exact sturdy_pure a
  | error e => exact sturdy_of_forall fun _ => rfl

/-- So it does if the answer of a replay is an error that does not stand for a breakdown. -/
theorem sturdy_orStopReplay {answer : Except ReplayError α}
    (h : ∀ text, answer ≠ .error (.panicked text)) :
    Sturdy (orStopReplay answer : ClientM δ ω P α) := by
  unfold orStopReplay
  split
  · exact sturdy_pure _
  · exact absurd rfl (h _)
  · exact sturdy_stopWith _

/-- A file is written. -/
theorem sturdy_writeFile (path text : String) (refusal : ClientError) :
    Sturdy (writeFile path text refusal : ClientM δ ω P Unit) := by
  refine sturdy_get.bind fun st _ => ?_
  split
  · exact sturdy_modify _
  · exact sturdy_stopWith _

/-- A file is saved. -/
theorem sturdy_saveFile (path text : String) (refusal : String → ClientError) :
    Sturdy (saveFile path text refusal : ClientM δ ω P Unit) := by
  refine sturdy_get.bind fun st _ => (sturdy_writeFile _ _ _).bind fun _ _ => ?_
  exact (sturdy_orStop _).bind fun _ _ => sturdy_get.bind fun _ _ => sturdy_orStop _

/-! ## Before the run -/

/-- The settings are checked. -/
theorem sturdy_checkSettings (s : Settings) :
    Sturdy (checkSettings s : ClientM δ ω P Unit) := by
  refine sturdy_get.bind fun st _ => ?_
  split
  · exact sturdy_pure _
  · exact sturdy_stopWith _

/-- The directory for results is made. -/
theorem sturdy_prepareArtifacts (s : Settings) :
    Sturdy (prepareArtifacts s : ClientM δ ω P (List String)) := by
  unfold prepareArtifacts
  split
  · exact sturdy_pure _
  · refine sturdy_get.bind fun st _ => (sturdy_orStop _).bind fun files _ => ?_
    refine (sturdy_modify _).bind fun _ _ => ?_
    exact (sturdy_saveFile _ _ _).bind fun _ _ => sturdy_pure _

/-- The database is opened. -/
theorem sturdy_openDatabase (s : Settings) (r : Registry δ ω P) :
    Sturdy (openDatabase s r : ClientM δ ω P (Database δ P)) := by
  refine (sturdy_orStop _).bind fun db _ => ?_
  split
  refine (sturdy_modify _).bind fun _ _ => ?_
  split
  · exact sturdy_stopWith _
  · exact (sturdy_modify _).bind fun _ _ => sturdy_pure _

/-- The workload is opened. -/
theorem sturdy_openWorkload (s : Settings) (r : Registry δ ω P) :
    Sturdy (openWorkload s r : ClientM δ ω P (Workload ω P)) := by
  refine (sturdy_orStop _).bind fun w _ => ?_
  split
  refine (sturdy_modify _).bind fun _ _ => ?_
  split
  · exact sturdy_stopWith _
  · exact (sturdy_modify _).bind fun _ _ => sturdy_pure _

/-- The results log is begun. -/
theorem sturdy_prepareLog (s : Settings) :
    Sturdy (prepareLog s : ClientM δ ω P (List String)) := by
  unfold prepareLog
  split
  · refine (sturdy_writeFile _ _ _).bind fun _ _ => ?_
    exact (sturdy_modify _).bind fun _ _ => sturdy_pure _
  · exact sturdy_pure _

/-- There is no metrics pipeline exactly if its queue is asked to hold more than it can. -/
theorem fresh_eq_error {config : MetricsConfig} {log text : String} {active : Bool} :
    MetricsPipeline.fresh config log active = .error text ↔
      MetricsPipeline.maxCapacity < config.queueCapacity ∧
        text = MetricsPipeline.capacityText := by
  have hmax : MetricsPipeline.maxCapacity < max config.queueCapacity 1 ↔
      MetricsPipeline.maxCapacity < config.queueCapacity := by
    unfold MetricsPipeline.maxCapacity
    omega
  unfold MetricsPipeline.fresh
  dsimp only
  rw [← hmax]
  split_ifs with hover <;> simp [hover, eq_comm]

/-- The metrics queue is asked to hold more than it can, and breaks down for that reason. -/
def QueueBreaks (s : Settings) (b : Breakdown) : Prop :=
  MetricsPipeline.maxCapacity < s.queueCapacity ∧ b = .panicked MetricsPipeline.capacityText

/-- The metrics pipeline is opened. -/
theorem breaksOnly_openMetrics (s : Settings) :
    BreaksOnly (QueueBreaks s) (openMetrics s : ClientM δ ω P (MetricsPipeline String)) := by
  refine (sturdy_get.breaksOnly _).bind fun st _ => ?_
  split
  · rename_i text htext
    obtain ⟨hover, rfl⟩ := fresh_eq_error.mp htext
    intro st b hb
    exact ⟨hover, (Option.some.inj hb).symm⟩
  · exact ((sturdy_modify _).bind fun _ _ => sturdy_pure _).breaksOnly _

/-- The streams are built, if the workload does not break down. -/
theorem sturdy_buildStreams {w : Workload ω P} (hw : w.NeverBreaks) (seed : Nat) :
    Sturdy (buildStreams w seed : ClientM δ ω P (List (OperationStream P))) := by
  refine sturdy_get.bind fun st _ => ?_
  have hstreams := hw.streams seed st.workload
  revert hstreams
  rcases w.streams seed st.workload with ⟨answer, workload⟩
  intro hstreams
  refine (sturdy_modify _).bind fun _ _ => ?_
  split
  · exact sturdy_pure _
  · exact absurd rfl (hstreams _)
  · exact sturdy_stopWith _

/-- An execution of a workload that does not break down is prepared. -/
theorem breaksOnly_prepare (hw : ∀ w, chosenWorkload s r = .ok w → w.NeverBreaks) (clock : Clock) :
    BreaksOnly (QueueBreaks s) (prepare s r clock : ClientM δ ω P (Execution δ P)) := by
  refine ((sturdy_prepareArtifacts s).breaksOnly _).bind fun settingsPath _ => ?_
  refine ((sturdy_openDatabase s r).breaksOnly _).bind fun db _ => ?_
  refine ((sturdy_modify _).breaksOnly _).bind fun _ _ => ?_
  refine ((sturdy_orStopReplay fun text => by simp).breaksOnly _).bind fun completion _ => ?_
  refine ((sturdy_prepareLog s).breaksOnly _).bind fun logPath _ => ?_
  refine (breaksOnly_openMetrics s).bind fun metrics _ => Sturdy.breaksOnly ?_ _
  refine (sturdy_openWorkload s r).bind fun w ⟨st, t, hopened⟩ => ?_
  refine (sturdy_modify _).bind fun _ _ => ?_
  refine (sturdy_buildStreams (hw w (openWorkload_eq_ok hopened).1) s.seed).bind fun streams _ => ?_
  refine (sturdy_orStop _).bind fun start _ => ?_
  refine (sturdy_orStopReplay fun text htext => ?_).bind fun mapped _ => ?_
  · obtain ⟨text', h⟩ := Stream.timeMap_eq_error htext
    simp at h
  · refine (sturdy_orStop _).bind fun duration _ => ?_
    exact sturdy_get.bind fun _ _ => sturdy_get.bind fun _ _ => sturdy_pure _

/-! ## After the run -/

/-- The closing of something is sturdy. -/
theorem Closes.sturdy {x : ClientM δ ω P (Except ClientError Unit)} (h : Closes x) : Sturdy x :=
  sturdy_of_ok fun st =>
    have ⟨answer, t, hx, _⟩ := h st
    ⟨answer, t, hx⟩

/-- The results of a pipeline may be missing; nothing breaks down. -/
theorem results_ne_panicked (p : MetricsPipeline String) (text : String) :
    p.results ≠ .error (.panicked text) := by
  unfold MetricsPipeline.results
  split <;> simp

/-- A report is written. -/
theorem sturdy_writeReport (s : Settings) (x : Execution δ P) (summary : RunSummary)
    (results : ResultsSnapshot) :
    Sturdy (writeReport s x summary results : ClientM δ ω P ExecutionReport) := by
  unfold writeReport
  split
  · exact sturdy_pure _
  · exact (sturdy_saveFile _ _ _).bind fun _ _ => sturdy_pure _

/-- How a run that is played breaks down a session, if it does. -/
def runBreakdown? (x : Execution δ P) (run : Run P String) : Option Breakdown :=
  match run.end? x.scene.setup with
  | none => some .stuck
  | some (.panicked text) => some (.panicked text)
  | _ => none

/-- It breaks down with a text exactly if the run has. -/
theorem runBreakdown?_eq_panicked {x : Execution δ P} {run : Run P String} {text : String} :
    runBreakdown? x run = some (.panicked text) ↔ run.phase = .broken text := by
  unfold runBreakdown? Run.end?
  cases run.phase <;> simp

/-- It is stuck exactly if the run has not come to its end. -/
theorem runBreakdown?_eq_stuck {x : Execution δ P} {run : Run P String} :
    runBreakdown? x run = some .stuck ↔ run.end? x.scene.setup = none := by
  unfold runBreakdown?
  rcases run.end? x.scene.setup with _ | (summary | e | text) <;> simp

/-- A report breaks down with its run. -/
theorem breakdown?_report (s : Settings) (x : Execution δ P) (run : Run P String)
    (st : ClientState δ ω P) :
    breakdown? (report s x run st).1 = runBreakdown? x run := by
  unfold runBreakdown?
  rcases hend : run.end? x.scene.setup with _ | (summary | e | text)
  · simp only [report, hend]
    rfl
  · simp only [report, hend]
    refine (Sturdy.bind closes_metrics.sturdy fun closed _ => ?_).breakdown?_eq_none st
    refine (sturdy_orRethrow _).bind fun _ _ => sturdy_get.bind fun st _ => ?_
    split
    · exact (sturdy_orStopReplay (results_ne_panicked _)).bind fun results _ =>
        sturdy_writeReport s x summary results
    · exact (sturdy_stopWith _).bind fun results _ => sturdy_writeReport s x summary results
  · simp only [report, hend]
    rfl
  · simp only [report, hend]
    rfl

/-- The end of an execution is sturdy. -/
theorem sturdy_finish (answer : Except ClientError ExecutionReport) :
    Sturdy (finish answer : ClientM δ ω P ClientOutcome) := by
  refine sturdy_of_forall fun st => ?_
  have hfinishes := finishes answer st
  generalize (finish answer st).1 = ending at hfinishes
  cases hfinishes <;> rfl

/-- So a session breaks down after its run exactly if the run has broken down, or never ends. -/
theorem breakdown?_conclude (s : Settings) (x : Execution δ P) (run : Run P String) (database : δ)
    (st : ClientState δ ω P) :
    breakdown? (conclude s x run database st).1 = runBreakdown? x run := by
  unfold conclude
  rw [bind_run, takeOver_run]
  dsimp only
  rw [bind_run]
  generalize ({ st with
    database := database, metrics := some run.metrics, log := run.log
    trace := st.trace ++ run.log.entries.map .reported } : ClientState δ ω P) = taken
  rw [← breakdown?_report s x run taken]
  unfold attempt
  rcases report s x run taken with ⟨(e | b) | rep, t⟩
  · exact (sturdy_finish _).breakdown?_eq_none t
  · rfl
  · exact (sturdy_finish _).breakdown?_eq_none t

/-! ## Executions -/

section Executions

variable {codec : PayloadCodec P} {state : ClientState δ ω P} {x : Execution δ P}

/-- An execution whose run is to be played has been prepared. -/
theorem begin_eq_ready (hmode : s.mode = .execute)
    (h : begin s r codec clock state = .ready x st) :
    ∃ st₀, prepare s r clock st₀ = (.ok x, st) := by
  obtain ⟨answer, t, hended, -⟩ | ⟨x', t, st₀, hready, hprepare⟩ :=
    begin_cases r codec clock state hmode
  · rw [hended] at h
    simp at h
  · obtain ⟨rfl, rfl⟩ := Stage.ready.inj (hready.symm.trans h)
    exact ⟨st₀, hprepare⟩

/-- An execution that is over with its beginning has no outcome, and nothing has broken down in it
but its metrics queue. -/
theorem begin_eq_ended (hmode : s.mode = .execute)
    (hw : ∀ w, chosenWorkload s r = .ok w → w.NeverBreaks)
    {answer : Except ClientStop ClientOutcome}
    (h : begin s r codec clock state = .ended answer st) :
    ∃ stop, answer = .error stop ∧ ∀ b, breakdown? answer = some b → QueueBreaks s b := by
  have hcheck := sturdy_checkSettings s state
  unfold begin at h
  revert h hcheck
  rcases checkSettings s state with ⟨stop | u, st₀⟩ <;> intro h hcheck
  · obtain ⟨rfl, -⟩ := Stage.ended.inj h
    exact ⟨stop, rfl, fun b hb => (hcheck b (by cases stop <;> exact hb)).elim⟩
  · dsimp only at h
    rw [hmode] at h
    have hprepare := breaksOnly_prepare hw clock st₀
    unfold beginExecution attempt at h
    revert h hprepare
    rcases prepare s r clock st₀ with ⟨(e | b) | x, st₁⟩ <;> intro h hprepare
    · have hanswer : (finish (.error e) st₁).1 = answer := (Stage.ended.inj h).1
      have hfinishes := finishes (.error e) st₁
      rw [hanswer] at hfinishes
      cases hfinishes with
      | failed => exact ⟨_, rfl, fun b hb => nomatch hb⟩
      | _ => contradiction
    · obtain ⟨rfl, -⟩ := Stage.ended.inj h
      exact ⟨_, rfl, hprepare⟩
    · cases h

/-- The start of an execution is a duration after its beginning. -/
theorem nanos_of_startInstant {now start : Instant} {delay : Duration}
    (h : startInstant now delay = .ok start) : start.nanos = now.nanos + delay.nanos := by
  unfold startInstant at h
  split at h
  · rename_i start' hstart
    rw [← Except.ok.inj h]
    exact Instant.nanos_of_add? hstart
  · simp at h

end Executions

section Plans

variable {log : ErrorLog} {x : Execution δ P} {w : Workload ω P}
  {streams mapped : List (OperationStream P)} {start : Instant} {duration : Option Duration}
  {events : List RunEvent} {played : Run P String}

/-- The run of an execution is configured by the settings. -/
theorem IsPrepared.config (h : IsPrepared s r clock log x w streams mapped start duration) :
    x.scene.setup.config = s.runnerConfig := by
  obtain ⟨sink, hsetup⟩ := h.setup
  rw [hsetup]

/-- Its metrics queue is not asked to hold more than it can. -/
theorem IsPrepared.queue_le (h : IsPrepared s r clock log x w streams mapped start duration) :
    s.queueCapacity ≤ MetricsPipeline.maxCapacity := by
  obtain ⟨metrics, active, hmetrics, -⟩ := h.run
  refine not_lt.mp fun hover => ?_
  have hover : MetricsPipeline.maxCapacity < s.metricsConfig.queueCapacity := hover
  rw [fresh_eq_error.mpr ⟨hover, rfl⟩] at hmetrics
  simp at hmetrics

/-- It breaks down only with its scheduler. -/
theorem IsPrepared.phase_eq_broken_iff
    (h : IsPrepared s r clock log x w streams mapped start duration) (hw : w.NeverBreaks)
    (hs : x.run.steps x.scene.setup events = some played) {text : String} :
    played.phase = .broken text ↔ x.run.BreaksDownAmong x.scene.setup events text := by
  obtain ⟨metrics, active, -, hrun⟩ := h.run
  have hbuilt : NeverBreak streams := hw.items _ _ _ h.built
  have hmerged := neverBreaks_merge (Stream.neverBreak_timeMap hbuilt h.moved)
  rw [hrun] at hs ⊢
  exact Run.fresh_phase_eq_broken_iff (hmerged.limit _) hs

/-- Its scheduler does not break down with a clock that does not go back, if the pools are not asked
for too much. -/
theorem IsPrepared.not_breaksDownAmong
    (h : IsPrepared s r clock log x w streams mapped start duration)
    (hpools : ¬ s.runnerConfig.Overasks)
    (hordered : (clock.read 0 :: Run.readings events).Pairwise (· ≤ ·)) (text : String) :
    ¬ x.run.BreaksDownAmong x.scene.setup events text := by
  obtain ⟨metrics, active, -, hrun⟩ := h.run
  obtain ⟨sink, hsetup⟩ := h.setup
  rintro ⟨before, now, expired, after, r₁, rfl, hs, hbreaks⟩
  cases hbreaks with
  | pools hlaunched hover => exact hpools (h.config ▸ hover)
  | clock hlags =>
    rw [hrun] at hs
    have hfront := limit_operations_prefix ⟨s.operationCount, duration⟩ (merge mapped)
    have hops := (Stream.beginsAt_merge_timeMap h.moved).front hfront
    have hfits : FitsNanos (start.nanos - (clock.read 0).nanos) := by
      rw [nanos_of_startInstant h.begun, add_sub_cancel_left]
      exact s.startDelay.fits
    exact (Run.isPunctual_fresh _ _ _).not_lagsBehind (Run.follows_fresh _ _ _ _)
      (by rwa [hsetup]) (by rwa [hsetup]) (le_refl _) hs hordered hlags

/-- It never ends well if the pools are asked for too much. -/
theorem IsPrepared.not_terminated
    (h : IsPrepared s r clock log x w streams mapped start duration)
    (hpools : s.runnerConfig.Overasks) (hs : x.run.steps x.scene.setup events = some played)
    (finish : Instant) : played.phase ≠ .terminated finish := by
  obtain ⟨metrics, active, -, hrun⟩ := h.run
  rw [hrun] at hs
  have hunlaunched : played.IsUnlaunched :=
    Run.Reaches.invariant (motive := Run.IsUnlaunched)
      (fun hr hstep => hr.step (h.config ▸ hpools) hstep) ⟨events, hs⟩ (.inl rfl)
  intro hphase
  simp [Run.IsUnlaunched, Run.IsBroken, hphase] at hunlaunched

/-- A session with an outcome at the end of a run has come to a report, and so has its run. -/
theorem terminated_of_conclude {run : Run P String} {database : δ} {outcome : ClientOutcome}
    (h : (conclude s x run database st).1 = .ok outcome) :
    ∃ finish, run.phase = .terminated finish := by
  have hreport : ∃ rep, report? (conclude s x run database st).1 = some rep := by
    unfold conclude at h ⊢
    rw [bind_run, takeOver_run] at h ⊢
    dsimp only at h ⊢
    rw [bind_run] at h ⊢
    generalize attempt (report s x run) _ = attempted at h ⊢
    obtain ⟨b | execution, t⟩ := attempted
    · simp at h
    · have hfinishes := finishes execution t
      dsimp only at h ⊢
      rw [h] at hfinishes ⊢
      cases hfinishes with
      | executed => exact ⟨_, rfl⟩
  obtain ⟨rep, hrep⟩ := hreport
  obtain ⟨finish, hphase, -⟩ := conclude_report hrep
  exact ⟨finish, hphase⟩

end Plans

/-- What breaks down in an execution of a workload that does not break down itself. If the execution
is over with its beginning, it has no outcome, and nothing has broken down but its metrics queue, if
that is asked to hold more than it can; then no run is played. After a run that takes any events,
with any readings of the clock, something has broken down exactly if its scheduler has, or the run
has not come to its end. With pools that are asked for too much there is never an outcome. With
pools that are not, nothing breaks down if the clock of the scheduler does not go back. -/
theorem execution_breaks_down (s : Settings) (r : Registry δ ω P) (codec : PayloadCodec P)
    (clock : Clock) (state : ClientState δ ω P) (hmode : s.mode = .execute)
    (hw : ∀ w, chosenWorkload s r = .ok w → w.NeverBreaks) :
    (∀ answer st, begin s r codec clock state = .ended answer st →
      (run s r codec clock state).1 = answer ∧ (∀ outcome, answer ≠ .ok outcome) ∧
      ∀ b, breakdown? answer = some b → QueueBreaks s b) ∧
    ∀ x st, begin s r codec clock state = .ready x st →
      s.queueCapacity ≤ MetricsPipeline.maxCapacity ∧
      x.scene.setup.config = s.runnerConfig ∧
      (∃ events played database, x.run.steps x.scene.setup events = some played ∧
        (run s r codec clock state).1 = (conclude s x played database st).1) ∧
      ∀ events played, x.run.steps x.scene.setup events = some played → ∀ database,
        let answer := (conclude s x played database st).1
        (∀ text, breakdown? answer = some (.panicked text) ↔
          x.run.BreaksDownAmong x.scene.setup events text) ∧
        (breakdown? answer = some .stuck ↔ played.end? x.scene.setup = none) ∧
        (s.runnerConfig.Overasks → ∀ outcome, answer ≠ .ok outcome) ∧
        (¬ s.runnerConfig.Overasks → (clock.read 0 :: Run.readings events).Pairwise (· ≤ ·) →
          ∀ text, breakdown? answer ≠ some (.panicked text)) := by
  refine ⟨fun answer st hbegin => ?_, fun x st hbegin => ?_⟩
  · obtain ⟨stop, rfl, hbreaks⟩ := begin_eq_ended hmode hw hbegin
    refine ⟨?_, by simp, hbreaks⟩
    unfold run
    rw [hbegin]
  · obtain ⟨st₀, hprepare⟩ := begin_eq_ready hmode hbegin
    obtain ⟨w, streams, mapped, start, duration, hprepared⟩ := prepare_spec hprepare
    refine ⟨hprepared.queue_le, hprepared.config, ?_, fun events played hs database => ?_⟩
    · obtain ⟨events, hs, -⟩ := Simulation.simulate_steps x.scene x.run st.database
      refine ⟨events, _, (Simulation.simulate x.scene x.run st.database []).database, hs, ?_⟩
      unfold run
      rw [hbegin]
    · intro answer
      have hbreakdown : breakdown? answer = runBreakdown? x played :=
        breakdown?_conclude s x played database st
      have hbroken : ∀ text, breakdown? answer = some (.panicked text) ↔
          x.run.BreaksDownAmong x.scene.setup events text := fun text => by
        rw [hbreakdown, ← hprepared.phase_eq_broken_iff (hw w hprepared.chosen) hs]
        exact runBreakdown?_eq_panicked
      refine ⟨hbroken, ?_, fun hpools outcome houtcome => ?_, fun hpools hordered text => ?_⟩
      · rw [hbreakdown]
        exact runBreakdown?_eq_stuck
      · obtain ⟨finish, hphase⟩ := terminated_of_conclude houtcome
        exact hprepared.not_terminated hpools hs finish hphase
      · rw [Ne, hbroken]
        exact hprepared.not_breaksDownAmong hpools hordered text

/-- The workload of two operations does not break down. -/
theorem neverBreaks_pair {s : Settings} (hs : s.workload = some "pair") {w : Workload Unit Unit}
    (h : chosenWorkload s pairPlugins = .ok w) : w.NeverBreaks := by
  unfold chosenWorkload at h
  rw [hs] at h
  obtain rfl := Except.ok.inj h
  refine ⟨fun _ _ _ hstreams => (nomatch hstreams), fun _ _ streams hstreams => ?_⟩
  obtain rfl := Except.ok.inj hstreams
  intro source hsource text hmem
  obtain ⟨stream, hstream, hrest⟩ := Source.mem_ofStreams.mp hsource
  obtain rfl := List.mem_singleton.mp hstream
  rcases hrest with rfl | rfl
  · simp [LazyList.toList] at hmem
  · simp [LazyList.toList, LazyList.ofList] at hmem

/-- Settings that execute the two operations when they are due. -/
def sleepingSettings : Settings := { pairSettings with ignoreScheduledStarts := false }

/-- The run proper begins at 0, and the scheduler pulls a batch for which it sleeps. -/
def fallAsleep : List RunEvent :=
  [.schedule .epoch false, .schedule .epoch false]

/-- Among the runs of these settings is one that breaks down, because its clock goes back as far as
it can while the scheduler sleeps. It does not if the clock goes on. -/
theorem execution_breaks_down_asleep : ∃ x st,
    begin sleepingSettings pairPlugins unitCodec (.fixed ⟨0, by decide⟩)
      (freshState Files.empty () ()) = .ready x st ∧
    (∃ played, x.run.steps x.scene.setup
        (fallAsleep ++ [.schedule .least false]) = some played ∧
      breakdown? (conclude sleepingSettings x played () st).1 =
        some (.panicked TimeOverflow.subtractingInstants.message)) ∧
    ∃ played, x.run.steps x.scene.setup
        (fallAsleep ++ [.schedule .greatest false]) = some played ∧
      ∀ text, breakdown? (conclude sleepingSettings x played () st).1 ≠ some (.panicked text) := by
  obtain ⟨-, hall⟩ := execution_breaks_down sleepingSettings pairPlugins unitCodec
    (.fixed ⟨0, by decide⟩) (freshState Files.empty () ()) rfl fun w => neverBreaks_pair rfl
  have hready : (match begin sleepingSettings pairPlugins unitCodec (.fixed ⟨0, by decide⟩)
      (freshState Files.empty () ()) with
    | .ready x _ =>
      (x.run.steps x.scene.setup fallAsleep).any (fun r => r.LagsBehind .least) &&
        (x.run.steps x.scene.setup
          (fallAsleep ++ [.schedule .least false])).isSome &&
        (x.run.steps x.scene.setup
          (fallAsleep ++ [.schedule .greatest false])).isSome
    | .ended _ _ => false) = true := by
    decide +kernel
  cases hbegin : begin sleepingSettings pairPlugins unitCodec (.fixed ⟨0, by decide⟩)
      (freshState Files.empty () ()) with
  | ended answer st => simp [hbegin] at hready
  | ready x st =>
    rw [hbegin] at hready
    simp only [Bool.and_eq_true, Option.isSome_iff_exists, Option.any_eq_true,
      decide_eq_true_eq] at hready
    obtain ⟨⟨⟨asleep, hasleep, hlags⟩, broken, hbroken⟩, awake, hawake⟩ := hready
    obtain ⟨-, hconfig, -, hplayed⟩ := hall x st hbegin
    refine ⟨x, st, rfl, ⟨broken, hbroken, ?_⟩, awake, hawake, ?_⟩
    · exact ((hplayed _ _ hbroken ()).1 _).mpr
        ⟨fallAsleep, _, false, [], asleep, rfl, hasleep, .clock hlags⟩
    · exact (hplayed _ _ hawake ()).2.2.2 (by decide) (by decide)

/-- Settings that allow for more operations in flight than a pool can hold. -/
def crowdedSettings : Settings :=
  { pairSettings with maxInFlight := PermitPool.maxPermits + 1 }

/-- Settings without a problem may break down an execution, although neither the workload nor the
database does, and the clock stands still. -/
theorem breaks_down_crowded : crowdedSettings.problems Files.empty = [] ∧
    crowdedSettings.mode = .execute ∧
    (∀ w, chosenWorkload crowdedSettings pairPlugins = .ok w → w.NeverBreaks) ∧
    breakdown? (run crowdedSettings pairPlugins unitCodec (.fixed ⟨0, by decide⟩)
      (freshState Files.empty () ())).1 = some (.panicked MetricsPipeline.capacityText) :=
  ⟨by decide +kernel, rfl, fun w => neverBreaks_pair rfl, by decide +kernel⟩

end Client

end WorkloadReplay
