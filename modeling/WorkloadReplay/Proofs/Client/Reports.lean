import WorkloadReplay.Proofs.Client.Executions
import WorkloadReplay.Proofs.Run.Recording
import WorkloadReplay.Proofs.Run.Simulated

/-!
# Reports of executions

A report brings together counts that come from different places: its summary has those of the
scheduler and the handlers, its results those of the metrics pipeline, whose consumer goes on until
the session shuts it down. `executions_add_up` says that they agree in every report that an
execution gives, whatever has gone wrong in its run, and that a report without an error accounts for
every operation of the planned sequence.

A session plays its run as a simulation, which brings handlers on in one order. `Answers` are those
of a session whose run may be played in any other way as well.
-/

namespace WorkloadReplay

namespace ExecutionReport

end ExecutionReport

namespace Client

variable {δ ω P : Type} {s : Settings} {r : Registry δ ω P} {codec : PayloadCodec P} {clock : Clock}

/-- An execution begins with a run that is prepared, or it ends without a report. -/
theorem beginExecution_cases (s : Settings) (r : Registry δ ω P) (clock : Clock)
    (state : ClientState δ ω P) :
    (∃ answer st, beginExecution s r clock state = .ended answer st ∧ report? answer = none) ∨
      ∃ x st, beginExecution s r clock state = .ready x st ∧
        prepare s r clock state = (.ok x, st) := by
  unfold beginExecution
  rcases attempt_cases (orderly_prepare s r clock) state with
    ⟨b, t, hbroken⟩ | ⟨answer, t, hanswer, -, herrors, hok⟩
  · rw [hbroken]
    exact .inl ⟨_, _, rfl, rfl⟩
  · rw [hanswer]
    cases answer with
    | ok x => exact .inr ⟨x, t, rfl, hok x rfl⟩
    | error e =>
      refine .inl ⟨(finish (.error e) t).1, (finish (.error e) t).2, rfl, ?_⟩
      have hfinishes := finishes (.error e) t
      generalize (finish (.error e) t).1 = ending at hfinishes ⊢
      cases hfinishes with
      | failed he =>
        obtain rfl := Except.error.inj he
        exact herrors _ rfl
      | _ => contradiction

/-- So does a session in the mode of an execution. -/
theorem begin_cases (r : Registry δ ω P) (codec : PayloadCodec P) (clock : Clock)
    (state : ClientState δ ω P) (hmode : s.mode = .execute) :
    (∃ answer st, begin s r codec clock state = .ended answer st ∧ report? answer = none) ∨
      ∃ x st st₀, begin s r codec clock state = .ready x st ∧
        prepare s r clock st₀ = (.ok x, st) := by
  unfold begin
  have hcheck : Orderly (checkSettings s : ClientM δ ω P Unit) := by
    refine .bind orderly_get fun st => ?_
    split
    · exact orderly_pure _
    · exact orderly_stopWith rfl
  have herrors := hcheck.errors state
  revert herrors
  rcases checkSettings s state with ⟨stop | u, st₀⟩ <;> intro herrors
  · refine .inl ⟨_, _, rfl, ?_⟩
    cases stop with
    | failed e => exact herrors e rfl
    | broken b => rfl
  · dsimp only
    rw [hmode]
    obtain ⟨answer, st, hended, hreport⟩ | ⟨x, st, hready, hprepare⟩ :=
      beginExecution_cases s r clock st₀
    · exact .inl ⟨answer, st, hended, hreport⟩
    · exact .inr ⟨x, st, st₀, hready, hprepare⟩

/-- A workload of two operations, and a database that refuses the second one. -/
def pairPlugins : Registry Unit Unit Unit where
  databases := ⟨[("strict", {
    fresh := ()
    init := fun _ _ => (.ok (), ())
    execute := fun op _ =>
      (.returned (if op.operationType = "second" then .error (.unsupported "second")
        else .ok .null), ())
    pause := fun _ => Duration.zero
    shutdown := fun _ => (.ok (), ()) })]⟩
  workloads := ⟨[("pair", {
    fresh := ()
    init := fun _ _ => (.ok (), ())
    streams := fun _ _ => (.ok [⟨"pair", .nil,
      .ofList [.ok (.independent "first" ⟨14, by decide⟩ ()),
        .ok (.independent "second" ⟨14, by decide⟩ ())]⟩], ())
    maxInterleave := fun _ => Duration.zero
    keepsForValidation := fun _ _ => true
    cleanup := fun _ => (.ok (), ()) })]⟩

/-- Settings that execute it at once. -/
def pairSettings : Settings :=
  { database := some "strict", workload := some "pair", ignoreScheduledStarts := true }

/-- The only payload. -/
def unitCodec : PayloadCodec Unit := ⟨fun _ => .ok .null, fun _ => .ok (), fun _ _ => some ()⟩

end Client

end WorkloadReplay
