import WorkloadReplay.Run.Config
import WorkloadReplay.ReplayError
import WorkloadReplay.Operation

/-!
# Start delays

The check of an operation that is about to start: how late it is, and whether the run bears it.
-/

namespace WorkloadReplay

/-- What the check of a start finds. -/
inductive DelayCheck where
  | onTime
  /-- Later than tolerated; the delay is counted and the run goes on. -/
  | recorded (delay : Duration)
  /-- Later than tolerated; the run ends. -/
  | breach (e : ReplayError)
  deriving DecidableEq

/-- How delays are judged. -/
structure DelayChecker where
  policy : DelayPolicy
  tolerated : Duration
  deriving DecidableEq

namespace DelayChecker

variable {P : Type}

/-- The delay of an operation that starts now; none at all if the difference does not fit. -/
def delay (op : Operation P) (now : Instant) : Duration :=
  (now.since? op.scheduledStart).getD Duration.zero

/-- Judges the start of an operation. -/
def check (c : DelayChecker) (op : Operation P) (now : Instant) : DelayCheck :=
  let d := delay op now
  if d ≤ c.tolerated then .onTime
  else
    match c.policy with
    | .record => .recorded d
    | .terminate =>
      .breach (.executionDelay op.operationType op.scheduledStart d c.tolerated)

end DelayChecker

/-- How a run judges delays. -/
def RunnerConfig.delayChecker (c : RunnerConfig) : DelayChecker :=
  ⟨c.effectivePolicy, c.toleratedDelay⟩

end WorkloadReplay
