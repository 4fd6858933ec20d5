import WorkloadReplay.Json.Decode

/-!
# Configuration of a replay

How a merged sequence is replayed, and the states that a replay goes through.
-/

namespace WorkloadReplay

/-- Where a replay stands. -/
inductive RunnerState where
  | idle | initializing | running | draining | terminated
  deriving DecidableEq, Repr, Inhabited

namespace RunnerState

/-- The name of a state. -/
def name : RunnerState → String
  | idle => "Idle"
  | initializing => "Initializing"
  | running => "Running"
  | draining => "Draining"
  | terminated => "Terminated"

/-- Reads a state by its name. -/
def ofTree? (t : Json.Tree) : Option RunnerState :=
  t.toCase? ([idle, initializing, running, draining, terminated].map fun s => (s.name, s))

end RunnerState

/-- What becomes of an operation that starts later than tolerated. -/
inductive DelayPolicy where
  /-- The delay is reported and the run ends. -/
  | terminate
  /-- The delay is counted and the run goes on. -/
  | record
  deriving DecidableEq, Repr, Inhabited

namespace DelayPolicy

/-- The name of a policy. -/
def name : DelayPolicy → String
  | terminate => "terminate"
  | record => "record"

/-- Reads a policy by its name. -/
def ofTree? (t : Json.Tree) : Option DelayPolicy :=
  t.toCase? ([terminate, record].map fun p => (p.name, p))

end DelayPolicy

/-- How a merged sequence is replayed. -/
structure RunnerConfig where
  /-- Operations that the database executes at once. -/
  threadCount : Nat := 1
  /-- Operations that are alive at once. -/
  maxInFlight : Nat := 100
  toleratedDelay : Duration := Duration.ofUnits .milli 100
  /-- Operations start as soon as possible. -/
  ignoreScheduledStarts : Bool := false
  delayPolicy : DelayPolicy := .terminate
  /-- The longest sleep while a start is waited for. -/
  spinnerSleep : Duration := Duration.ofUnits .milli 1
  /-- The width of the windows in which operations are dispatched together. -/
  window : Option Duration := none
  initializationTimeout : Duration := Duration.ofUnits .second 5
  gctWaitTimeout : Duration := Duration.ofUnits .second 30
  /-- How long unfinished operations are waited for at the end. -/
  drainGrace : Duration := Duration.ofUnits .minute 30
  statusInterval : Option Duration := none

/-- The policy in effect: where scheduled starts are ignored, delays are only counted. -/
def RunnerConfig.effectivePolicy (c : RunnerConfig) : DelayPolicy :=
  if c.ignoreScheduledStarts then .record else c.delayPolicy

end WorkloadReplay
