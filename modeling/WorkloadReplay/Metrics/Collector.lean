import WorkloadReplay.Metrics.Snapshot

/-!
# Collecting records

A `Sink` is where a run's log of records goes. A `Collector` takes up records one by one: each goes
to the sink, while the sink is in use, and into the results. A sink that fails is not used again,
and the failure is reported; the results do not suffer. A sink may also break down, which ends the
collector.
-/

namespace WorkloadReplay

/-- How a call of a sink ends. -/
inductive SinkAnswer where
  | done
  | failed (text : String)
  | panicked (text : String)
  deriving DecidableEq

/-- A place for records, with states of type `κ`. -/
structure Sink (κ : Type) where
  write : MetricsRecord → κ → SinkAnswer × κ
  flush : κ → SinkAnswer × κ

/-- What has been collected, and the sink. -/
structure Collector (κ : Type) where
  results : Aggregate
  sink : κ
  /-- The sink is in use. -/
  active : Bool

namespace Collector

variable {κ : Type}

/-- A collector of nothing yet. -/
def fresh (config : MetricsConfig) (sink : κ) (active : Bool) : Collector κ :=
  ⟨Aggregate.empty config, sink, active⟩

/-- The name under which the collector reports. -/
def name : String := "metrics service"

/-- What a call of a collector does: it goes on, perhaps with a report, or it breaks down with a
text. -/
inductive Outcome (κ : Type) where
  | on (c : Collector κ) (report : Option String)
  | broken (text : String) (sink : κ)

/-- Takes up a record. -/
def take (s : Sink κ) (r : MetricsRecord) (c : Collector κ) : Outcome κ :=
  if c.active then
    match s.write r c.sink with
    | (.done, k) => .on { c with results := c.results.add r, sink := k } none
    | (.failed text, k) =>
      .on ⟨c.results.add r, k, false⟩ (some ("results log disabled: " ++ text))
    | (.panicked text, k) => .broken text k
  else .on { c with results := c.results.add r } none

/-- Flushes the sink at the end. -/
def finish (s : Sink κ) (c : Collector κ) : Outcome κ :=
  if c.active then
    match s.flush c.sink with
    | (.done, k) => .on { c with sink := k } none
    | (.failed text, k) => .on { c with sink := k } (some ("flushing results log failed: " ++ text))
    | (.panicked text, k) => .broken text k
  else .on c none

end Collector

end WorkloadReplay
