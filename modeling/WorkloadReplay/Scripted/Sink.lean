import WorkloadReplay.Metrics.Collector

/-!
# Scripted sinks

A sink that keeps the records it is given, in order, and that fails when its script says so.
-/

namespace WorkloadReplay

/-- The part of a sink. -/
structure SinkScript where
  /-- Every write breaks down with this text. -/
  breakdown : Option String
  /-- Writes fail once this many records are kept. -/
  capacity : Option Nat
  /-- The text of writes that fail. -/
  writeError : String
  /-- Flushing fails with this text. -/
  flushError : Option String

namespace SinkScript

/-- The answer to a write when `kept` records are kept. -/
def writeAnswer (script : SinkScript) (kept : Nat) : SinkAnswer :=
  match script.breakdown with
  | some text => .panicked text
  | none => if script.capacity.any (· ≤ kept) then .failed script.writeError else .done

/-- The sink that plays a script. Its state is the records kept. -/
def sink (script : SinkScript) : Sink (List MetricsRecord) where
  write r rows :=
    let answer := script.writeAnswer rows.length
    (answer, if answer = .done then rows ++ [r] else rows)
  flush rows := (match script.flushError with
    | some text => .failed text
    | none => .done, rows)

end SinkScript

end WorkloadReplay
