import WorkloadReplay.Stream.Merge
import WorkloadReplay.Text.Table

/-!
# Statistics of a workload

A summary of a merged sequence without a replay: how many operations there are of each type, when
they start, and the gaps between consecutive starts of a type. `Statistics.ofSchedule` goes through
the sequence once and keeps a `GapCount` for each type.
-/

namespace WorkloadReplay

/-- The operations of one type. -/
structure OperationStatistics where
  operationType : String
  count : Nat
  firstStart : Instant
  lastStart : Instant
  /-- The gaps between consecutive starts; there are none below two operations. -/
  minGap : Option Duration
  meanGap : Option Duration
  maxGap : Option Duration
  deriving DecidableEq

/-- A summary of a merged sequence. -/
structure WorkloadStatistics where
  totalCount : Nat
  firstStart : Option Instant
  lastStart : Option Instant
  duration : Duration
  /-- Operations on whose completion others depend. -/
  dependencyCount : Nat
  gatedCount : Nat
  operations : List OperationStatistics
  deriving DecidableEq

/-- The starts of one type so far. -/
structure GapCount where
  count : Nat
  first : Instant
  last : Instant
  minGap : Option Duration
  maxGap : Option Duration
  gapSum : Int
  deriving DecidableEq

namespace GapCount

/-- A single start. -/
def single (start : Instant) : GapCount := ⟨1, start, start, none, none, 0⟩

/-- The gap between two starts, held at the ends of the range. -/
def gap (earlier later : Instant) : Duration := Duration.saturating (later.nanos - earlier.nanos)

/-- The shorter of two durations. -/
def shorter (a b : Duration) : Duration := if a ≤ b then a else b

/-- The longer of two durations. -/
def longer (a b : Duration) : Duration := if a ≤ b then b else a

/-- One more start. -/
def push (g : GapCount) (start : Instant) : GapCount :=
  let d := gap g.last start
  { count := g.count + 1
    first := g.first
    last := start
    minGap := some (g.minGap.elim d (shorter · d))
    maxGap := some (g.maxGap.elim d (longer · d))
    gapSum := g.gapSum + d.nanos }

/-- The mean of the gaps, toward zero. -/
def meanGap (g : GapCount) : Option Duration :=
  if 1 < g.count then
    let mean := g.gapSum.tdiv (g.count - 1 : Nat)
    some ((Duration.ofNanos? mean).getD (Duration.saturating greatestNanos))
  else none

/-- The summary of a type. -/
def finish (operationType : String) (g : GapCount) : OperationStatistics :=
  ⟨operationType, g.count, g.first, g.last, g.minGap, g.meanGap, g.maxGap⟩

end GapCount

namespace WorkloadStatistics

/-- What has been counted of a sequence. -/
structure Tally where
  total : Nat
  first : Option Instant
  last : Option Instant
  dependencies : Nat
  gated : Nat
  /-- The types met so far, in order. -/
  byType : List (String × GapCount)

/-- Nothing counted. -/
def Tally.empty : Tally := ⟨0, none, none, 0, 0, []⟩

/-- Counts a start among the types met so far. -/
def countType (operationType : String) (start : Instant) :
    List (String × GapCount) → List (String × GapCount)
  | [] => [(operationType, GapCount.single start)]
  | (t, g) :: rest =>
    if operationType < t then (operationType, GapCount.single start) :: (t, g) :: rest
    else if operationType = t then (t, g.push start) :: rest
    else (t, g) :: countType operationType start rest

/-- Counts an operation. -/
def Tally.add {P : Type} (t : Tally) (s : ScheduledOperation P) : Tally :=
  let start := s.operation.scheduledStart
  { total := t.total + 1
    first := some (t.first.getD start)
    last := some start
    dependencies := if s.tracked then t.dependencies + 1 else t.dependencies
    gated := if s.operation.isGated then t.gated + 1 else t.gated
    byType := countType s.operation.operationType start t.byType }

/-- The summary of what has been counted. -/
def Tally.finish (t : Tally) : WorkloadStatistics where
  totalCount := t.total
  firstStart := t.first
  lastStart := t.last
  duration :=
    match t.first, t.last with
    | some first, some last => (last.since? first).getD (Duration.saturating greatestNanos)
    | _, _ => Duration.zero
  dependencyCount := t.dependencies
  gatedCount := t.gated
  operations := t.byType.map fun (operationType, g) => g.finish operationType

/-- Counts a sequence to its end, or to its error. -/
def tally {P : Type} : Tally → Schedule P → Except ReplayError Tally
  | t, .nil => .ok t
  | _, .cons (.error e) _ => .error e
  | t, .cons (.ok s) rest => tally (t.add s) (rest ())

/-- The summary of a merged sequence. -/
def ofSchedule {P : Type} (schedule : Schedule P) : Except ReplayError WorkloadStatistics :=
  (tally Tally.empty schedule).map Tally.finish

/-- The summary of an operation type. -/
def operation? (s : WorkloadStatistics) (operationType : String) : Option OperationStatistics :=
  s.operations.find? (·.operationType = operationType)

/-- A duration, or a dash. -/
def orDash (d : Option Duration) : String := d.elim "-" Duration.toText

/-- The summary as a table. -/
def render (s : WorkloadStatistics) : String :=
  Text.table
    ["Operation", "Count", "First start", "Last start", "Min gap", "Mean gap", "Max gap"]
    (s.operations.map fun o =>
      [o.operationType, toString o.count, o.firstStart.toText, o.lastStart.toText, orDash o.minGap,
        orDash o.meanGap, orDash o.maxGap]) ++
  "\ntotal: " ++ toString s.totalCount ++ " operations over " ++ s.duration.toText ++ ", " ++
    toString s.dependencyCount ++ " dependencies, " ++ toString s.gatedCount ++ " gated"

/-- The value a summary is written as. -/
def toJson (s : WorkloadStatistics) : Json :=
  .obj [("total_count", Json.nat s.totalCount),
    ("first_start", Json.ofOption Instant.toJson s.firstStart),
    ("last_start", Json.ofOption Instant.toJson s.lastStart), ("duration", s.duration.toJson),
    ("dependency_count", Json.nat s.dependencyCount), ("gated_count", Json.nat s.gatedCount),
    ("operations", Json.ofList (fun o : OperationStatistics =>
      .obj [("operation_type", .str o.operationType), ("count", Json.nat o.count),
        ("first_start", o.firstStart.toJson), ("last_start", o.lastStart.toJson),
        ("min_gap", Json.ofOption Duration.toJson o.minGap),
        ("mean_gap", Json.ofOption Duration.toJson o.meanGap),
        ("max_gap", Json.ofOption Duration.toJson o.maxGap)]) s.operations)]

end WorkloadStatistics

end WorkloadReplay
