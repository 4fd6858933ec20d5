import WorkloadReplay.Stream.Merge

/-!
# Limits

A replay may be limited to a number of operations, or to those that start within a duration of the
first one. `limit` cuts a merged sequence accordingly. The number is checked before the next item is
looked at, so an error behind the limit never shows; the duration is checked after.
-/

namespace WorkloadReplay

/-- How much of a merged sequence is used. -/
structure Limits where
  operationCount : Option Nat
  /-- Relative to the start of the first operation. -/
  duration : Option Duration
  deriving DecidableEq

namespace Limits

variable {P : Type}

/-- No limits. -/
def unbounded : Limits := ⟨none, none⟩

/-- So many operations are enough. -/
def isReached (l : Limits) (count : Nat) : Bool := l.operationCount.any (· ≤ count)

/-- An operation starts too late after the first one. -/
def isLate (l : Limits) (first start : Instant) : Bool :=
  l.duration.any fun d => first.addOrGreatest d < start

/-- The part of a sequence within limits, after `count` operations of which the first started at
`first`. -/
def cut (l : Limits) : Nat → Option Instant → Schedule P → Schedule P
  | _, _, .nil => .nil
  | _, _, .cons (.error e) _ => .cons (.error e) fun _ => .nil
  | count, first, .cons (.ok s) tail =>
    let first := first.getD s.operation.scheduledStart
    if l.isLate first s.operation.scheduledStart then .nil
    else .cons (.ok s) fun _ =>
      if l.isReached (count + 1) then .nil else cut l (count + 1) (some first) (tail ())

end Limits

/-- The part of a merged sequence within limits. -/
def limit {P : Type} (l : Limits) (schedule : Schedule P) : Schedule P :=
  if l.isReached 0 then .nil else l.cut 0 none schedule

end WorkloadReplay
