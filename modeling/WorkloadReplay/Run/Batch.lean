import WorkloadReplay.Stream.Merge

/-!
# Batches

A merged sequence is dispatched in batches: one operation at a time, or, with a window, an operation
together with all that follow it and start within the window. An error in the sequence ends a batch
and is a batch of its own.
-/

namespace WorkloadReplay

variable {P : Type}

/-- The operations at the front of a sequence that start before an instant, and the rest. -/
def takeBefore (limit : Instant) : Schedule P → List (ScheduledOperation P) × Schedule P
  | .cons (.ok s) tail =>
    if s.operation.scheduledStart < limit then
      let (batch, rest) := takeBefore limit (tail ())
      (s :: batch, rest)
    else ([], .cons (.ok s) tail)
  | rest => ([], rest)

/-- The next operations to be dispatched together: the first one, those that belong to it, and the
rest of the sequence. -/
structure Batch (P : Type) where
  first : ScheduledOperation P
  others : List (ScheduledOperation P)
  rest : Schedule P

/-- All operations of a batch, in order. -/
def Batch.operations (b : Batch P) : List (ScheduledOperation P) := b.first :: b.others

/-- The next batch of a sequence, or the error that stands in its place; `none` at the end. A window
ends where the range of instants ends. -/
def nextBatch (window : Option Duration) : Schedule P → Option (Except ReplayError (Batch P))
  | .nil => none
  | .cons (.error e) _ => some (.error e)
  | .cons (.ok s) tail =>
    match window with
    | none => some (.ok ⟨s, [], tail ()⟩)
    | some w =>
      let (others, rest) := takeBefore (s.operation.scheduledStart.addOrGreatest w) (tail ())
      some (.ok ⟨s, others, rest⟩)

end WorkloadReplay
