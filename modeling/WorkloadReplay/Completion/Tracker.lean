import WorkloadReplay.Completion.Service

/-!
# The completion tracker of a peer

Operations of a peer complete in any order, but the completed times it reports may not go back. A
tracker keeps the times that are initiated and not completed yet. While there are such times, the
peer is complete up to just before the earliest of them; otherwise up to the latest time that it
initiated.
-/

namespace WorkloadReplay

/-- What a peer has initiated, and what it last reported as completed. -/
structure CompletionTracker where
  /-- The slot through which the peer reports. -/
  slot : Nat
  /-- The times initiated and not completed, in order, each as often as it is pending. -/
  pending : List Instant
  highestInitiated : Option Instant
  lastSubmitted : Option Instant
  deriving DecidableEq

namespace CompletionTracker

/-- A tracker that reports through a slot. -/
def ofSlot (slot : Nat) : CompletionTracker := ⟨slot, [], none, none⟩

/-- A call of a tracker: what it answers, and the tracker and the service after it. -/
abbrev Call := Except ReplayError Unit × CompletionTracker × CompletionService

/-- Puts a time where it belongs among times in order. -/
def insertTime (time : Instant) : List Instant → List Instant
  | [] => [time]
  | t :: ts => if time ≤ t then time :: t :: ts else t :: insertTime time ts

/-- The tracker with a time counted among those initiated. -/
def raise (t : CompletionTracker) (time : Instant) : CompletionTracker :=
  { t with highestInitiated := some (t.highestInitiated.elim time (Instant.later · time)) }

/-- The time up to which all is complete, if there is one. -/
def watermark? (t : CompletionTracker) : Option Instant :=
  match t.pending with
  | lowest :: _ => lowest.sub? Duration.one
  | [] => t.highestInitiated

/-- Reports a time as initiated and at once as completed. -/
def seed (t : CompletionTracker) (s : CompletionService) (time : Instant) : Call :=
  match s.reportInitiated t.slot time with
  | .error e => (.error e, t, s)
  | .ok s =>
    match s.reportCompleted t.slot time with
    | .error e => (.error e, t, s)
    | .ok s => (.ok (), { t.raise time with lastSubmitted := some time }, s)

/-- Initiates an operation. -/
def initiate (t : CompletionTracker) (s : CompletionService) (time : Instant) : Call :=
  match s.reportInitiated t.slot time with
  | .error e => (.error e, t, s)
  | .ok s => (.ok (), { t.raise time with pending := insertTime time t.pending }, s)

/-- Reports the time up to which all is complete, if it is later than the last one reported. -/
def submit (t : CompletionTracker) (s : CompletionService) : Call :=
  match t.watermark? with
  | none => (.ok (), t, s)
  | some time =>
    if t.lastSubmitted.any (time ≤ ·) then (.ok (), t, s)
    else
      match s.reportCompleted t.slot time with
      | .error e => (.error e, t, s)
      | .ok s => (.ok (), { t with lastSubmitted := some time }, s)

/-- Completes an operation that was initiated at a time. -/
def complete (t : CompletionTracker) (s : CompletionService) (time : Instant) : Call :=
  if time ∈ t.pending then { t with pending := t.pending.erase time }.submit s
  else (.error (.invalidState ("completion of " ++ time.toText ++ " was never initiated")), t, s)

/-- The number of operations that are initiated and not completed. -/
def pendingCount (t : CompletionTracker) : Nat := t.pending.length

end CompletionTracker

end WorkloadReplay
