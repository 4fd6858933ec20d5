import WorkloadReplay.Workload
import WorkloadReplay.ReplayError

/-!
# Moving streams in time

A workload is replayed at a time and at a pace of its own. `compress` multiplies the distance of
every time from an anchor by a ratio, `offset` moves every time by a duration, and `timeMap` does
both to all streams so that the earliest first operation lands on a given start. A time that does
not fit becomes an error in the place of its operation.
-/

namespace WorkloadReplay

namespace Stream

variable {P : Type}

/-- A ratio is positive and finite. -/
def checkRatio (ratio : Binary64) : Except ReplayError Unit :=
  if ratio.isFinite && (Binary64.zero false).lt ratio then .ok ()
  else .error (.streamConstruction
    ("compression ratio must be a positive finite number, got " ++ Decimal.toText ratio))

/-- A time with its distance from the anchor multiplied by a ratio. -/
def scaleFrom (anchor : Instant) (ratio : Binary64) (time : Instant) :
    Except WorkloadError Instant :=
  match ((time.since? anchor).bind (·.scale ratio)).bind anchor.add? with
  | some t => .ok t
  | none => .error (.stream ("overflow compressing " ++ time.toText ++ " around " ++
      anchor.toText ++ " by " ++ Decimal.toText ratio))

/-- A time moved by a duration. -/
def shiftBy (distance : Duration) (time : Instant) : Except WorkloadError Instant :=
  match time.add? distance with
  | some t => .ok t
  | none => .error (.stream ("overflow offsetting " ++ time.toText ++ " by " ++ distance.toText))

/-- An operation with both its times replaced; of two errors the one of the start counts. -/
def retime (f : Instant → Except WorkloadError Instant) (op : Operation P) :
    Except WorkloadError (Operation P) :=
  match f op.scheduledStart with
  | .error e => .error e
  | .ok start =>
    match f op.dependencyTime with
    | .error e => .error e
    | .ok dependency => .ok (op.withTimes start dependency)

/-- An item of a sequence with its times replaced. -/
def retimeItem (f : Instant → Except WorkloadError Instant) :
    Except WorkloadError (Operation P) → Except WorkloadError (Operation P)
  | .error e => .error e
  | .ok op => retime f op

/-- A sequence with the distance of its times from an anchor multiplied by a ratio. -/
def compress (ratio : Binary64) (anchor : Instant) (ops : OperationSequence P) :
    Except ReplayError (OperationSequence P) :=
  (checkRatio ratio).map fun _ => ops.map (retimeItem (scaleFrom anchor ratio))

/-- A sequence with its times moved by a duration. -/
def offset (distance : Duration) (ops : OperationSequence P) : OperationSequence P :=
  ops.map (retimeItem (shiftBy distance))

/-- The start of the first item of a sequence, if it is an operation. -/
def firstStart? : OperationSequence P → Option Instant
  | .cons (.ok op) _ => some op.scheduledStart
  | _ => none

/-- The earliest start among the first operations of all sequences. -/
def anchor? (streams : List (OperationStream P)) : Option Instant :=
  let firsts := streams.flatMap fun s => [firstStart? s.dependencies, firstStart? s.others]
  (firsts.filterMap id).foldl
    (fun earliest first => some (earliest.elim first (Instant.earlier · first))) none

/-- Both sequences of a stream with their times scaled from an anchor and then moved. -/
def mapStream (ratio : Binary64) (anchor : Instant) (shift : Duration) (s : OperationStream P) :
    Except ReplayError (OperationStream P) := do
  let dependencies ← compress ratio anchor s.dependencies
  let others ← compress ratio anchor s.others
  return ⟨s.operationType, offset shift dependencies, offset shift others⟩

/-- All streams moved so that they begin at `start`, with every gap multiplied by a ratio: gaps are
scaled around the earliest first operation, which is then moved to `start`. -/
def timeMap (streams : List (OperationStream P)) (start : Instant) (ratio : Binary64) :
    Except ReplayError (List (OperationStream P)) := do
  checkRatio ratio
  match anchor? streams with
  | none => return streams
  | some anchor =>
    match start.since? anchor with
    | none =>
      throw (.streamConstruction ("overflow moving " ++ anchor.toText ++ " to " ++ start.toText))
    | some shift => streams.mapM (mapStream ratio anchor shift)

end Stream

end WorkloadReplay
