import WorkloadReplay.Database
import WorkloadReplay.Stream.Limit
import WorkloadReplay.Json.Printer

/-!
# Validation of a workload

A check of a workload without a replay. The streams are built twice from the same seed, and both
merged sequences are gone through within the limits. Every operation must lie near enough to what it
is gated on and must survive being written as JSON and read back; the written forms of all
operations must be the same in both sequences.
-/

namespace WorkloadReplay

/-- What a validation has found. -/
structure WorkloadValidation where
  operationsChecked : Nat := 0
  problems : List String := []

namespace WorkloadValidation

/-- How many problems are listed. -/
def maxProblems : Nat := 50

/-- What stands in the place of all further problems. -/
def omitted : String := "further problems omitted"

/-- How many operations are checked if nothing limits them. -/
def defaultLimit : Nat := 100000

/-- The validation with one more problem. -/
def addProblem (v : WorkloadValidation) (problem : String) : WorkloadValidation :=
  if v.problems.length < maxProblems then { v with problems := v.problems ++ [problem] }
  else if v.problems.length = maxProblems then { v with problems := v.problems ++ [omitted] }
  else v

/-- No problem has been found. -/
def isSuccessful (v : WorkloadValidation) : Bool := v.problems.isEmpty

variable {P : Type}

/-- The written form of an operation, if reading and writing it again makes no difference. -/
def writtenForm (codec : PayloadCodec P) (op : Operation P) : Except String Json := do
  let value ← op.toJson codec
  let decoded ← Operation.ofJson codec value
  let again ← decoded.toJson codec
  if value.sorted.same again.sorted then return value.sorted
  else throw (value.sorted.compact ++ " decoded as " ++ again.sorted.compact)

/-- What is wrong with an operation that is further than `interleave` from what it is gated on. -/
def interleaveProblem? (interleave : Duration) (index : Nat) (op : Operation P) : Option String :=
  if op.isGated && (op.scheduledStart.since? op.dependencyTime).all (interleave < ·) then
    some ("operation #" ++ toString index ++ " (" ++ op.operationType ++ ") depends on " ++
      op.dependencyTime.toText ++ " but starts at " ++ op.scheduledStart.toText ++
      ", beyond the maximum interleave of " ++ interleave.toText)
  else none

/-- What is wrong with an operation that does not survive being written. -/
def serializationProblem (index : Nat) (op : Operation P) (reason : String) : String :=
  "operation #" ++ toString index ++ " (" ++ op.operationType ++
    ") does not survive serialization: " ++ reason

/-- The written forms of the operations of a sequence, after those found before. An operation with a
problem of its own counts as null. -/
def collect (codec : PayloadCodec P) (interleave : Duration) :
    Array Json → WorkloadValidation → Schedule P →
      Except Breakdown (Array Json × WorkloadValidation)
  | found, v, .nil => .ok (found, v)
  | _, _, .cons (.error (.panicked text)) _ => .error (.panicked text)
  | found, v, .cons (.error e) _ => .ok (found, v.addProblem e.message)
  | found, v, .cons (.ok s) rest =>
    let v := (interleaveProblem? interleave found.size s.operation).elim v v.addProblem
    match writtenForm codec s.operation with
    | .ok form => collect codec interleave (found.push form) v (rest ())
    | .error reason =>
      collect codec interleave (found.push .null)
        (v.addProblem (serializationProblem found.size s.operation reason)) (rest ())

/-- Builds the streams of a workload and collects the written forms of their operations; `none` if
there are no streams. -/
def construct {ω : Type} (codec : PayloadCodec P) (w : Workload ω P) (seed : Nat) (limits : Limits)
    (interleave : Duration) (s : ω) :
    Except Breakdown (Option (Array Json) × WorkloadValidation) × ω :=
  let v : WorkloadValidation := {}
  match w.streams seed s with
  | (.error (.panicked text), s) => (.error (.panicked text), s)
  | (.error e, s) => (.ok (none, v.addProblem ("building streams failed: " ++ e.message)), s)
  | (.ok streams, s) =>
    ((collect codec interleave #[] v (limit limits (merge streams))).map
      fun (found, v) => (some found, v), s)

/-- The first place, from number `i` on, at which two lists differ. -/
def firstDifference? : Nat → List Json → List Json → Option Nat
  | i, a :: as, b :: bs => if a.same b then firstDifference? (i + 1) as bs else some i
  | _, _, _ => none

/-- What is wrong if two constructions of the same streams differ. -/
def differenceProblem? (seed : Nat) (first second : Array Json) : Option String :=
  match firstDifference? 0 first.toList second.toList with
  | some index =>
    some ("operation #" ++ toString index ++ " differs between two constructions with seed " ++
      toString seed)
  | none =>
    if first.size = second.size then none
    else
      some ("two constructions with seed " ++ toString seed ++ " yielded " ++
        toString first.size ++ " and " ++ toString second.size ++ " operations")

/-- The limits within which a workload is checked. -/
def effectiveLimits (limits : Limits) : Limits :=
  { limits with operationCount := some (limits.operationCount.getD defaultLimit) }

/-- The findings of the first construction, after a second one. Of the second one's own problems
only those count that come with no streams at all. -/
def compare (seed : Nat) (first : Array Json) (v : WorkloadValidation) :
    Option (Array Json) × WorkloadValidation → WorkloadValidation
  | (none, scratch) =>
    let v := v.addProblem "second construction of the streams failed"
    { v with problems := v.problems ++ scratch.problems }
  | (some second, _) => (differenceProblem? seed first second).elim v v.addProblem

/-- Checks a workload. -/
def ofWorkload {ω : Type} (codec : PayloadCodec P) (w : Workload ω P) (seed : Nat)
    (limits : Limits) (s : ω) : Except Breakdown WorkloadValidation × ω :=
  let limits := effectiveLimits limits
  let interleave := w.maxInterleave s
  match construct codec w seed limits interleave s with
  | (.error b, s) => (.error b, s)
  | (.ok (none, v), s) => (.ok v, s)
  | (.ok (some first, v), s) =>
    let v := { v with operationsChecked := first.size }
    let (second, s) := construct codec w seed limits interleave s
    (second.map (compare seed first v), s)

/-- The findings as a text. -/
def render (v : WorkloadValidation) : String :=
  let checked := "(" ++ toString v.operationsChecked ++ " operations checked)"
  if v.isSuccessful then "workload validation passed " ++ checked
  else
    "workload validation failed " ++ checked ++ ":" ++
      String.join (v.problems.map ("\n  - " ++ ·))

/-- The value that findings are written as. -/
def toJson (v : WorkloadValidation) : Json :=
  .obj [("operations_checked", Json.nat v.operationsChecked),
    ("problems", Json.ofList .str v.problems)]

end WorkloadValidation

end WorkloadReplay
