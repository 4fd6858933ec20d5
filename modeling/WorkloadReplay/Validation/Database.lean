import WorkloadReplay.Validation.Params
import WorkloadReplay.Text.Table

/-!
# Validation of a database

A database is given the operations of validation parameters again, one after another, and its
results are compared with the recorded ones.
-/

namespace WorkloadReplay

/-- An operation with another result than the recorded one. -/
structure ValidationFailure where
  operationType : String
  scheduledStart : Instant
  expected : String
  actual : String

/-- What a validation has found. -/
structure DatabaseValidation where
  passed : Nat := 0
  failures : List ValidationFailure := []

namespace DatabaseValidation

/-- The number of operations. -/
def total (v : DatabaseValidation) : Nat := v.passed + v.failures.length

/-- Every result is the recorded one. -/
def isSuccessful (v : DatabaseValidation) : Bool := v.failures.isEmpty

/-- What a database answers as a text. -/
def describe : Except DatabaseError Json → String
  | .ok result => result.sorted.compact
  | .error e => "error: " ++ e.message

/-- The answer is the recorded result. -/
def agrees (expected : Json) : Except DatabaseError Json → Bool
  | .ok result => result.sorted.same expected.sorted
  | .error _ => false

/-- The findings with those of one more operation. -/
def add {P : Type} (v : DatabaseValidation) (param : ValidationParam P)
    (answer : Except DatabaseError Json) : DatabaseValidation :=
  if agrees param.expected answer then { v with passed := v.passed + 1 }
  else
    { v with failures := v.failures ++
      [⟨param.operation.operationType, param.operation.scheduledStart,
        describe (.ok param.expected), describe answer⟩] }

/-- Executes the operations of parameters and compares their results. -/
def ofParams {σ P : Type} (db : Database σ P) :
    DatabaseValidation → List (ValidationParam P) → σ → Except Breakdown DatabaseValidation × σ
  | v, [], s => (.ok v, s)
  | v, param :: params, s =>
    let (outcome, s) := db.execute param.operation s
    match outcome.answer with
    | .error b => (.error b, s)
    | .ok answer => ofParams db (v.add param answer) params s

/-- The findings as a text, with a table of failures. -/
def render (v : DatabaseValidation) : String :=
  let header := "database validation: " ++ toString v.passed ++ " of " ++ toString v.total ++
    " passed"
  if v.isSuccessful then header
  else
    header ++ "\n" ++ Text.table ["Operation", "Scheduled", "Expected", "Actual"]
      (v.failures.map fun f => [f.operationType, f.scheduledStart.toText, f.expected, f.actual])

/-- The value that findings are written as. -/
def toJson (v : DatabaseValidation) : Json :=
  .obj [("passed", Json.nat v.passed),
    ("failures", Json.ofList (fun f : ValidationFailure =>
      .obj [("operation_type", .str f.operationType), ("scheduled_start", f.scheduledStart.toJson),
        ("expected", .str f.expected), ("actual", .str f.actual)]) v.failures)]

end DatabaseValidation

end WorkloadReplay
