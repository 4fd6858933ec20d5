import WorkloadReplay.Client.Error
import WorkloadReplay.Stream.Merge
import WorkloadReplay.Json.Printer
import WorkloadReplay.Text.Delimited

/-!
# Validation parameters

Operations with the results that a reference database gave for them. A file of validation parameters
has a record of two fields for each, the operation and the result, both as JSON. `ParamsFile.text`
writes such a file and `ParamsFile.read` reads it; `ParamsFile.record` makes one by executing the
operations of a workload.
-/

namespace WorkloadReplay

/-- An operation and the result that a database is to give for it. -/
structure ValidationParam (P : Type) where
  operation : Operation P
  expected : Json

/-- The text of a file of validation parameters that is being written. -/
structure ParamsFile where
  text : String
  /-- The records written. -/
  written : Nat

namespace ParamsFile

variable {P : Type}

/-- A file with no records. -/
def empty : ParamsFile := ⟨"", 0⟩

/-- The record of a parameter. -/
def recordText (codec : PayloadCodec P) (param : ValidationParam P) : Except String String :=
  (param.operation.toJson codec).map fun operation =>
    Delimited.recordText [operation.compact, param.expected.sorted.compact]

/-- The file with one more parameter. -/
def write (codec : PayloadCodec P) (file : ParamsFile) (param : ValidationParam P) :
    Except String ParamsFile :=
  (recordText codec param).map fun line => ⟨file.text ++ line, file.written + 1⟩

/-- The file of some parameters. -/
def ofParams (codec : PayloadCodec P) (params : List (ValidationParam P)) :
    Except String ParamsFile :=
  params.foldlM (fun file param => file.write codec param) empty

/-! ## Reading -/

/-- The parameter that a record holds; `line` is its number. -/
def readRecord (codec : PayloadCodec P) (path : String) (line : Nat) :
    List String → Except ClientError (ValidationParam P)
  | [operation, expected] =>
    match Operation.ofText? codec operation, Json.ofText? expected with
    | some operation, some expected => .ok ⟨operation, expected⟩
    | _, _ => .error (.json "malformed validation parameter")
  | fields =>
    .error (.validation (path ++ " line " ++ toString line ++ ": expected 2 columns, found " ++
      toString fields.length))

/-- The parameters of records that all have as many fields as the first one. -/
def readRecords (codec : PayloadCodec P) (path : String) (width : Nat) :
    Nat → List (List String) → Except ClientError (List (ValidationParam P))
  | _, [] => .ok []
  | line, fields :: rest =>
    if fields.length ≠ width then
      .error (.records ("found record with " ++ toString fields.length ++
        " fields, but the previous record has " ++ toString width ++ " fields"))
    else
      match readRecord codec path line fields with
      | .error e => .error e
      | .ok param => (readRecords codec path width (line + 1) rest).map (param :: ·)

/-- The parameters that a text holds. -/
def read (codec : PayloadCodec P) (path text : String) :
    Except ClientError (List (ValidationParam P)) :=
  let records := Delimited.records text
  readRecords codec path (records.head?.elim 0 List.length) 1 records

/-! ## Recording -/

/-- How far the recording of a file has come, and the state of the database. -/
structure Recording (σ : Type) where
  file : ParamsFile
  database : σ

/-- Executes the operations of a sequence that are kept, one after another, and records each with
its result, until there are `size` records. The file answers with `write` when its text grows. -/
def recordSchedule {σ : Type} (codec : PayloadCodec P) (db : Database σ P)
    (write : (before after : String) → Except String Unit) (keeps : Operation P → Bool)
    (size : Nat) :
    Recording σ → Schedule P → Except Breakdown (Except ClientError Unit) × Recording σ
  | r, .nil => (.ok (.ok ()), r)
  | r, .cons (.error (.panicked text)) _ => (.error (.panicked text), r)
  | r, .cons (.error e) _ =>
    if size ≤ r.file.written then (.ok (.ok ()), r) else (.ok (.error (.replay e)), r)
  | r, .cons (.ok s) rest =>
    if size ≤ r.file.written then (.ok (.ok ()), r)
    else if keeps s.operation then
      let (outcome, database) := db.execute s.operation r.database
      let r := { r with database := database }
      match outcome.answer with
      | .error b => (.error b, r)
      | .ok (.error e) => (.ok (.error (.database e)), r)
      | .ok (.ok result) =>
        match r.file.write codec ⟨s.operation, result⟩ with
        | .error text => (.ok (.error (.json text)), r)
        | .ok file =>
          match write r.file.text file.text with
          | .error text => (.ok (.error (.records text)), r)
          | .ok () => recordSchedule codec db write keeps size { r with file := file } (rest ())
    else recordSchedule codec db write keeps size r (rest ())

/-- Records the operations of a workload with the results of a database, in a file that may not take
up all of them. -/
def record {σ ω : Type} (codec : PayloadCodec P) (db : Database σ P) (w : Workload ω P)
    (seed size : Nat) (database : σ) (workload : ω)
    (write : (before after : String) → Except String Unit := fun _ _ => .ok ()) :
    Except Breakdown (Except ClientError Unit) × Recording σ × ω :=
  let r : Recording σ := ⟨empty, database⟩
  match w.streams seed workload with
  | (.error (.panicked text), workload) => (.error (.panicked text), r, workload)
  | (.error e, workload) => (.ok (.error (.workload e)), r, workload)
  | (.ok streams, workload) =>
    let (answer, r) :=
      recordSchedule codec db write (w.keepsForValidation workload) size r (merge streams)
    (answer, r, workload)

end ParamsFile

end WorkloadReplay
