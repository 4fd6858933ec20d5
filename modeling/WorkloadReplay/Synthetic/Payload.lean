import WorkloadReplay.Operation
import WorkloadReplay.Text.Quoted

/-!
# Payloads of key/value operations

The arguments of the three operations of a key/value store: reading a key, updating it, and scanning
a range of keys. A payload is written as a record whose field `kind` tells the operation.
-/

namespace WorkloadReplay

/-- The arguments of a key/value operation. Keys have 64 bits and limits 32. -/
inductive KeyValuePayload where
  | read (key : Nat)
  | update (key : Nat) (value : String)
  | scan (startKey : Nat) (limit : Nat)
  deriving DecidableEq, Repr

namespace KeyValuePayload

/-- The operation type of a payload, which is also its kind as it is written. -/
def operationType : KeyValuePayload → String
  | read _ => "read"
  | update .. => "update"
  | scan .. => "scan"

/-- A payload as shown in messages. -/
def describe : KeyValuePayload → String
  | read key => "Read \x7b key: " ++ toString key ++ " \x7d"
  | update key value =>
    "Update \x7b key: " ++ toString key ++ ", value: " ++ Text.quote value ++ " \x7d"
  | scan startKey limit =>
    "Scan \x7b start_key: " ++ toString startKey ++ ", limit: " ++ toString limit ++ " \x7d"

/-- The value a payload is written as. -/
def toJson : KeyValuePayload → Json
  | read key => .obj [("kind", .str "read"), ("key", Json.nat key)]
  | update key value =>
    .obj [("kind", .str "update"), ("key", Json.nat key), ("value", .str value)]
  | scan startKey limit =>
    .obj [("kind", .str "scan"), ("start_key", Json.nat startKey), ("limit", Json.nat limit)]

/-- The payload whose value is `v`. -/
def ofJson (v : Json) : Except String KeyValuePayload :=
  match v.field? "kind", v.field? "key", v.field? "value", v.field? "start_key",
      v.field? "limit" with
  | some (.str "read"), some (.int key), _, _, _ => .ok (read key.toNat)
  | some (.str "update"), some (.int key), some (.str value), _, _ =>
    .ok (update key.toNat value)
  | some (.str "scan"), _, _, some (.int startKey), some (.int limit) =>
    .ok (scan startKey.toNat limit.toNat)
  | _, _, _, _, _ => .error "not a payload"

/-- Reads the arguments of a kind. -/
def ofArguments? (kind : String) (t : Json.Tree) : Option KeyValuePayload :=
  if kind = "read" then do
    let [key] ← t.fields? ["key"] | none
    some (read (← Json.Tree.required? Json.Tree.toWord? key))
  else if kind = "update" then do
    let [key, value] ← t.fields? ["key", "value"] | none
    some (update (← Json.Tree.required? Json.Tree.toWord? key)
      (← Json.Tree.required? Json.Tree.toText? value))
  else if kind = "scan" then do
    let [startKey, limit] ← t.fields? ["start_key", "limit"] | none
    some (scan (← Json.Tree.required? Json.Tree.toWord? startKey)
      (← Json.Tree.required? Json.Tree.toHalfWord? limit))
  else none

/-- Reads a payload that may nest to `depth`: a record with one kind, or a list that begins with it.
All other fields must be well-formed values, also those that are passed over. -/
def ofTree? (depth : Nat) : Json.Tree → Option KeyValuePayload
  | .record fields =>
    let arguments := fields.filter (·.1 ≠ "kind")
    match fields.filter (·.1 = "kind") with
    | [(_, .text (some kind))] =>
      if (Json.Tree.toJson? depth (.record arguments)).isSome then
        ofArguments? kind (.record arguments)
      else none
    | _ => none
  | .list (.text (some kind) :: arguments) =>
    if (Json.Tree.toJson? depth (.list arguments)).isSome then ofArguments? kind (.list arguments)
    else none
  | _ => none

/-- How payloads are written and read. -/
def codec : PayloadCodec KeyValuePayload where
  encode p := .ok p.toJson
  decode := ofJson
  read := ofTree?

end KeyValuePayload

end WorkloadReplay
