import Std.Data.TreeMap
import WorkloadReplay.Database
import WorkloadReplay.Synthetic.Payload

/-!
# The key/value store

A store keeps a text under each of some keys. `KeyValueStore.database` executes key/value operations
against a store: a read answers the value of a key, an update sets it, and a scan answers a range of
keys with their values in order.
-/

namespace WorkloadReplay

/-- Texts under keys of 64 bits. -/
structure KeyValueStore where
  values : Std.TreeMap Nat String

namespace KeyValueStore

/-- A store with no keys. -/
def empty : KeyValueStore := ⟨∅⟩

/-- The value of a key. -/
def get? (s : KeyValueStore) (key : Nat) : Option String := s.values[key]?

/-- Sets the value of a key. -/
def insert (s : KeyValueStore) (key : Nat) (value : String) : KeyValueStore :=
  ⟨s.values.insert key value⟩

/-- The number of keys. -/
def size (s : KeyValueStore) : Nat := s.values.size

/-- The keys with their values, in order. -/
def toList (s : KeyValueStore) : List (Nat × String) := s.values.toList

/-- The value under which a key is loaded. -/
def initialValue (key : Nat) : String := "initial-" ++ toString key

/-- A store with the keys below a number, each with its initial value. -/
def loaded (n : Nat) : KeyValueStore :=
  (List.range n).foldl (fun s key => s.insert key (initialValue key)) empty

/-- The greatest key. -/
def maxKey : Nat := 0xffffffffffffffff

/-- The keys of a range with their values, in order. No range reaches beyond the greatest key, which
is not in any. -/
def scan (s : KeyValueStore) (start limit : Nat) : List (Nat × String) :=
  s.toList.filter fun (key, _) => start ≤ key && key < min (start + limit) maxKey

/-- A key and its value as they are answered. -/
def row (key : Nat) (value : Json) : Json := .obj [("key", Json.nat key), ("value", value)]

/-- The handler of an operation type, and the store after it; `none` if the arguments are not for
the type. -/
abbrev Handler := KeyValuePayload → KeyValueStore → Option (Json × KeyValueStore)

/-- Answers the value of a key. -/
def handleRead : Handler
  | .read key, s => some (row key (Json.ofOption .str (s.get? key)), s)
  | _, _ => none

/-- Sets the value of a key and answers whether the key is new. -/
def handleUpdate : Handler
  | .update key value, s =>
    some (.obj [("created", .bool (s.get? key).isNone), ("key", Json.nat key)], s.insert key value)
  | _, _ => none

/-- Answers a range. -/
def handleScan : Handler
  | .scan start limit, s =>
    some (.obj [("rows", Json.ofList (fun (k, v) => row k (.str v)) (s.scan start limit)),
      ("start_key", Json.nat start)], s)
  | _, _ => none

/-- The handlers of the store. -/
def handlers : HandlerTable Handler :=
  ((HandlerTable.empty.register "read" handleRead).register "update" handleUpdate).register
    "scan" handleScan

/-- Executes an operation. -/
def execute (op : Operation KeyValuePayload) (s : KeyValueStore) :
    Except DatabaseError Json × KeyValueStore :=
  match handlers.find? op.operationType with
  | .error e => (.error e, s)
  | .ok handler =>
    match handler op.payload s with
    | some (answer, s) => (.ok answer, s)
    | none =>
      (.error (.execution op.operationType ("unexpected payload " ++ op.payload.describe)), s)

/-- Loads as many keys as the parameters say. -/
def load (p : Params) (s : KeyValueStore) : Except DatabaseError Unit × KeyValueStore :=
  match p.parseOr Text.readWord "record_count" 1000 with
  | .ok count => (.ok (), loaded count)
  | .error e => (.error (.ofParam e), s)

/-- The store as a database. -/
def database : Database KeyValueStore KeyValuePayload where
  fresh := empty
  init := load
  execute op s := let (answer, s) := execute op s; (.returned answer, s)
  pause _ := Duration.zero
  shutdown s := (.ok (), s)

end KeyValueStore

end WorkloadReplay
