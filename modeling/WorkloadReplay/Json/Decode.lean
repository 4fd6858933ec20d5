import WorkloadReplay.Json.Reader
import WorkloadReplay.Time.Instant

/-!
# Decoding records

Readers of typed values from a JSON tree. A record is given by the names of its fields in order and
is accepted in two forms: as an object, in which a field may come once and unknown fields are
passed over, or as a list of exactly its fields in order. A choice is the name of one of its cases,
alone or as the only key of an object that holds `null`.
-/

namespace WorkloadReplay

namespace Json

namespace Tree

/-- A whole number of an interval. -/
def toIntIn? (lo hi : Int) : Tree → Option Int
  | .number n =>
    match n.toJson? with
    | some (.int k) => if lo ≤ k ∧ k ≤ hi then some k else none
    | _ => none
  | _ => none

/-- A whole number of 64 bits. -/
def toWord? (t : Tree) : Option Nat := (t.toIntIn? 0 maxSignificand).map Int.toNat

/-- A whole number of 32 bits. -/
def toHalfWord? (t : Tree) : Option Nat := (t.toIntIn? 0 0xffffffff).map Int.toNat

/-- An instant. -/
def toInstant? (t : Tree) : Option Instant :=
  (t.toIntIn? leastNanos greatestNanos).bind Instant.ofNanos?

/-- A duration. -/
def toDuration? (t : Tree) : Option Duration :=
  (t.toIntIn? leastNanos greatestNanos).bind Duration.ofNanos?

/-- A double, which may be written as a whole number. -/
def toDouble? : Tree → Option Binary64
  | .number n =>
    match n.toJson? with
    | some (.int k) => some (Binary64.ofInt k)
    | some (.double x) => some x
    | _ => none
  | _ => none

/-- A string. -/
def toText? : Tree → Option String
  | .text s => s
  | _ => none

/-- A truth value. -/
def toBool? : Tree → Option Bool
  | .bool b => some b
  | _ => none

/-- A value that may be `null`. -/
def toOption? {α : Type} (read : Tree → Option α) : Tree → Option (Option α)
  | .null => some none
  | t => (read t).map some

/-- A list of values. -/
def toList? {α : Type} (read : Tree → Option α) : Tree → Option (List α)
  | .list items => items.mapM read
  | _ => none

/-- One of some named cases. -/
def toCase? {α : Type} (cases : List (String × α)) (t : Tree) : Option α :=
  let named (s : String) : Option α := (cases.find? (·.1 = s)).map (·.2)
  match t with
  | .text (some s) => named s
  | .record [(s, .null)] => named s
  | _ => none

/-- The fields of a record, in the order of their names. -/
def fields? (names : List String) : Tree → Option (List (Option Tree))
  | .record fields =>
    let once := names.all fun name => (fields.filter (·.1 = name)).length ≤ 1
    if once then some (names.map fun name => (fields.find? (·.1 = name)).map (·.2)) else none
  | .list items => if items.length = names.length then some (items.map some) else none
  | _ => none

/-- A field that must be there. -/
def required? {α : Type} (read : Tree → Option α) : Option Tree → Option α
  | some t => read t
  | none => none

/-- A field that may be absent or `null`. -/
def optional? {α : Type} (read : Tree → Option α) : Option Tree → Option (Option α)
  | some t => t.toOption? read
  | none => some none

/-- A field that has a default. -/
def default? {α : Type} (absent : α) (read : Tree → Option α) : Option Tree → Option α
  | some t => read t
  | none => some absent

end Tree

end Json

/-- The value that an instant is written as. -/
def Instant.toJson (t : Instant) : Json := .int t.nanos

/-- The value that a duration is written as. -/
def Duration.toJson (d : Duration) : Json := .int d.nanos

/-- The value that a unit is written as. -/
def TimeUnit.toJson (u : TimeUnit) : Json := .str u.name

/-- Reads a unit by its name. -/
def TimeUnit.ofTree? (t : Json.Tree) : Option TimeUnit :=
  t.toCase? (TimeUnit.all.map fun u => (u.name, u))

end WorkloadReplay
