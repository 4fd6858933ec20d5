import WorkloadReplay.Params

/-!
# Operations

An `Operation` is a unit of work scheduled for an instant. A gated operation must not start before
everything up to its dependency time has completed; an independent one may start at any time. An
operation carries a payload of some type, and a `PayloadCodec` says how payloads of that type are
written as JSON and read back.
-/

namespace WorkloadReplay

/-- Whether an operation waits for its dependency time to be reached. -/
inductive DependencyMode where
  | independent | gated
  deriving DecidableEq, Repr, Inhabited

/-- The name of a dependency mode. -/
def DependencyMode.name : DependencyMode → String
  | independent => "independent"
  | gated => "gated"

/-- Reads a dependency mode by its name. -/
def DependencyMode.ofTree? (t : Json.Tree) : Option DependencyMode :=
  t.toCase? [("independent", independent), ("gated", gated)]

/-- A unit of work scheduled for an instant. -/
structure Operation (P : Type) where
  /-- What kind of work it is, for dispatch and for grouping results. -/
  operationType : String
  scheduledStart : Instant
  /-- Everything the operation depends on completed before this instant. -/
  dependencyTime : Instant
  dependencyMode : DependencyMode
  payload : P
  deriving DecidableEq

namespace Operation

variable {P : Type}

/-- An independent operation, whose dependency time is its start. -/
def independent (operationType : String) (start : Instant) (payload : P) : Operation P :=
  ⟨operationType, start, start, .independent, payload⟩

/-- The operation gated on a dependency time. -/
def gatedOn (op : Operation P) (time : Instant) : Operation P :=
  { op with dependencyTime := time, dependencyMode := .gated }

/-- The operation with another dependency time, gated or not as before. -/
def withDependencyTime (op : Operation P) (time : Instant) : Operation P :=
  { op with dependencyTime := time }

/-- The operation with both times replaced. -/
def withTimes (op : Operation P) (start dependency : Instant) : Operation P :=
  { op with scheduledStart := start, dependencyTime := dependency }

/-- The operation waits for its dependency time. -/
def isGated (op : Operation P) : Bool := op.dependencyMode == .gated

/-- The dependency time is not after the start. -/
def hasValidDependency (op : Operation P) : Bool := op.dependencyTime ≤ op.scheduledStart

end Operation

/-- How payloads are written as JSON and read back. -/
structure PayloadCodec (P : Type) where
  /-- The value of a payload, or why it has none. -/
  encode : P → Except String Json
  /-- The payload of a value, or why it is none. -/
  decode : Json → Except String P
  /-- The payload that a text holds, taken apart, in which lists and records may nest to the given
  depth. -/
  read : Nat → Json.Tree → Option P

namespace Operation

variable {P : Type}

/-- The names of the fields of an operation, in order. -/
def fieldNames : List String :=
  ["operation_type", "scheduled_start", "dependency_time", "dependency_mode", "payload"]

/-- The value an operation is written as. -/
def toJson (codec : PayloadCodec P) (op : Operation P) : Except String Json :=
  (codec.encode op.payload).map fun payload =>
    .obj [("operation_type", .str op.operationType),
      ("scheduled_start", op.scheduledStart.toJson),
      ("dependency_time", op.dependencyTime.toJson),
      ("dependency_mode", .str op.dependencyMode.name),
      ("payload", payload)]

/-- The operation whose value is `v`, which must be as `toJson` makes it up to the order of its
fields. -/
def ofJson (codec : PayloadCodec P) (v : Json) : Except String (Operation P) :=
  match v.field? "operation_type", v.field? "scheduled_start", v.field? "dependency_time",
      v.field? "dependency_mode", v.field? "payload" with
  | some (.str operationType), some (.int start), some (.int dependency), some (.str mode),
      some payload =>
    (codec.decode payload).map fun p =>
      ⟨operationType, Instant.saturating start, Instant.saturating dependency,
        if mode = DependencyMode.gated.name then .gated else .independent, p⟩
  | _, _, _, _, _ => .error "not an operation"

/-- Reads an operation. Its mode may be absent, which makes it independent. -/
def ofTree? (codec : PayloadCodec P) (t : Json.Tree) : Option (Operation P) := do
  let [operationType, start, dependency, mode, payload] ← t.fields? fieldNames | none
  some
    { operationType := ← Json.Tree.required? Json.Tree.toText? operationType
      scheduledStart := ← Json.Tree.required? Json.Tree.toInstant? start
      dependencyTime := ← Json.Tree.required? Json.Tree.toInstant? dependency
      dependencyMode := ← Json.Tree.default? .independent DependencyMode.ofTree? mode
      payload := ← Json.Tree.required? (codec.read (Json.nestingLimit - 1)) payload }

/-- Reads an operation from a text. -/
def ofText? (codec : PayloadCodec P) (s : String) : Option (Operation P) :=
  (Json.Tree.ofText? s).bind (ofTree? codec)

end Operation

namespace PayloadCodec

/-- Payloads that are free JSON values. -/
def free : PayloadCodec Json where
  encode := .ok
  decode := .ok
  read := Json.Tree.toJson?

end PayloadCodec

end WorkloadReplay
