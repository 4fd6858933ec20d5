import WorkloadReplay.Operation

/-!
# Databases

The interface of a database that a workload is replayed against, as functions over a state of its
own. A call may return a result or an error, and it may also fail to return: by breaking down, or
by never coming back. A `HandlerTable` routes operations to the handler of their type.
-/

namespace WorkloadReplay

/-- Why a database refuses. -/
inductive DatabaseError where
  | init (reason : String)
  | execution (operationType reason : String)
  | unsupported (operationType : String)
  | shutdown (reason : String)
  deriving DecidableEq, Repr

/-- The wording of a database error. -/
def DatabaseError.message : DatabaseError → String
  | init reason => "Initialization failed: " ++ reason
  | execution operationType reason => "Execution of " ++ operationType ++ " failed: " ++ reason
  | unsupported operationType => "No handler registered for operation type " ++ operationType
  | shutdown reason => "Shutdown failed: " ++ reason

/-- A parameter that a database cannot read fails its initialization. -/
def DatabaseError.ofParam (e : ParamError) : DatabaseError := .init e.message

/-- How a call of a database ends. -/
inductive CallOutcome where
  /-- With a result or an error. -/
  | returned (answer : Except DatabaseError Json)
  /-- By breaking down, with a text. -/
  | panicked (text : String)
  /-- Never. -/
  | stuck

/-- Why something does not come back, not even with an error. -/
inductive Breakdown where
  | panicked (text : String)
  /-- It never ends. -/
  | stuck
  deriving DecidableEq, Repr

/-- The answer of a call, or why there is none. -/
def CallOutcome.answer : CallOutcome → Except Breakdown (Except DatabaseError Json)
  | returned a => .ok a
  | panicked text => .error (.panicked text)
  | stuck => .error .stuck

/-- A database with states of type `σ` for operations with payloads of type `P`. -/
structure Database (σ P : Type) where
  /-- The state before initialization. -/
  fresh : σ
  /-- Called once, before any operation. -/
  init : Params → σ → Except DatabaseError Unit × σ
  /-- Executes an operation. -/
  execute : Operation P → σ → CallOutcome × σ
  /-- How long a call takes at least. -/
  pause : σ → Duration
  /-- Called once, after the last operation. -/
  shutdown : σ → Except DatabaseError Unit × σ

/-- A database that keeps its state in a part of a larger one. -/
def Database.within {σ τ P : Type} (db : Database σ P) (fresh : τ) (part : τ → σ)
    (update : τ → σ → τ) : Database τ P where
  fresh := update fresh db.fresh
  init p t := let (answer, s) := db.init p (part t); (answer, update t s)
  execute op t := let (outcome, s) := db.execute op (part t); (outcome, update t s)
  pause t := db.pause (part t)
  shutdown t := let (answer, s) := db.shutdown (part t); (answer, update t s)

/-- Handlers by operation type. A type has at most one handler. -/
structure HandlerTable (H : Type) where
  entries : List (String × H)

namespace HandlerTable

variable {H : Type}

/-- No handlers. -/
def empty : HandlerTable H := ⟨[]⟩

/-- Registers the handler of a type, in place of one that is there. -/
def register (t : HandlerTable H) (operationType : String) (handler : H) : HandlerTable H :=
  ⟨(operationType, handler) :: t.entries.filter (·.1 ≠ operationType)⟩

/-- The handler of a type. -/
def find? (t : HandlerTable H) (operationType : String) : Except DatabaseError H :=
  match t.entries.find? (·.1 = operationType) with
  | some (_, h) => .ok h
  | none => .error (.unsupported operationType)

/-- The registered types, in order. -/
def types (t : HandlerTable H) : List String :=
  (t.entries.map (·.1)).mergeSort fun a b => decide (a ≤ b)

/-- The table as shown in messages. -/
def describe (t : HandlerTable H) : String :=
  "HandlerTable \x7b operation_types: [" ++
    String.intercalate ", " (t.types.map Text.quote) ++ "] \x7d"

end HandlerTable

end WorkloadReplay
