import WorkloadReplay.Operation
import WorkloadReplay.LazyList

/-!
# Workloads

The interface of a workload: what it is given when it starts, the operation streams it builds from
a seed, and what else is asked of it. A stream holds the operations of one type in two sequences,
those on whose completion other operations depend and all others. A sequence may hold errors in
place of operations.
-/

namespace WorkloadReplay

/-- Why a workload fails. -/
inductive WorkloadError where
  | invalidParameter (name reason : String)
  | init (reason : String)
  | stream (reason : String)
  | cleanup (reason : String)
  /-- The workload breaks down, with a text; nobody makes up for that. -/
  | panicked (text : String)
  deriving DecidableEq, Repr

/-- The wording of a workload error. -/
def WorkloadError.message : WorkloadError → String
  | invalidParameter name reason => "Invalid parameter " ++ name ++ ": " ++ reason
  | init reason => "Initialization failed: " ++ reason
  | stream reason => "Stream generation failed: " ++ reason
  | cleanup reason => "Cleanup failed: " ++ reason
  | panicked text => text

/-- A parameter that a workload cannot read is an invalid parameter. -/
def WorkloadError.ofParam (e : ParamError) : WorkloadError := .invalidParameter e.name e.reason

/-- A finite sequence of operations, computed on demand, with errors in place. -/
abbrev OperationSequence (P : Type) := LazyList (Except WorkloadError (Operation P))

/-- The operations of one type. Each of the two sequences is to be in order of start. -/
structure OperationStream (P : Type) where
  operationType : String
  /-- Operations on whose completion others depend. -/
  dependencies : OperationSequence P
  /-- All other operations. -/
  others : OperationSequence P

/-- A stream as shown in messages. -/
def OperationStream.describe {P : Type} (s : OperationStream P) : String :=
  "WorkloadStream \x7b operation_type: OperationType(" ++ Text.quote s.operationType ++ "), .. \x7d"

/-- A workload with states of type `σ` whose operations have payloads of type `P`. -/
structure Workload (σ P : Type) where
  /-- The state before initialization. -/
  fresh : σ
  /-- Called once, before streams are built. -/
  init : Params → σ → Except WorkloadError Unit × σ
  /-- Builds the streams; the same seed is to give the same operations. -/
  streams : Nat → σ → Except WorkloadError (List (OperationStream P)) × σ
  /-- How far apart an operation and what it is gated on may be scheduled. -/
  maxInterleave : σ → Duration
  /-- Whether an operation is kept when validation parameters are recorded. -/
  keepsForValidation : σ → Operation P → Bool
  /-- Called once, at the end. -/
  cleanup : σ → Except WorkloadError Unit × σ

end WorkloadReplay
