import WorkloadReplay.Workload

/-!
# Scripted workloads

A workload whose streams are given in advance, one list of them for each time they are built. With
scripts a run can be rehearsed against every kind of stream, and against a workload that does not
build the same streams twice.
-/

namespace WorkloadReplay

/-- The part of a workload. -/
structure WorkloadScript (P : Type) where
  /-- What each construction gives; the last one is repeated. Without any there are no streams. -/
  builds : List (Except WorkloadError (List (OperationStream P)))
  /-- A parameter that has to be a number, if it is there. -/
  numberParam : Option String
  initError : Option WorkloadError
  cleanupError : Option WorkloadError
  maxInterleave : Duration
  /-- The operation types kept for validation, if not all. -/
  keptTypes : Option (List String)

namespace WorkloadScript

variable {P : Type}

/-- What the construction after `n` others gives. -/
def build (script : WorkloadScript P) (n : Nat) :
    Except WorkloadError (List (OperationStream P)) :=
  match script.builds[n]? with
  | some b => b
  | none => script.builds.getLast?.getD (.ok [])

/-- Fails with an error, if there is one. -/
def check : Option WorkloadError → Except WorkloadError Unit
  | some e => .error e
  | none => .ok ()

/-- Initialization reads the number first and then fails if it has to. -/
def begin (script : WorkloadScript P) (params : Params) : Except WorkloadError Unit :=
  match script.numberParam.map (params.parse Text.readSigned) with
  | some (.error e) => .error (.ofParam e)
  | _ => check script.initError

/-- The workload that plays a script. Its state is the number of constructions so far. -/
def workload (script : WorkloadScript P) : Workload Nat P where
  fresh := 0
  init params n := (script.begin params, n)
  streams _ n := (script.build n, n + 1)
  maxInterleave _ := script.maxInterleave
  keepsForValidation _ op := (script.keptTypes.getD [op.operationType]).contains op.operationType
  cleanup n := (check script.cleanupError, n)

end WorkloadScript

end WorkloadReplay
