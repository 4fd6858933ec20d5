import WorkloadReplay.ReplayError
import WorkloadReplay.Run.Config

/-!
# Flow control

Two pools of permits bound a run: one the operations that are alive at once, the other those that
the database executes at once. A permit is taken from a pool and given back later. A closed pool
gives out no permits.
-/

namespace WorkloadReplay

/-- Permits that are free. -/
structure PermitPool where
  free : Nat
  closed : Bool
  deriving DecidableEq

/-- What becomes of a request for a permit. -/
inductive PermitRequest where
  | acquired (pool : PermitPool)
  /-- No permit is free; the request waits. -/
  | pending
  /-- The pool is closed. -/
  | refused
  deriving DecidableEq

namespace PermitPool

/-- The most permits that a pool can have. -/
def maxPermits : Nat := 0x1fffffffffffffff

/-- A pool of some permits, of one at least; one asked for too many breaks down with a text. -/
def ofCount (count : Nat) : Except String PermitPool :=
  if maxPermits < count then
    .error ("a semaphore may not have more than MAX_PERMITS permits ("
      ++ toString maxPermits ++ ")")
  else .ok ⟨max count 1, false⟩

/-- Asks for a permit. -/
def request (p : PermitPool) : PermitRequest :=
  if p.closed then .refused
  else
    match p.free with
    | 0 => .pending
    | n + 1 => .acquired { p with free := n }

/-- Gives a permit back. -/
def release (p : PermitPool) : PermitPool := { p with free := p.free + 1 }

/-- Gives some permits back at once. -/
def releaseAll (p : PermitPool) (count : Nat) : PermitPool := { p with free := p.free + count }

/-- Closes a pool. -/
def close (p : PermitPool) : PermitPool := { p with closed := true }

end PermitPool

/-- The two pools of a run. -/
structure FlowControl where
  inFlight : PermitPool
  workers : PermitPool
  deriving DecidableEq

namespace FlowControl

/-- Pools for so many operations alive and so many executed at once. -/
def ofCounts (inFlight workers : Nat) : Except String FlowControl := do
  return ⟨← PermitPool.ofCount inFlight, ← PermitPool.ofCount workers⟩

/-- The refusal of a permit to be alive. -/
def inFlightClosed : ReplayError := .serviceClosed "in-flight flow controller"

/-- The refusal of a permit to be executed. -/
def workersClosed : ReplayError := .serviceClosed "worker pool"

/-- Closes both pools. -/
def close (f : FlowControl) : FlowControl := ⟨f.inFlight.close, f.workers.close⟩

/-- The operation that held a permit to be alive is gone. -/
def releaseInFlight (f : FlowControl) : FlowControl := { f with inFlight := f.inFlight.release }

/-- The operation that held a permit to be executed is done with the database. -/
def releaseWorker (f : FlowControl) : FlowControl := { f with workers := f.workers.release }

/-- So many operations that held permits to be alive are gone at once, and so many of them held
permits to be executed. -/
def releaseAll (f : FlowControl) (alive executing : Nat) : FlowControl :=
  ⟨f.inFlight.releaseAll alive, f.workers.releaseAll executing⟩

end FlowControl

/-- The pools that a configuration asks for. -/
def RunnerConfig.flowControl (c : RunnerConfig) : Except String FlowControl :=
  FlowControl.ofCounts c.maxInFlight c.threadCount

end WorkloadReplay
