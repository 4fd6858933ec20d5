import WorkloadReplay.KeyValueStore
import WorkloadReplay.Registry
import WorkloadReplay.Synthetic.Workload

/-!
# What is built in

The databases and the workload that can be named without registering them: the key/value store, a
database that does nothing, and the synthetic workload.
-/

namespace WorkloadReplay

/-- A database that accepts every operation and does nothing, with a pause for each call that is
given in microseconds. -/
def Database.idle (P : Type) : Database Nat P where
  fresh := 0
  init p micros :=
    match p.parseOr Text.readWord "latency_us" micros with
    | .ok micros => (.ok (), micros)
    | .error e => (.error (.ofParam e), micros)
  execute _ micros := (.returned (.ok .null), micros)
  pause micros := Duration.ofUnits .micro micros
  shutdown micros := (.ok (), micros)

namespace Builtin

/-- The states of the databases: those of the store, and the pause of the idle one. -/
structure DatabaseState where
  store : KeyValueStore
  micros : Nat

/-- The state before initialization. -/
def DatabaseState.fresh : DatabaseState := ⟨KeyValueStore.empty, 0⟩

/-- What is registered. -/
def registry : Registry DatabaseState SyntheticConfig KeyValuePayload where
  databases :=
    (Named.empty.register "memory" (KeyValueStore.database.within DatabaseState.fresh
        DatabaseState.store fun s store => { s with store := store })).register
      "noop" ((Database.idle KeyValuePayload).within DatabaseState.fresh
        DatabaseState.micros fun s micros => { s with micros := micros })
  workloads := Named.empty.register "synthetic" (syntheticWorkload RandomSource.standard)

end Builtin

end WorkloadReplay
