import WorkloadReplay.Synthetic.Sequence

/-!
# The synthetic workload

A key/value workload that mixes reads, updates and scans at a steady rate. Each kind has a stream of
its own, which is its share of the synthetic sequence. Every stream goes through the whole sequence
from the seed, so that all of them agree on which update an operation waits for. Other operations
depend on updates alone.
-/

namespace WorkloadReplay

namespace SyntheticWorkload

variable {γ : Type}

/-- The share of a kind in an item of the sequence. Everybody has a share in an error. -/
def share (kind : SyntheticKind) : Except WorkloadError SyntheticOperation →
    Option (Except WorkloadError (Operation KeyValuePayload))
  | .ok s => if s.kind = kind then some (.ok s.operation) else none
  | .error e => some (.error e)

/-- The operations of a kind. -/
def operationsOf (random : RandomSource γ) (c : SyntheticConfig) (seed : Nat)
    (kind : SyntheticKind) : OperationSequence KeyValuePayload :=
  (syntheticSequence random c seed).filterMap (share kind)

/-- The stream of a kind. -/
def streamOf (random : RandomSource γ) (c : SyntheticConfig) (seed : Nat) (kind : SyntheticKind) :
    OperationStream KeyValuePayload :=
  let operations := operationsOf random c seed kind
  match kind with
  | .update => ⟨kind.operationType, operations, .nil⟩
  | _ => ⟨kind.operationType, .nil, operations⟩

/-- The streams of a configuration. -/
def streams (random : RandomSource γ) (c : SyntheticConfig) (seed : Nat) :
    List (OperationStream KeyValuePayload) :=
  [SyntheticKind.read, .update, .scan].map (streamOf random c seed)

end SyntheticWorkload

/-- The synthetic workload, whose state is its configuration. -/
def syntheticWorkload {γ : Type} (random : RandomSource γ) :
    Workload SyntheticConfig KeyValuePayload where
  fresh := {}
  init p c :=
    match SyntheticConfig.ofParams p with
    | .ok c => (.ok (), c)
    | .error e => (.error e, c)
  streams seed c := (.ok (SyntheticWorkload.streams random c seed), c)
  maxInterleave c := c.maxInterleave
  keepsForValidation _ _ := true
  cleanup c := (.ok (), c)

end WorkloadReplay
