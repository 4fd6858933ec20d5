import WorkloadReplay.Synthetic.Config
import WorkloadReplay.Synthetic.Payload

/-!
# The synthetic sequence

The operations of the synthetic workload, one after another, drawn from a source of randomness. An
operation follows the one before it after the interval and a drawn part of the jitter; then its key
and its kind are drawn, and for an update its value. A read or scan waits for the latest update
before it unless that is further away than the maximum interleave. The sequence ends early, with one
error, where no instant is late enough for the next operation or a draw breaks down.
-/

namespace WorkloadReplay

/-- The kinds of operations. -/
inductive SyntheticKind where
  | read | update | scan
  deriving DecidableEq, Repr

namespace SyntheticKind

/-- The operation type of a kind. -/
def operationType : SyntheticKind → String
  | read => "read"
  | update => "update"
  | scan => "scan"

/-- The kind at a place among the proportions. -/
def ofPlace : Nat → SyntheticKind
  | 0 => read
  | 1 => update
  | _ => scan

end SyntheticKind

/-- An operation of the synthetic workload and its kind. -/
structure SyntheticOperation where
  kind : SyntheticKind
  operation : Operation KeyValuePayload

/-- Where the drawing of a sequence stands. -/
structure SyntheticState (γ : Type) where
  source : γ
  /-- The start of the latest operation. -/
  time : Instant
  /-- The start of the latest update. -/
  lastUpdate : Option Instant

namespace SyntheticState

variable {γ : Type}

/-- The state before the first operation. -/
def ofSeed (random : RandomSource γ) (seed : Nat) : SyntheticState γ :=
  ⟨random.ofSeed seed, Instant.epoch, none⟩

/-- The arguments of an operation of a kind. -/
def drawPayload (random : RandomSource γ) (c : SyntheticConfig) (key : Nat) (g : γ) :
    SyntheticKind → Except String (KeyValuePayload × γ)
  | .read => .ok (.read key, g)
  | .update =>
    (random.printableText c.valueLength g).map fun (cs, g) => (.update key (String.ofList cs), g)
  | .scan => .ok (.scan key c.scanLength, g)

/-- An operation waits for the latest update if that is near enough. -/
def gated (c : SyntheticConfig) (lastUpdate : Option Instant) (op : Operation KeyValuePayload) :
    Operation KeyValuePayload :=
  match lastUpdate with
  | some update =>
    if (op.scheduledStart.since? update).any (· ≤ c.maxInterleave) then op.gatedOn update else op
  | none => op

/-- Draws the operation that starts at a time. -/
def drawOperation (random : RandomSource γ) (c : SyntheticConfig) (time : Instant)
    (lastUpdate : Option Instant) (g : γ) :
    Except String (SyntheticOperation × SyntheticState γ) := do
  let (key, g) ← random.index c.recordCount g
  let (place, g) ← random.weightedChoice c.weights g
  let kind := SyntheticKind.ofPlace place
  let (payload, g) ← drawPayload random c key g kind
  let op := Operation.independent kind.operationType time payload
  if kind = .update then return (⟨kind, op⟩, ⟨g, time, some time⟩)
  else return (⟨kind, gated c lastUpdate op⟩, ⟨g, time, lastUpdate⟩)

/-- Draws what is added to the interval. -/
def drawJitter (random : RandomSource γ) (c : SyntheticConfig) (g : γ) : Duration × γ :=
  if c.jitter.nanos ≤ 0 then (Duration.zero, g)
  else
    let (n, g) := random.upTo c.jitter.nanos.toNat g
    (Duration.saturating n, g)

/-- Draws the next operation. -/
def next (random : RandomSource γ) (c : SyntheticConfig) (s : SyntheticState γ) :
    Except WorkloadError (SyntheticOperation × SyntheticState γ) :=
  let (jitter, g) := drawJitter random c s.source
  match (s.time.add? c.interval).bind (·.add? jitter) with
  | none => .error (.stream "scheduled start overflows")
  | some time =>
    match drawOperation random c time s.lastUpdate g with
    | .ok drawn => .ok drawn
    | .error text => .error (.panicked text)

/-- So many operations from a state on, or fewer and an error. -/
def sequence (random : RandomSource γ) (c : SyntheticConfig) :
    Nat → SyntheticState γ → LazyList (Except WorkloadError SyntheticOperation)
  | 0, _ => .nil
  | n + 1, s =>
    match s.next random c with
    | .error e => .cons (.error e) fun _ => .nil
    | .ok (op, s) => .cons (.ok op) fun _ => sequence random c n s

end SyntheticState

/-- The synthetic sequence of a seed. -/
def syntheticSequence {γ : Type} (random : RandomSource γ) (c : SyntheticConfig) (seed : Nat) :
    LazyList (Except WorkloadError SyntheticOperation) :=
  (SyntheticState.ofSeed random seed).sequence random c c.operationCount

end WorkloadReplay
