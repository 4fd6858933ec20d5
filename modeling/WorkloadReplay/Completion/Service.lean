import WorkloadReplay.ReplayError

/-!
# The completion time service

Peers that take part in a run report how far they are. A peer reports the times of operations that
it has initiated and times up to which everything it initiated has completed; neither may go back,
and a completed time may not lie beyond the last initiated one. The global completion time is the
earliest of the completed times of all peers: everything before it is done everywhere. It is unknown
until every peer has reported a completed time.

A peer reports through a slot that it claims. A report that is refused changes nothing. After
shutdown every claim and every report is refused, and the global completion time stays as it is.

A service that starts without peers has a slot of its own and reports the last instant through it.
`start_eq` says that this, as any other start, leads to the state `ofPeers`.
-/

namespace WorkloadReplay

/-- What one peer has reported. -/
structure PeerSlot where
  peerId : String
  claimed : Bool
  lastInitiated : Option Instant
  lastCompleted : Option Instant
  deriving DecidableEq

namespace PeerSlot

/-- The slot of a peer that has not claimed it yet. -/
def free (peerId : String) : PeerSlot := ⟨peerId, false, none, none⟩

/-- The completed time that a slot contributes to the global one. -/
def contribution? (s : PeerSlot) : Option Instant := if s.claimed then s.lastCompleted else none

/-- The slot after an initiated time. -/
def initiated (s : PeerSlot) (time : Instant) : Except ReplayError PeerSlot :=
  let refusal (previous : Instant) : ReplayError := .completionTimeOrdering
    ("peer " ++ s.peerId ++ " initiated " ++ time.toText ++ " after " ++ previous.toText)
  match s.lastInitiated with
  | some previous =>
    if time < previous then .error (refusal previous)
    else .ok { s with lastInitiated := some time }
  | none => .ok { s with lastInitiated := some time }

/-- An initiated time as shown in messages. -/
def showInitiated (t : Option Instant) : String :=
  match t with
  | some t => "Some(Instant(" ++ t.toText ++ "))"
  | none => "None"

/-- The slot after a completed time. -/
def completed (s : PeerSlot) (time : Instant) : Except ReplayError PeerSlot :=
  if s.lastCompleted.any (time < ·) then
    .error (.completionTimeOrdering ("peer " ++ s.peerId ++ " completed " ++ time.toText ++
      " after " ++ s.lastCompleted.elim "" Instant.toText))
  else if s.lastInitiated.any (time ≤ ·) then .ok { s with lastCompleted := some time }
  else
    .error (.completionTimeOrdering ("peer " ++ s.peerId ++ " completed " ++ time.toText ++
      " beyond last initiated " ++ showInitiated s.lastInitiated))

end PeerSlot

/-- The service that collects the reports of all peers. -/
structure CompletionService where
  peerIds : List String
  slots : List PeerSlot
  closed : Bool
  /-- The global completion time, once it is known. -/
  global : Option Instant
  deriving DecidableEq

namespace CompletionService

/-- The name of the service in errors. -/
def name : String := "completion time service"

/-- The earliest completed time of slots that all contribute one. -/
def earliest? : List PeerSlot → Option Instant
  | [] => none
  | [s] => s.contribution?
  | s :: t :: rest =>
    match s.contribution?, earliest? (t :: rest) with
    | some a, some b => some (a.earlier b)
    | _, _ => none

/-- The state of a service that has started for some peers. Without peers there is nobody to wait
for, and the global completion time is the last instant. -/
def ofPeers : List String → CompletionService
  | [] => ⟨[], [⟨"local", true, some Instant.greatest, some Instant.greatest⟩], false,
      some Instant.greatest⟩
  | peers => ⟨peers, peers.map PeerSlot.free, false, none⟩

/-- The number of slots that peers can claim. -/
def slotCount (s : CompletionService) : Nat := s.peerIds.length

/-- Claims the first free slot among slots that begin with number `i`. -/
def claimSlot (i : Nat) : List PeerSlot → Option (Nat × List PeerSlot)
  | [] => none
  | slot :: rest =>
    if slot.claimed then (claimSlot (i + 1) rest).map fun (k, rest) => (k, slot :: rest)
    else some (i, { slot with claimed := true } :: rest)

/-- Claims the first free slot of the service, whoever it is for; the answer is its number. -/
def claimFree (s : CompletionService) : Except ReplayError (Nat × CompletionService) :=
  if s.closed then .error (.serviceClosed name)
  else
    match claimSlot 0 s.slots with
    | some (k, slots) => .ok (k, { s with slots := slots })
    | none => .error (.noPeerSlots s.slotCount)

/-- Claims a slot for a peer; the answer is its number. -/
def claim (s : CompletionService) : Except ReplayError (Nat × CompletionService) :=
  if s.peerIds.isEmpty then
    .error (if s.closed then .serviceClosed name else .noPeerSlots 0)
  else s.claimFree

/-- The service with a slot replaced by what a report makes of it. -/
def report (s : CompletionService) (k : Nat) (f : PeerSlot → Except ReplayError PeerSlot) :
    Except ReplayError CompletionService :=
  if s.closed then .error (.serviceClosed name)
  else
    match s.slots[k]? with
    | none => .error (.serviceClosed name)
    | some slot => (f slot).map fun slot => { s with slots := s.slots.set k slot }

/-- The service with its global completion time moved up to the earliest completed time. -/
def advance (s : CompletionService) : CompletionService :=
  match earliest? s.slots with
  | none => s
  | some time => { s with global := some (s.global.elim time (Instant.later · time)) }

/-- A peer reports an operation that it has initiated. -/
def reportInitiated (s : CompletionService) (k : Nat) (time : Instant) :
    Except ReplayError CompletionService :=
  s.report k (·.initiated time)

/-- A peer reports that all it initiated up to a time has completed. -/
def reportCompleted (s : CompletionService) (k : Nat) (time : Instant) :
    Except ReplayError CompletionService :=
  (s.report k (·.completed time)).map advance

/-- A new service with a slot for each peer. Without peers the service has a slot of its own,
through which it reports, up to the last instant. -/
def start : List String → Except ReplayError CompletionService
  | [] => do
    let nearlyLast : Instant := ⟨greatestNanos - 1, by decide⟩
    let vacant : CompletionService := ⟨[], [.free "local"], false, none⟩
    let own ← vacant.claimFree
    let s ← own.2.reportInitiated own.1 nearlyLast
    let s ← s.reportCompleted own.1 nearlyLast
    let s ← s.reportInitiated own.1 .greatest
    s.reportCompleted own.1 .greatest
  | peers => .ok ⟨peers, peers.map .free, false, none⟩

/-- The service starts for any peers, and what it reports of its own is accepted. -/
@[simp] theorem start_eq (peers : List String) : start peers = .ok (ofPeers peers) := by
  cases peers <;> rfl

/-- The global completion time has reached a time. -/
def hasReached (s : CompletionService) (time : Instant) : Bool := s.global.any (time ≤ ·)

/-- Closes the service and frees its slots. -/
def shutdown (s : CompletionService) : CompletionService :=
  if s.closed then s
  else { s with closed := true, slots := s.slots.map fun slot => { slot with claimed := false } }

end CompletionService

end WorkloadReplay
