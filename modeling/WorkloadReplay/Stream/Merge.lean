import WorkloadReplay.Workload
import WorkloadReplay.ReplayError

/-!
# Merging streams

The sequences of all streams are merged into one by scheduled start. The sequences are numbered,
those of a stream side by side with its dependencies first, and operations that start together
come in the order of those numbers. `merge` keeps one `Lane` for each sequence that still has
operations, in the order in which their first operations come; it takes the first lane's operation
and puts the lane back with its next one.

A sequence must be in order of start, and no operation may depend on a time after its start. The
first fault found ends the merged sequence with an error. Every sequence is looked at one operation
ahead, so a fault shows as soon as the operation before it has been taken.
-/

namespace WorkloadReplay

/-- An operation of a merged sequence. -/
structure ScheduledOperation (P : Type) where
  operation : Operation P
  /-- The operation comes from the dependencies of its stream, so its completion is reported. -/
  tracked : Bool
  deriving DecidableEq

/-- A merged sequence: operations, and possibly an error at its end. -/
abbrev Schedule (P : Type) := LazyList (Except ReplayError (ScheduledOperation P))

/-- One of the sequences to be merged. -/
structure Source (P : Type) where
  label : String
  tracked : Bool
  /-- The start of the operation taken last. -/
  lastStart : Option Instant
  rest : OperationSequence P

namespace Source

variable {P : Type}

/-- The sequences of streams in the order of their numbers. -/
def ofStreams : List (OperationStream P) → List (Source P)
  | [] => []
  | s :: ss =>
    ⟨s.operationType ++ " dependencies", true, none, s.dependencies⟩ ::
      ⟨s.operationType ++ " operations", false, none, s.others⟩ :: ofStreams ss

/-- What is wrong with an operation as the next one of a sequence. -/
def fault? (s : Source P) (op : Operation P) : Option ReplayError :=
  match s.lastStart with
  | some last =>
    if op.scheduledStart < last then
      some (.streamConstruction (s.label ++ " is not time ordered: " ++ op.scheduledStart.toText ++
        " follows " ++ last.toText))
    else late
  | none => late
where
  /-- The operation depends on a time after its start. -/
  late : Option ReplayError :=
    if op.hasValidDependency then none
    else some (.streamConstruction (s.label ++ " operation at " ++ op.scheduledStart.toText ++
      " has dependency time " ++ op.dependencyTime.toText ++ " after its start"))

/-- The next operation of a sequence and the sequence after it. -/
def pull (s : Source P) : Except ReplayError (Option (Operation P × Source P)) :=
  match s.rest with
  | .nil => .ok none
  | .cons (.error (.panicked text)) _ => .error (.panicked text)
  | .cons (.error e) _ => .error (.streamConstruction (s.label ++ ": " ++ e.message))
  | .cons (.ok op) tail =>
    match s.fault? op with
    | some e => .error e
    | none => .ok (some (op, { s with lastStart := some op.scheduledStart, rest := tail () }))

/-- Taking an operation leaves one fewer. -/
theorem length_of_pull {s s' : Source P} {op : Operation P}
    (h : s.pull = .ok (some (op, s'))) : s.rest.length = s'.rest.length + 1 := by
  unfold pull at h
  split at h
  · simp at h
  · simp at h
  · simp at h
  · split at h
    · simp at h
    · simp only [Except.ok.injEq, Option.some.injEq, Prod.mk.injEq] at h
      obtain ⟨-, rfl⟩ := h
      simp [LazyList.length, *]

end Source

/-- A sequence with its number and the operation it comes with next. -/
structure Lane (P : Type) where
  number : Nat
  head : Operation P
  source : Source P

namespace Lane

variable {P : Type}

/-- A lane comes before another: by the start of its operation, then by its number. -/
def before (a b : Lane P) : Bool :=
  a.head.scheduledStart < b.head.scheduledStart ||
    (a.head.scheduledStart == b.head.scheduledStart && a.number < b.number)

/-- Puts a lane where it belongs among lanes in order. -/
def insert (a : Lane P) : List (Lane P) → List (Lane P)
  | [] => [a]
  | b :: bs => if a.before b then a :: b :: bs else b :: insert a bs

/-- The lane of a sequence, unless it has no operation left. -/
def ofSource (number : Nat) (s : Source P) : Except ReplayError (Option (Lane P)) :=
  match s.pull with
  | .error e => .error e
  | .ok none => .ok none
  | .ok (some (op, s')) => .ok (some ⟨number, op, s'⟩)

/-- The lane with its next operation, unless it has none left. -/
def next (a : Lane P) : Except ReplayError (Option (Lane P)) := ofSource a.number a.source

/-- The operations that lanes still hold. -/
def held : List (Lane P) → Nat
  | [] => 0
  | a :: as => a.source.rest.length + 1 + held as

/-- A lane brings its operations. -/
theorem held_insert (a : Lane P) (as : List (Lane P)) :
    held (insert a as) = a.source.rest.length + 1 + held as := by
  induction as with
  | nil => rfl
  | cons b bs ih =>
    simp only [insert]
    split
    · rfl
    · simp only [held, ih]; omega

/-- The next lane holds one operation fewer. -/
theorem length_of_next {a b : Lane P} (h : a.next = .ok (some b)) :
    a.source.rest.length = b.source.rest.length + 1 := by
  unfold next ofSource at h
  split at h
  · simp at h
  · simp at h
  · simp only [Except.ok.injEq, Option.some.injEq] at h
    subst h
    exact Source.length_of_pull (by assumption)

/-- The lanes of numbered sequences, in order; the fault of the first faulty one otherwise. -/
def ofSources : Nat → List (Source P) → List (Lane P) → Except ReplayError (List (Lane P))
  | _, [], lanes => .ok lanes
  | number, s :: ss, lanes =>
    match ofSource number s with
    | .error e => .error e
    | .ok none => ofSources (number + 1) ss lanes
    | .ok (some a) => ofSources (number + 1) ss (insert a lanes)

/-- The merged sequence of lanes in order. -/
def merge : List (Lane P) → Schedule P
  | [] => .nil
  | a :: as => .cons (.ok ⟨a.head, a.source.tracked⟩) fun _ =>
    match _h : a.next with
    | .error e => .cons (.error e) fun _ => .nil
    | .ok none => merge as
    | .ok (some b) => merge (insert b as)
termination_by lanes => held lanes
decreasing_by
  · simp only [held]; omega
  · rw [held_insert]; simp only [held, length_of_next _h]; omega

end Lane

/-- The operations of all streams by scheduled start, ties in the order of the sequences. -/
def merge {P : Type} (streams : List (OperationStream P)) : Schedule P :=
  match Lane.ofSources 0 (Source.ofStreams streams) [] with
  | .error e => .cons (.error e) fun _ => .nil
  | .ok lanes => Lane.merge lanes

end WorkloadReplay
