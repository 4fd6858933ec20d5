import WorkloadReplay.Proofs.Stream.Lanes

/-!
# Sequences up to their first fault

A merge takes the operations of a sequence one after another until it finds a fault: an error, an
operation that comes before the last one, or one that depends on a time after its start
(`Source.ItemFault`). `Source.sound` are the operations before that, the longest part of the
sequence that is as it should be (`OperationSequence.IsSoundPart`), and `Source.defect?` is the
error for the fault, if there is one.
-/

namespace WorkloadReplay

variable {P : Type}

/-- Operations are the longest part of a sequence, from its beginning on, that is free of errors, in
order of start and without dependencies on later times. -/
structure OperationSequence.IsSoundPart (q : OperationSequence P) (ops : List (Operation P)) :
    Prop where
  front : ops.map .ok <+: q.toList
  ordered : ops.Pairwise (·.scheduledStart ≤ ·.scheduledStart)
  dependencies : ∀ op ∈ ops, op.dependencyTime ≤ op.scheduledStart
  longest : ∀ ops' : List (Operation P), ops'.map .ok <+: q.toList →
    ops'.Pairwise (·.scheduledStart ≤ ·.scheduledStart) →
    (∀ op ∈ ops', op.dependencyTime ≤ op.scheduledStart) → ops' <+: ops

namespace Source

/-- What is wrong with an item as the next one of a sequence, and the error for it. -/
inductive ItemFault (label : String) (last : Option Instant) :
    Except WorkloadError (Operation P) → ReplayError → Prop where
  /-- The sequence breaks down. -/
  | breakdown (text : String) : ItemFault label last (.error (.panicked text)) (.panicked text)
  /-- The sequence has an error. -/
  | failure {w : WorkloadError} (h : ∀ text, w ≠ .panicked text) :
    ItemFault label last (.error w) (.streamConstruction (label ++ ": " ++ w.message))
  /-- The operation comes before the last one. -/
  | unordered {op : Operation P} {start : Instant} (hlast : last = some start)
    (h : op.scheduledStart < start) :
    ItemFault label last (.ok op) (.streamConstruction (label ++ " is not time ordered: " ++
      op.scheduledStart.toText ++ " follows " ++ start.toText))
  /-- The operation depends on a time after its start. -/
  | late {op : Operation P} (hlast : last ≤ some op.scheduledStart)
    (h : op.scheduledStart < op.dependencyTime) :
    ItemFault label last (.ok op) (.streamConstruction (label ++ " operation at " ++
      op.scheduledStart.toText ++ " has dependency time " ++ op.dependencyTime.toText ++
      " after its start"))

/-- The operations of a sequence before its first fault. -/
def sound (s : Source P) : List (Operation P) :=
  match _h : s.pull with
  | .ok (some (op, s')) => op :: s'.sound
  | .ok none => []
  | .error _ => []
termination_by s.rest.length
decreasing_by rw [length_of_pull _h]; omega

/-- A sequence after the operations before its first fault have been taken. -/
def spent (s : Source P) : Source P :=
  match _h : s.pull with
  | .ok (some (_, s')) => s'.spent
  | .ok none => s
  | .error _ => s
termination_by s.rest.length
decreasing_by rw [length_of_pull _h]; omega

/-- The error for the first fault of a sequence. -/
def defect? (s : Source P) : Option ReplayError :=
  match s.spent.pull with
  | .ok _ => none
  | .error e => some e

/-- What a sequence adds to a merge before its first fault. -/
def offered (s : Source P) : List (ScheduledOperation P) := s.sound.map (⟨·, s.tracked⟩)

section Pulling

variable {s s' : Source P} {op : Operation P} {e : ReplayError}

/-- A sequence is at its end if it has nothing left. -/
theorem pull_eq_none : s.pull = .ok none ↔ s.rest = .nil := by
  constructor
  · intro h
    unfold pull at h
    split at h
    · assumption
    · simp at h
    · simp at h
    · split at h <;> simp at h
  · intro h
    unfold pull
    rw [h]

/-- An operation that is not good as the next one is at fault. -/
theorem itemFault_of_fault? (h : s.fault? op = some e) :
    ItemFault s.label s.lastStart (.ok op) e := by
  have hlate : s.lastStart ≤ some op.scheduledStart → fault?.late s op = some e →
      ItemFault s.label s.lastStart (.ok op) e := by
    intro hle hlate
    unfold fault?.late at hlate
    split at hlate
    · simp at hlate
    · rename_i hvalid
      obtain rfl := Option.some.inj hlate
      exact .late hle (not_le.mp fun hdep => hvalid (decide_eq_true hdep))
  unfold fault? at h
  split at h
  · rename_i last hlast
    split at h
    · rename_i hlt
      obtain rfl := Option.some.inj h
      exact .unordered hlast hlt
    · rename_i hlt
      exact hlate (by rw [hlast]; exact Option.some_le_some.mpr (not_lt.mp hlt)) h
  · rename_i hlast
    exact hlate (by rw [hlast]; exact Option.none_le) h

/-- A sequence that gives an error has an item that is at fault. -/
theorem itemFault_of_pull (h : s.pull = .error e) :
    ∃ item tail, s.rest = .cons item tail ∧ ItemFault s.label s.lastStart item e := by
  unfold pull at h
  split at h
  · simp at h
  · rename_i text tail hrest
    obtain rfl := Except.error.inj h
    exact ⟨_, tail, hrest, .breakdown text⟩
  · rename_i w tail hw hrest
    obtain rfl := Except.error.inj h
    exact ⟨_, tail, hrest, .failure fun text heq => hw text (heq ▸ rfl)⟩
  · rename_i op tail hrest
    split at h
    · rename_i e' hfault
      obtain rfl := Except.error.inj h
      exact ⟨_, tail, hrest, itemFault_of_fault? hfault⟩
    · simp at h

/-- A sequence whose next item is at fault has nothing before it. -/
theorem sound_of_pull_error (h : s.pull = .error e) : s.sound = [] ∧ s.spent = s := by
  rw [sound, spent]
  constructor <;> split <;> simp_all

/-- A sequence at its end has nothing left. -/
theorem sound_of_pull_none (h : s.pull = .ok none) : s.sound = [] ∧ s.spent = s := by
  rw [sound, spent]
  constructor <;> split <;> simp_all

/-- The next operation of a sequence is the first of those before a fault. -/
theorem sound_of_pull_some (h : s.pull = .ok (some (op, s'))) :
    s.sound = op :: s'.sound ∧ s.spent = s'.spent := by
  rw [sound, spent]
  constructor <;> split <;> simp_all

/-- The error of the next item is that of the sequence. -/
theorem defect?_of_pull_error (h : s.pull = .error e) : s.defect? = some e := by
  unfold defect?
  rw [(sound_of_pull_error h).2, h]

/-- A sequence at its end has no fault. -/
theorem defect?_of_pull_none (h : s.pull = .ok none) : s.defect? = none := by
  unfold defect?
  rw [(sound_of_pull_none h).2, h]

/-- The fault of a sequence is that of what is left of it. -/
theorem defect?_of_pull_some (h : s.pull = .ok (some (op, s'))) : s.defect? = s'.defect? := by
  unfold defect?
  rw [(sound_of_pull_some h).2]

/-- The next operation is the first of what a sequence adds to a merge. -/
theorem offered_of_pull_some (h : s.pull = .ok (some (op, s'))) :
    s.offered = ⟨op, s'.tracked⟩ :: s'.offered := by
  obtain ⟨tail, -, rfl, -⟩ := pull_eq_some.mp h
  unfold offered
  rw [(sound_of_pull_some h).1, List.map_cons]

end Pulling

/-- A sequence consists of the operations before its first fault and of what is left after them. -/
theorem toList_rest (s : Source P) : s.rest.toList = s.sound.map .ok ++ s.spent.rest.toList := by
  induction s using sound.induct with
  | case1 s op s' hpull ih =>
    obtain ⟨tail, hrest, rfl, -⟩ := pull_eq_some.mp hpull
    obtain ⟨hsound, hspent⟩ := sound_of_pull_some hpull
    rw [hsound, hspent, hrest, List.map_cons, List.cons_append, LazyList.toList_cons, ← ih]
  | case2 s hpull =>
    obtain ⟨hsound, hspent⟩ := sound_of_pull_none hpull
    rw [hsound, hspent, List.map_nil, List.nil_append]
  | case3 s e hpull =>
    obtain ⟨hsound, hspent⟩ := sound_of_pull_error hpull
    rw [hsound, hspent, List.map_nil, List.nil_append]

/-- After the operations before the first fault there is no other one that can be taken, and nothing
but the start of the last one and what is left has changed. -/
theorem spent_spec (s : Source P) :
    (∀ found, s.spent.pull ≠ .ok (some found)) ∧ s.spent.label = s.label ∧
    s.spent.lastStart = (s.sound.getLast?.map (·.scheduledStart)).or s.lastStart := by
  induction s using sound.induct with
  | case1 s op s' hpull ih =>
    obtain ⟨tail, -, rfl, -⟩ := pull_eq_some.mp hpull
    obtain ⟨hsound, hspent⟩ := sound_of_pull_some hpull
    obtain ⟨hlast, hlabel, hstart⟩ := ih
    rw [hsound, hspent]
    refine ⟨hlast, hlabel, hstart.trans ?_⟩
    rw [List.getLast?_cons]
    cases (sound _).getLast? <;> rfl
  | case2 s hpull =>
    obtain ⟨hsound, hspent⟩ := sound_of_pull_none hpull
    rw [hsound, hspent, hpull]
    exact ⟨by simp, rfl, rfl⟩
  | case3 s e hpull =>
    obtain ⟨hsound, hspent⟩ := sound_of_pull_error hpull
    rw [hsound, hspent, hpull]
    exact ⟨by simp, rfl, rfl⟩

/-- The operations before the first fault of a sequence are in order, from the start of the last one
that has been taken on, and none depends on a time after its own start. -/
theorem sound_spec (s : Source P) :
    s.sound.Pairwise (·.scheduledStart ≤ ·.scheduledStart) ∧
    (∀ op ∈ s.sound, s.lastStart ≤ some op.scheduledStart) ∧
    ∀ op ∈ s.sound, op.dependencyTime ≤ op.scheduledStart := by
  induction s using sound.induct with
  | case1 s op s' hpull ih =>
    obtain ⟨tail, -, rfl, hlast, hdep⟩ := pull_eq_some.mp hpull
    obtain ⟨hordered, hlater, hdeps⟩ := ih
    rw [(sound_of_pull_some hpull).1]
    refine ⟨List.pairwise_cons.mpr ⟨fun u hu => ?_, hordered⟩, fun u hu => ?_, fun u hu => ?_⟩
    · exact Option.some_le_some.mp (hlater u hu)
    · rcases List.mem_cons.mp hu with rfl | hu
      · exact hlast
      · exact optionLe_trans hlast (hlater u hu)
    · rcases List.mem_cons.mp hu with rfl | hu
      · exact hdep
      · exact hdeps u hu
  | case2 s hpull =>
    rw [(sound_of_pull_none hpull).1]
    simp
  | case3 s e hpull =>
    rw [(sound_of_pull_error hpull).1]
    simp

/-- The operations before the first fault are the longest sound part of a sequence. -/
theorem isSoundPart_sound {s : Source P} (h : s.lastStart = none) :
    s.rest.IsSoundPart s.sound := by
  obtain ⟨hordered, -, hdeps⟩ := s.sound_spec
  refine ⟨⟨_, s.toList_rest.symm⟩, hordered, hdeps, fun ops hfront hops hdep => ?_⟩
  -- Operations that are good after those taken before are at the front of `sound`.
  have hlater : ∀ op ∈ ops, s.lastStart ≤ some op.scheduledStart := fun op _ => by
    rw [h]
    exact Option.none_le
  clear h hordered hdeps
  induction ops generalizing s with
  | nil => exact List.nil_prefix
  | cons op ops ih =>
    obtain ⟨hfirst, hrest⟩ := List.pairwise_cons.mp hops
    obtain ⟨tail, htail⟩ : ∃ tail, s.rest = .cons (.ok op) tail := by
      cases hs : s.rest with
      | nil =>
        rw [hs] at hfront
        simp at hfront
      | cons item tail =>
        rw [hs, List.map_cons, LazyList.toList_cons, List.cons_prefix_cons] at hfront
        exact ⟨tail, hfront.1 ▸ rfl⟩
    have hpull : s.pull = .ok (some (op, { s with
        lastStart := some op.scheduledStart, rest := tail () })) :=
      pull_eq_some.mpr ⟨tail, htail, rfl, hlater op List.mem_cons_self, hdep op List.mem_cons_self⟩
    rw [htail, List.map_cons, LazyList.toList_cons, List.cons_prefix_cons] at hfront
    rw [(sound_of_pull_some hpull).1]
    refine List.cons_prefix_cons.mpr ⟨rfl, ih hfront.2 hrest
      (fun u hu => hdep u (List.mem_cons_of_mem op hu)) fun u hu => ?_⟩
    exact Option.some_le_some.mpr (hfirst u hu)

/-- A sequence without a fault consists of the operations before its first fault. -/
theorem toList_of_defect?_eq_none {s : Source P} (h : s.defect? = none) :
    s.rest.toList = s.sound.map .ok := by
  have hend : s.spent.rest = .nil := by
    unfold defect? at h
    split at h
    · rename_i found hpull
      cases found with
      | none => exact pull_eq_none.mp hpull
      | some found => exact absurd hpull (s.spent_spec.1 found)
    · simp at h
  rw [s.toList_rest, hend, LazyList.toList_nil, List.append_nil]

/-- The error of a faulty sequence is that for the item that follows the operations before its first
fault. -/
theorem itemFault_of_defect? {s : Source P} {e : ReplayError} (h : s.defect? = some e) :
    ∃ item, s.rest.toList[s.sound.length]? = some item ∧
      ItemFault s.label ((s.sound.getLast?.map (·.scheduledStart)).or s.lastStart) item e := by
  obtain ⟨-, hlabel, hlast⟩ := s.spent_spec
  have hpull : s.spent.pull = .error e := by
    unfold defect? at h
    split at h
    · simp at h
    · rename_i e' hpull
      rw [hpull, Option.some.inj h]
  obtain ⟨item, tail, hrest, hfault⟩ := itemFault_of_pull hpull
  rw [hlabel, hlast] at hfault
  refine ⟨item, ?_, hfault⟩
  rw [s.toList_rest, hrest, List.getElem?_append_right (by simp)]
  simp

/-- A sequence begins with a fault if there is nothing before its first fault. -/
theorem pull_eq_error {s : Source P} {e : ReplayError} :
    s.pull = .error e ↔ s.offered = [] ∧ s.defect? = some e := by
  constructor
  · intro h
    refine ⟨?_, defect?_of_pull_error h⟩
    rw [offered, (sound_of_pull_error h).1, List.map_nil]
  · rintro ⟨hoffered, hdefect⟩
    cases hpull : s.pull with
    | error e' =>
      rw [defect?_of_pull_error hpull] at hdefect
      rw [Option.some.inj hdefect]
    | ok found =>
      cases found with
      | none =>
        rw [defect?_of_pull_none hpull] at hdefect
        simp at hdefect
      | some found =>
        rw [offered_of_pull_some hpull] at hoffered
        simp at hoffered

end Source

end WorkloadReplay
