/-!
# Lists on demand

A `LazyList` is a finite list whose cells are computed when they are asked for, so that a consumer
that stops early never pays for the rest. Its content is the plain list `toList`, and each
operation is described by its effect on that list.
-/

namespace WorkloadReplay

/-- A finite list, each of whose tails is computed when it is asked for. -/
inductive LazyList (α : Type) where
  | nil
  | cons (head : α) (tail : Unit → LazyList α)

namespace LazyList

variable {α β : Type}

instance : Inhabited (LazyList α) := ⟨nil⟩

/-- The content of a list on demand. -/
def toList : LazyList α → List α
  | nil => []
  | cons a t => a :: (t ()).toList

/-- The first item and the rest. -/
def uncons? : LazyList α → Option (α × (Unit → LazyList α))
  | nil => none
  | cons a t => some (a, t)

/-- A plain list. -/
def ofList : List α → LazyList α
  | [] => nil
  | a :: as => cons a fun _ => ofList as

/-- Applies a function to every item. -/
def map (f : α → β) : LazyList α → LazyList β
  | nil => nil
  | cons a t => cons (f a) fun _ => (t ()).map f

/-- Keeps what a partial function makes of the items. -/
def filterMap (f : α → Option β) : LazyList α → LazyList β
  | nil => nil
  | cons a t =>
    match f a with
    | some b => cons b fun _ => (t ()).filterMap f
    | none => (t ()).filterMap f

/-- The first `n` items, or all if there are fewer. -/
def take : Nat → LazyList α → List α
  | 0, _ => []
  | _ + 1, nil => []
  | n + 1, cons a t => a :: (t ()).take n

/-- The number of items. -/
def length : LazyList α → Nat
  | nil => 0
  | cons _ t => (t ()).length + 1

@[simp] theorem toList_nil : (nil : LazyList α).toList = [] := rfl

@[simp] theorem toList_cons (a : α) (t : Unit → LazyList α) :
    (cons a t).toList = a :: (t ()).toList := rfl

@[simp] theorem toList_ofList (as : List α) : (ofList as).toList = as := by
  induction as with
  | nil => rfl
  | cons a as ih => simp [ofList, ih]

@[simp] theorem toList_map (f : α → β) (s : LazyList α) : (s.map f).toList = s.toList.map f := by
  induction s with
  | nil => rfl
  | cons a t ih => simp [map, ih]

@[simp] theorem toList_filterMap (f : α → Option β) (s : LazyList α) :
    (s.filterMap f).toList = s.toList.filterMap f := by
  induction s with
  | nil => rfl
  | cons a t ih =>
    cases h : f a <;> simp [filterMap, h, ih]

@[simp] theorem take_eq (n : Nat) (s : LazyList α) : s.take n = s.toList.take n := by
  induction n generalizing s with
  | zero => simp [take]
  | succ n ih => cases s <;> simp [take, ih]

@[simp] theorem length_toList (s : LazyList α) : s.toList.length = s.length := by
  induction s with
  | nil => rfl
  | cons a t ih => simp [length, ih]

/-- A list on demand is determined by its content. -/
theorem toList_injective : Function.Injective (toList (α := α)) := by
  intro s
  induction s with
  | nil =>
    intro s' h
    cases s' with
    | nil => rfl
    | cons a t => simp at h
  | cons a t ih =>
    intro s' h
    cases s' with
    | nil => simp at h
    | cons b u =>
      obtain ⟨rfl, hrest⟩ := List.cons.inj h
      exact congrArg (cons a) (funext fun _ => ih () hrest)

end LazyList

end WorkloadReplay
