import WorkloadReplay.Time.Duration

/-!
# Instants

An `Instant` is a point in time, in nanoseconds since the epoch. Instants are ordered, a duration
can be added to or taken from one, and two of them differ by a duration. As with durations, each
operation has a checked form and one that answers with the overflow.
-/

namespace WorkloadReplay

/-- A point in time, in nanoseconds since the epoch. -/
structure Instant where
  /-- The number of nanoseconds since the epoch. -/
  nanos : Int
  /-- The number is in the range of times. -/
  fits : FitsNanos nanos := by decide

namespace Instant

/-- The instant of a number of nanoseconds, if it is in range. -/
def ofNanos? (n : Int) : Option Instant :=
  if h : FitsNanos n then some ⟨n, h⟩ else none

/-- The instant closest to a number of nanoseconds. -/
def saturating (n : Int) : Instant := ⟨clampNanos n, fits_clampNanos n⟩

/-- The first instant. -/
def least : Instant := ⟨leastNanos, by decide⟩

/-- The last instant. -/
def greatest : Instant := ⟨greatestNanos, by decide⟩

/-- The instant from which all others are counted. -/
def epoch : Instant := ⟨0, fits_zero⟩

instance : Inhabited Instant := ⟨epoch⟩

instance : LE Instant := ⟨fun a b => a.nanos ≤ b.nanos⟩

instance : LT Instant := ⟨fun a b => a.nanos < b.nanos⟩

instance (a b : Instant) : Decidable (a ≤ b) := inferInstanceAs (Decidable (a.nanos ≤ b.nanos))

instance (a b : Instant) : Decidable (a < b) := inferInstanceAs (Decidable (a.nanos < b.nanos))

/-- Instants with the same number of nanoseconds are equal. -/
@[ext] theorem ext {a b : Instant} (h : a.nanos = b.nanos) : a = b := by
  cases a; cases b; simp_all

instance : DecidableEq Instant := fun a b =>
  decidable_of_iff (a.nanos = b.nanos) ⟨ext, congrArg Instant.nanos⟩

/-- The earlier of two instants. -/
def earlier (a b : Instant) : Instant := if a ≤ b then a else b

/-- The later of two instants. -/
def later (a b : Instant) : Instant := if a ≤ b then b else a

/-- A number of milliseconds since the epoch, held at the ends of the range. -/
def ofMillis (n : Int) : Instant := saturating (n * TimeUnit.milli.nanosPerUnit)

/-- A number of units since the epoch, refused at and beyond the ends of the range. -/
def ofUnits? (u : TimeUnit) (value : Int) : Except TimeError Instant :=
  (u.toNanos value).map saturating

/-- Whole units since the epoch. -/
def inUnits (t : Instant) (u : TimeUnit) : Except TimeError Int := u.fromNanos t.nanos

/-- The instant a duration later, if it is in range. -/
def add? (t : Instant) (d : Duration) : Option Instant := ofNanos? (t.nanos + d.nanos)

/-- The instant a duration earlier, if it is in range. -/
def sub? (t : Instant) (d : Duration) : Option Instant := ofNanos? (t.nanos - d.nanos)

/-- The duration from `earlier` to `t`, if it is in range. -/
def since? (t earlier : Instant) : Option Duration := Duration.ofNanos? (t.nanos - earlier.nanos)

/-- The instant a duration later, or the last one if that is too late. -/
def addOrGreatest (t : Instant) (d : Duration) : Instant := (t.add? d).getD greatest

/-- The instant a duration later, where the caller counts on it. -/
def add (t : Instant) (d : Duration) : Except TimeOverflow Instant :=
  match t.add? d with
  | some u => .ok u
  | none => .error .addingToInstant

/-- The instant a duration earlier, where the caller counts on it. -/
def sub (t : Instant) (d : Duration) : Except TimeOverflow Instant :=
  match t.sub? d with
  | some u => .ok u
  | none => .error .subtractingFromInstant

/-- The duration between two instants, where the caller counts on it. -/
def since (t earlier : Instant) : Except TimeOverflow Duration :=
  match t.since? earlier with
  | some d => .ok d
  | none => .error .subtractingInstants

/-- The nanoseconds of an instant as text. -/
def toText (t : Instant) : String := toString t.nanos

end Instant

end WorkloadReplay
