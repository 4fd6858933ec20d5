import WorkloadReplay.Time.Unit
import WorkloadReplay.Numeric.Decimal

/-!
# Durations

A `Duration` is an interval between two instants, negative if the second comes first. Sums and
differences come in a checked form, which answers `none` outside the range, and a form that answers
with the overflow as an error. `scale` multiplies by a floating-point ratio and rounds to the
nearest nanosecond.
-/

namespace WorkloadReplay

/-- An interval of time, in nanoseconds. -/
structure Duration where
  /-- The number of nanoseconds. -/
  nanos : Int
  /-- The number is in the range of times. -/
  fits : FitsNanos nanos := by decide

/-- An addition or subtraction of times that must have a result and has none. -/
inductive TimeOverflow where
  | addingDurations
  | subtractingDurations
  | addingToInstant
  | subtractingFromInstant
  | subtractingInstants
  deriving DecidableEq, Repr

/-- The wording of an overflow. -/
def TimeOverflow.message : TimeOverflow → String
  | addingDurations => "overflow when adding durations"
  | subtractingDurations => "overflow when subtracting durations"
  | addingToInstant => "overflow when adding duration to instant"
  | subtractingFromInstant => "overflow when subtracting duration from instant"
  | subtractingInstants => "overflow when subtracting instants"

namespace Duration

/-- The duration of a number of nanoseconds, if it is in range. -/
def ofNanos? (n : Int) : Option Duration :=
  if h : FitsNanos n then some ⟨n, h⟩ else none

/-- The duration closest to a number of nanoseconds. -/
def saturating (n : Int) : Duration := ⟨clampNanos n, fits_clampNanos n⟩

/-- No time at all. -/
def zero : Duration := ⟨0, fits_zero⟩

/-- One nanosecond. -/
def one : Duration := ⟨1, by decide⟩

instance : Inhabited Duration := ⟨zero⟩

instance : LE Duration := ⟨fun a b => a.nanos ≤ b.nanos⟩

instance : LT Duration := ⟨fun a b => a.nanos < b.nanos⟩

instance (a b : Duration) : Decidable (a ≤ b) := inferInstanceAs (Decidable (a.nanos ≤ b.nanos))

instance (a b : Duration) : Decidable (a < b) := inferInstanceAs (Decidable (a.nanos < b.nanos))

/-- Durations with the same number of nanoseconds are equal. -/
@[ext] theorem ext {a b : Duration} (h : a.nanos = b.nanos) : a = b := by
  cases a; cases b; simp_all

instance : DecidableEq Duration := fun a b =>
  decidable_of_iff (a.nanos = b.nanos) ⟨ext, congrArg Duration.nanos⟩

/-- A number of units as a duration, held at the ends of the range. -/
def ofUnits (u : TimeUnit) (n : Int) : Duration := saturating (n * u.nanosPerUnit)

/-- A number of units as a duration, refused at and beyond the ends of the range. -/
def ofUnits? (u : TimeUnit) (value : Int) : Except TimeError Duration :=
  (u.toNanos value).map saturating

/-- Whole units in a duration. -/
def inUnits (d : Duration) (u : TimeUnit) : Except TimeError Int := u.fromNanos d.nanos

/-- Shorter than no time at all. -/
def isNegative (d : Duration) : Bool := d.nanos < 0

/-- The sum, if it is in range. -/
def add? (a b : Duration) : Option Duration := ofNanos? (a.nanos + b.nanos)

/-- The difference, if it is in range. -/
def sub? (a b : Duration) : Option Duration := ofNanos? (a.nanos - b.nanos)

/-- The sum, where the caller counts on it. -/
def add (a b : Duration) : Except TimeOverflow Duration :=
  match a.add? b with
  | some d => .ok d
  | none => .error .addingDurations

/-- The difference, where the caller counts on it. -/
def sub (a b : Duration) : Except TimeOverflow Duration :=
  match a.sub? b with
  | some d => .ok d
  | none => .error .subtractingDurations

/-- Multiplies by a floating-point ratio. The nanoseconds are turned into a floating-point number,
multiplied, and rounded to a whole number with a half going away from zero; there is no result at
or beyond the ends of the range, nor for `nan`. -/
def scale (d : Duration) (ratio : Binary64) : Option Duration :=
  match ((Binary64.ofInt d.nanos).mul ratio).round with
  | .finite s m e =>
    let whole : Int := (Binary64.wholePart m e).1
    let n := if s then -whole else whole
    if h : leastNanos < n ∧ n < greatestNanos + 1 then
      some ⟨n, by simp only [FitsNanos, leastNanos, greatestNanos] at *; omega⟩
    else none
  | _ => none

/-- Nanoseconds, with negative durations counted as none. -/
def clampedNanos (d : Duration) : Nat := d.nanos.toNat

/-- The duration in the largest of seconds, milliseconds and microseconds that it reaches, with
three decimals, or in whole nanoseconds below that. -/
def toText (d : Duration) : String :=
  let size := d.nanos.natAbs
  let sign := if d.nanos < 0 then "-" else ""
  let shown (per : Nat) (suffix : String) : String :=
    sign ++ Decimal.fixed 3 ((Binary64.ofNat size).div (Binary64.ofNat per)) ++ suffix
  if 1000000000 ≤ size then shown 1000000000 "s"
  else if 1000000 ≤ size then shown 1000000 "ms"
  else if 1000 ≤ size then shown 1000 "us"
  else sign ++ toString size ++ "ns"

end Duration

end WorkloadReplay
