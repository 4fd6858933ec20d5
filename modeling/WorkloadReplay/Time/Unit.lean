/-!
# Time units

A time is a whole number of nanoseconds that fits in 64 bits with a sign. A `TimeUnit` is one of
the five units in which times are given and shown. `fromNanos` and `toNanos` convert between a
unit and nanoseconds; both treat the two ends of the range as marks of an earlier overflow, not as
measurements, and refuse them.
-/

namespace WorkloadReplay

/-- The least number of nanoseconds a time can hold. -/
def leastNanos : Int := -9223372036854775808

/-- The greatest number of nanoseconds a time can hold. -/
def greatestNanos : Int := 9223372036854775807

/-- A number lies in the range of times. -/
def FitsNanos (n : Int) : Prop := leastNanos ≤ n ∧ n ≤ greatestNanos

instance (n : Int) : Decidable (FitsNanos n) := inferInstanceAs (Decidable (_ ∧ _))

/-- The number of the range closest to a given one. -/
def clampNanos (n : Int) : Int := max leastNanos (min n greatestNanos)

/-- No nanoseconds are in range. -/
theorem fits_zero : FitsNanos 0 := by decide

/-- Clamping ends inside the range. -/
theorem fits_clampNanos (n : Int) : FitsNanos (clampNanos n) := by
  simp only [FitsNanos, clampNanos, leastNanos, greatestNanos]; omega

/-- Clamping keeps what is already inside. -/
theorem clampNanos_eq {n : Int} (h : FitsNanos n) : clampNanos n = n := by
  simp only [FitsNanos, clampNanos, leastNanos, greatestNanos] at *; omega

/-- A granularity of time. -/
inductive TimeUnit where
  | nano | micro | milli | second | minute
  deriving DecidableEq, Repr, Inhabited

namespace TimeUnit

/-- Nanoseconds in one unit. -/
def nanosPerUnit : TimeUnit → Int
  | nano => 1
  | micro => 1000
  | milli => 1000000
  | second => 1000000000
  | minute => 60000000000

/-- The name under which a unit is shown and stored. -/
def name : TimeUnit → String
  | nano => "nano"
  | micro => "micro"
  | milli => "milli"
  | second => "second"
  | minute => "minute"

/-- Every unit, from the finest to the coarsest. -/
def all : List TimeUnit := [nano, micro, milli, second, minute]

/-- The spellings under which a unit is read, beside its name. -/
def aliases : TimeUnit → List String
  | nano => ["nanoseconds", "ns"]
  | micro => ["microseconds", "us"]
  | milli => ["milliseconds", "ms"]
  | second => ["seconds", "s"]
  | minute => ["minutes", "m"]

/-- Reads a unit by its name or an alias, in either case of the ASCII letters. A refusal carries
the message. -/
def parse (text : String) : Except String TimeUnit :=
  let lowered := text.toLower
  match all.find? fun u => lowered = u.name || lowered ∈ u.aliases with
  | some u => .ok u
  | none => .error ("unknown time unit: " ++ lowered)

end TimeUnit

/-- Why a computation on times has no result. -/
inductive TimeError where
  /-- A value does not fit when it is moved from one unit to another. -/
  | overflow (value : Int) (source target : TimeUnit)
  /-- Any other computation that leaves the range. -/
  | arithmetic (text : String)
  deriving DecidableEq, Repr

/-- The wording of a time error. -/
def TimeError.message : TimeError → String
  | overflow value source target =>
    "Overflow converting " ++ toString value ++ " from " ++ source.name ++ " to " ++ target.name
  | arithmetic text => "Arithmetic overflow: " ++ text

namespace TimeUnit

/-- Whole units in a number of nanoseconds, toward zero. The two ends of the range are refused. -/
def fromNanos (u : TimeUnit) (nanos : Int) : Except TimeError Int :=
  if nanos = greatestNanos ∨ nanos = leastNanos then .error (.overflow nanos .nano u)
  else .ok (nanos.tdiv u.nanosPerUnit)

/-- Nanoseconds in a number of units. A product on or beyond the ends of the range is refused. -/
def toNanos (u : TimeUnit) (value : Int) : Except TimeError Int :=
  let nanos := value * u.nanosPerUnit
  if leastNanos < nanos ∧ nanos < greatestNanos then .ok nanos
  else .error (.overflow value u .nano)

end TimeUnit

end WorkloadReplay
