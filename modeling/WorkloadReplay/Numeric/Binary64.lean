import WorkloadReplay.Numeric.Power

/-!
# Binary floating point

`Binary64` holds the numbers of the 64-bit binary interchange format in decoded form: a finite
number is `± mant * 2 ^ exp`, with the sign of zero kept. Every operation computes its exact result
as a fraction of natural numbers and rounds once, in `ofRatio`, to the nearest number of the
format, a half going to the even neighbour. Nothing here depends on a machine's own floating point,
so every statement about it is one about integers.
-/

namespace WorkloadReplay

/-- The quotient of two natural numbers rounded to the nearest whole number, a half going to the
even neighbour. -/
def roundHalfEven (num den : Nat) : Nat :=
  let q := num / den
  let r := num % den
  if 2 * r < den then q
  else if den < 2 * r then q + 1
  else if q % 2 = 0 then q else q + 1

/-- A number of the 64-bit binary floating-point format. -/
inductive Binary64 where
  /-- The number `mant * 2 ^ exp`, negated if `negative`. -/
  | finite (negative : Bool) (mant : Nat) (exp : Int)
  | infinite (negative : Bool)
  /-- Not a number; the sign is kept only because the word that encodes it shows it. -/
  | nan (negative : Bool)
  deriving DecidableEq, Repr

namespace Binary64

/-- The least exponent of a finite number. -/
def minExp : Int := -1074

/-- The greatest exponent of a finite number. -/
def maxExp : Int := 971

/-- Zero, with its sign. -/
def zero (negative : Bool) : Binary64 := .finite negative 0 minExp

instance : Inhabited Binary64 := ⟨zero false⟩

/-- The whole part of the binary logarithm of a positive fraction. -/
def floorLog2 (num den : Nat) : Int :=
  let k : Int := (num.log2 : Int) - den.log2
  let reaches : Bool :=
    if 0 ≤ k then den * twoPow k.toNat ≤ num else den ≤ num * twoPow (-k).toNat
  if reaches then k else k - 1

/-- The fraction `num / den` in units of `2 ^ exp`, rounded to the nearest whole number. -/
def scaleRound (num den : Nat) (exp : Int) : Nat :=
  if 0 ≤ exp then roundHalfEven num (den * twoPow exp.toNat)
  else roundHalfEven (num * twoPow (-exp).toNat) den

/-- The number of the format nearest to `± num / den`, for a positive `den`. The significand has
53 bits unless the exponent would fall below the least one. -/
def ofRatio (negative : Bool) (num den : Nat) : Binary64 :=
  if num = 0 then zero negative
  else
    let exp := max (floorLog2 num den - 52) minExp
    let mant := scaleRound num den exp
    let (mant, exp) := if mant = twoPow 53 then (twoPow 52, exp + 1) else (mant, exp)
    if maxExp < exp then .infinite negative else .finite negative mant exp

/-- The number of the format nearest to `± mant * 2 ^ exp`. -/
def ofScaled (negative : Bool) (mant : Nat) (exp : Int) : Binary64 :=
  if 0 ≤ exp then ofRatio negative (mant * twoPow exp.toNat) 1
  else ofRatio negative mant (twoPow (-exp).toNat)

/-- The number nearest to a whole number. -/
def ofInt (n : Int) : Binary64 := ofRatio (n < 0) n.natAbs 1

/-- The number nearest to a natural number. -/
def ofNat (n : Nat) : Binary64 := ofRatio false n 1

/-- The number nearest to `± digits * 10 ^ exp10`. Far outside the range of exponents the answer is
zero or infinite, whatever the digits are, and no power of ten is computed. -/
def ofDecimal (negative : Bool) (digits : Nat) (exp10 : Int) : Binary64 :=
  if digits = 0 then zero negative
  else if 400 < exp10 then .infinite negative
  else if exp10 + (digits.log2 : Int) < -400 then zero negative
  else if 0 ≤ exp10 then ofRatio negative (digits * tenPow exp10.toNat) 1
  else ofRatio negative digits (tenPow (-exp10).toNat)

/-- Neither infinite nor `nan`. -/
def isFinite : Binary64 → Bool
  | .finite .. => true
  | _ => false

/-- The sign a number carries. -/
def isNegative : Binary64 → Bool
  | .finite s .. => s
  | .infinite s => s
  | .nan s => s

/-- The number with its sign turned over. -/
def neg : Binary64 → Binary64
  | .finite s m e => .finite (!s) m e
  | .infinite s => .infinite (!s)
  | .nan s => .nan (!s)

/-- A finite number's mantissa with its sign, counted in units of `2 ^ unit`, for a `unit` not
above its exponent. -/
def signedAt (negative : Bool) (mant : Nat) (exp unit : Int) : Int :=
  let n : Int := mant * twoPow (exp - unit).toNat
  if negative then -n else n

/-- The sum. A sum of exactly zero is positive unless both terms are negative. -/
def add : Binary64 → Binary64 → Binary64
  | .nan s, _ => .nan s
  | _, .nan s => .nan s
  | .infinite s, .infinite t => if s = t then .infinite s else .nan false
  | .infinite s, .finite .. => .infinite s
  | .finite .., .infinite t => .infinite t
  | .finite s m e, .finite t n f =>
    let unit := min e f
    let sum := signedAt s m e unit + signedAt t n f unit
    if sum = 0 then zero (s && t) else ofScaled (sum < 0) sum.natAbs unit

/-- The difference. -/
def sub (x y : Binary64) : Binary64 := add x (neg y)

/-- The product. -/
def mul : Binary64 → Binary64 → Binary64
  | .nan s, _ => .nan s
  | _, .nan s => .nan s
  | .infinite s, .infinite t => .infinite (s != t)
  | .infinite s, .finite t n _ => if n = 0 then .nan false else .infinite (s != t)
  | .finite s m _, .infinite t => if m = 0 then .nan false else .infinite (s != t)
  | .finite s m e, .finite t n f => ofScaled (s != t) (m * n) (e + f)

/-- The quotient. -/
def div : Binary64 → Binary64 → Binary64
  | .nan s, _ => .nan s
  | _, .nan s => .nan s
  | .infinite _, .infinite _ => .nan false
  | .infinite s, .finite t .. => .infinite (s != t)
  | .finite s .., .infinite t => zero (s != t)
  | .finite s m e, .finite t n f =>
    if n = 0 then (if m = 0 then .nan false else .infinite (s != t))
    else if f ≤ e then ofRatio (s != t) (m * twoPow (e - f).toNat) n
    else ofRatio (s != t) m (n * twoPow (f - e).toNat)

/-- How two numbers compare; `nan` compares with nothing, and the two zeros are equal. -/
def compare? : Binary64 → Binary64 → Option Ordering
  | .nan _, _ => none
  | _, .nan _ => none
  | .infinite s, .infinite t => some (if s = t then .eq else if s then .lt else .gt)
  | .infinite s, .finite .. => some (if s then .lt else .gt)
  | .finite .., .infinite t => some (if t then .gt else .lt)
  | .finite s m e, .finite t n f =>
    let unit := min e f
    some (compare (signedAt s m e unit) (signedAt t n f unit))

/-- Strictly less; false if either is `nan`. -/
def lt (x y : Binary64) : Bool := x.compare? y == some .lt

/-- Less or equal; false if either is `nan`. -/
def le (x y : Binary64) : Bool :=
  match x.compare? y with
  | some .lt => true
  | some .eq => true
  | _ => false

/-- Numerically equal; false if either is `nan`. -/
def eqv (x y : Binary64) : Bool := x.compare? y == some .eq

/-- The number moved to the nearer end of an interval if it lies outside; `nan` stays. -/
def clamp (x lo hi : Binary64) : Binary64 :=
  if x.lt lo then lo else if hi.lt x then hi else x

/-- The whole part of a nonnegative number `mant * 2 ^ exp`, and whether something is left. -/
def wholePart (mant : Nat) (exp : Int) : Nat × Bool :=
  if 0 ≤ exp then (mant * twoPow exp.toNat, false)
  else (mant / twoPow (-exp).toNat, mant % twoPow (-exp).toNat != 0)

/-- The least whole number not below a number. -/
def ceil : Binary64 → Binary64
  | .finite s m e =>
    let (whole, left) := wholePart m e
    ofRatio s (if left && !s then whole + 1 else whole) 1
  | x => x

/-- The nearest whole number, a half going away from zero. -/
def round : Binary64 → Binary64
  | .finite s m e =>
    if 0 ≤ e then .finite s m e
    else
      let den := twoPow (-e).toNat
      ofRatio s ((2 * m + den) / (2 * den)) 1
  | x => x

/-- The integer part, taken into an interval of integers; `nan` gives zero if that is inside. -/
def toIntClamped (lo hi : Int) : Binary64 → Int
  | .nan _ => max lo (min 0 hi)
  | .infinite s => if s then lo else hi
  | .finite s m e =>
    let whole : Int := (wholePart m e).1
    max lo (min (if s then -whole else whole) hi)

/-- The word that encodes a number: sign, eleven bits of exponent, 52 bits of fraction. -/
def toBits : Binary64 → Nat
  | .nan s => (if s then twoPow 63 else 0) + 0x7ff8000000000000
  | .infinite s => (if s then twoPow 63 else 0) + 0x7ff0000000000000
  | .finite s m e =>
    (if s then twoPow 63 else 0) +
      (if m < twoPow 52 then m else (e + 1075).toNat * twoPow 52 + (m - twoPow 52))

/-- The number a word encodes. -/
def ofBits (word : Nat) : Binary64 :=
  let s : Bool := word / twoPow 63 % 2 = 1
  let biased : Nat := word / twoPow 52 % twoPow 11
  let fraction : Nat := word % twoPow 52
  if biased = 2047 then (if fraction = 0 then .infinite s else .nan s)
  else if biased = 0 then .finite s fraction minExp
  else .finite s (twoPow 52 + fraction) ((biased : Int) - 1075)

end Binary64

end WorkloadReplay
