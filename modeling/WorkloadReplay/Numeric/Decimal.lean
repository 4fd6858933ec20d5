import WorkloadReplay.Numeric.Binary64

/-!
# Decimal text of floating-point numbers

Two ways to write a `Binary64` in decimal. `fixed` writes its exact expansion rounded to a number of
places, a half going to the even digit. `shortest` finds the fewest digits that still read back as
the same number, and `Style.render` lays those digits out, positionally or with an exponent, as a
`Style` says.
-/

namespace WorkloadReplay

namespace Decimal

/-- A text of `n` zeros. -/
def zeros (n : Nat) : String := String.ofList (List.replicate n '0')

/-- The exact decimal expansion of a finite number, rounded to `places` places. -/
def fixedMagnitude (places mant : Nat) (exp : Int) : String :=
  let scaled :=
    if 0 ≤ exp then mant * twoPow exp.toNat * tenPow places
    else roundHalfEven (mant * tenPow places) (twoPow (-exp).toNat)
  let digits := toString scaled
  let padded := zeros (places + 1 - digits.length) ++ digits
  let whole := padded.length - places
  if places = 0 then padded
  else String.ofList (padded.toList.take whole) ++ "." ++ String.ofList (padded.toList.drop whole)

/-- The text of a number that is not finite. -/
def special : Binary64 → String
  | .infinite true => "-inf"
  | .infinite false => "inf"
  | _ => "NaN"

/-- A number with a fixed count of places, from its exact value. -/
def fixed (places : Nat) : Binary64 → String
  | .finite s m e => (if s then "-" else "") ++ fixedMagnitude places m e
  | x => special x

/-- Which of two equally near shortest texts is taken. -/
inductive Tie where
  | toEven | up
  deriving DecidableEq

/-- `num / den` is at least `10 ^ p`. -/
def reachesPower (num den : Nat) (p : Int) : Bool :=
  if 0 ≤ p then den * tenPow p.toNat ≤ num else den ≤ num * tenPow (-p).toNat

/-- The whole part of the decimal logarithm of a positive fraction, from the binary one: the
estimate is off by one at most, and both neighbours are tried. -/
def floorLog10 (num den : Nat) : Int :=
  let guess := (Binary64.floorLog2 num den * 30103).fdiv 100000
  if reachesPower num den (guess + 1) then guess + 1
  else if reachesPower num den guess then guess
  else guess - 1

/-- The whole part of `num / den` in units of `10 ^ k`, as a fraction `a / b` before division. -/
def inUnits (num den : Nat) (k : Int) : Nat × Nat :=
  if 0 ≤ k then (num, den * tenPow k.toNat) else (num * tenPow (-k).toNat, den)

/-- The digits of the neighbours of a value on the grid of `10 ^ k` that round to it: the interval
of such reals goes from `lo / den` to `hi / den`, with its ends if `closed`. -/
def onGrid (lo mid hi den : Nat) (closed : Bool) (tie : Tie) (k : Int) : Option Nat :=
  let (m, d) := inUnits mid den k
  let (l, _) := inUnits lo den k
  let (h, _) := inUnits hi den k
  let below := m / d
  let above := below + 1
  let inside (c : Nat) : Bool :=
    (if closed then decide (l ≤ c * d) else decide (l < c * d)) &&
      (if closed then decide (c * d ≤ h) else decide (c * d < h))
  match inside below, inside above with
  | false, false => none
  | true, false => some below
  | false, true => some above
  | true, true =>
    let down := m - below * d
    let up := above * d - m
    if down < up then some below
    else if up < down then some above
    else match tie with
      | .up => some above
      | .toEven => some (if below % 2 = 0 then below else above)

/-- Divides trailing zeros out of a number of units of `10 ^ k`. -/
def stripZeros : Nat → Nat → Int → Nat × Int
  | 0, digits, k => (digits, k)
  | fuel + 1, digits, k =>
    if digits ≠ 0 ∧ digits % 10 = 0 then stripZeros fuel (digits / 10) (k + 1) else (digits, k)

/-- The fewest decimal digits that read back as `mant * 2 ^ exp`, and of those the nearest, as a
whole number of units of `10 ^ k`. Seventeen digits always suffice. -/
def shortest (mant : Nat) (exp : Int) (tie : Tie) : Nat × Int :=
  if mant = 0 then (0, 0)
  else
    let unit := exp - 2
    let low := if mant = twoPow 52 ∧ Binary64.minExp < exp then 1 else 2
    let scale := if 0 ≤ unit then twoPow unit.toNat else 1
    let den := if 0 ≤ unit then 1 else twoPow (-unit).toNat
    let mid := 4 * mant * scale
    let lo := (4 * mant - low) * scale
    let hi := (4 * mant + 2) * scale
    let top := floorLog10 mid den
    let found := (List.range 17).findSome? fun (n : Nat) =>
      let k := top - n
      (onGrid lo mid hi den (mant % 2 = 0) tie k).map fun digits => (digits, k)
    let (digits, k) := found.getD (0, 0)
    stripZeros 20 digits k

/-- How shortest digits are laid out. -/
structure Style where
  /-- The power of ten of the leading digit from which notation is positional. -/
  positionalFrom : Option Int
  /-- The power of ten of the leading digit from which notation has an exponent again. -/
  positionalBelow : Option Int
  /-- Whole numbers end in a point and a zero. -/
  keepPoint : Bool
  /-- The choice between two texts that are equally near. -/
  tie : Tie

/-- Positional notation always, and whole numbers without a point. -/
def plain : Style := ⟨none, none, false, .up⟩

namespace Style

/-- Whether a number whose leading digit has weight `10 ^ p` is written positionally. -/
def isPositional (style : Style) (p : Int) : Bool :=
  style.positionalFrom.all (· ≤ p) && style.positionalBelow.all (p < ·)

/-- Positional notation of `digits * 10 ^ k`. -/
def positional (style : Style) (digits : List Char) (k : Int) : String :=
  let n : Int := digits.length
  if 0 ≤ k then
    String.ofList digits ++ zeros k.toNat ++ (if style.keepPoint then ".0" else "")
  else if 0 < n + k then
    String.ofList (digits.take (n + k).toNat) ++ "." ++ String.ofList (digits.drop (n + k).toNat)
  else "0." ++ zeros (-(n + k)).toNat ++ String.ofList digits

/-- Notation with a signed exponent of ten. -/
def exponential (digits : List Char) (p : Int) : String :=
  let point := if digits.length = 1 then "" else "."
  String.ofList (digits.take 1) ++ point ++ String.ofList (digits.drop 1) ++
    (if p < 0 then "e-" else "e+") ++ toString p.natAbs

/-- The text of a finite number without its sign. -/
def magnitude (style : Style) (mant : Nat) (exp : Int) : String :=
  let (number, k) := shortest mant exp style.tie
  let digits := (toString number).toList
  let p := k + digits.length - 1
  if style.isPositional p then style.positional digits k else exponential digits p

/-- The text of a number. -/
def render (style : Style) : Binary64 → String
  | .finite s m e => (if s then "-" else "") ++ style.magnitude m e
  | x => special x

end Style

/-- A number in plain positional notation with the fewest digits that read back. -/
def toText (x : Binary64) : String := plain.render x

end Decimal

end WorkloadReplay
