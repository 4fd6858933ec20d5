import WorkloadReplay.Numeric.Binary64

/-!
# Numerals

Reading whole numbers, floating-point numbers and truth values from text, with the reason for
each refusal. A whole number is read from left to right, so of two faults the first one counts: a
character that is no digit, or a digit that takes the number out of its range.
-/

namespace WorkloadReplay

namespace Text

/-- Why a text is not the number or truth value that was wanted. -/
inductive NumeralError where
  | emptyInteger | invalidDigit | tooLarge | tooSmall | emptyFloat | invalidFloat | notBoolean
  deriving DecidableEq, Repr

/-- The wording of a refusal. -/
def NumeralError.message : NumeralError → String
  | emptyInteger => "cannot parse integer from empty string"
  | invalidDigit => "invalid digit found in string"
  | tooLarge => "number too large to fit in target type"
  | tooSmall => "number too small to fit in target type"
  | emptyFloat => "cannot parse float from empty string"
  | invalidFloat => "invalid float literal"
  | notBoolean => "provided string was not \x60true\x60 or \x60false\x60"

/-- The value of a decimal digit. -/
def digit? (c : Char) : Option Nat :=
  if '0' ≤ c ∧ c ≤ '9' then some (c.toNat - 48) else none

/-- Digits read onto a number that must not pass `limit`. -/
def readDigits (limit : Nat) (beyond : NumeralError) : Nat → List Char → Except NumeralError Nat
  | n, [] => .ok n
  | n, c :: cs =>
    match digit? c with
    | none => .error .invalidDigit
    | some d =>
      if limit < 10 * n + d then .error beyond
      else readDigits limit beyond (10 * n + d) cs

/-- A number without a sign, or with a plus sign, up to `limit`. -/
def readNat (limit : Nat) (s : String) : Except NumeralError Nat :=
  match s.toList with
  | [] => .error .emptyInteger
  | ['+'] => .error .invalidDigit
  | '+' :: cs => readDigits limit .tooLarge 0 cs
  | cs => readDigits limit .tooLarge 0 cs

/-- A number with an optional sign, from `-(limit + 1)` to `limit`. -/
def readInt (limit : Nat) (s : String) : Except NumeralError Int :=
  match s.toList with
  | [] => .error .emptyInteger
  | ['+'] => .error .invalidDigit
  | ['-'] => .error .invalidDigit
  | '+' :: cs => (readDigits limit .tooLarge 0 cs).map Int.ofNat
  | '-' :: cs => (readDigits (limit + 1) .tooSmall 0 cs).map fun n => -(n : Int)
  | cs => (readDigits limit .tooLarge 0 cs).map Int.ofNat

/-- The greatest number of 64 bits. -/
def maxWord : Nat := 0xffffffffffffffff

/-- A number of 64 bits. -/
def readWord (s : String) : Except NumeralError Nat := readNat maxWord s

/-- A number of 32 bits. -/
def readHalfWord (s : String) : Except NumeralError Nat := readNat 0xffffffff s

/-- A number of 64 bits with a sign. -/
def readSigned (s : String) : Except NumeralError Int := readInt 0x7fffffffffffffff s

/-- A truth value. -/
def readBool (s : String) : Except NumeralError Bool :=
  if s = "true" then .ok true else if s = "false" then .ok false else .error .notBoolean

/-- A run of digits as a number, its length, and what follows. -/
def spanDigits (cs : List Char) : Nat × Nat × List Char :=
  let ds := cs.takeWhile fun c => (digit? c).isSome
  (ds.foldl (fun n c => 10 * n + (c.toNat - 48)) 0, ds.length, cs.drop ds.length)

/-- The exponent part of a floating-point number, which ends the text. -/
def readExponent : List Char → Option Int
  | [] => some 0
  | c :: cs =>
    if c = 'e' ∨ c = 'E' then
      let (negative, cs) := match cs with
        | '-' :: r => (true, r)
        | '+' :: r => (false, r)
        | r => (false, r)
      match spanDigits cs with
      | (n, _ + 1, []) => some (if negative then -(n : Int) else n)
      | _ => none
    else none

/-- A floating-point number without its sign: digits with an optional point and exponent, or a name
of infinity or of not-a-number in either case. -/
def readUnsignedFloat (negative : Bool) (cs : List Char) : Option Binary64 :=
  let name := (String.ofList cs).toLower
  if name = "inf" ∨ name = "infinity" then some (.infinite negative)
  else if name = "nan" then some (.nan negative)
  else
    let (whole, wholeCount, rest) := spanDigits cs
    let (fraction, fractionCount, rest) := match rest with
      | '.' :: r => spanDigits r
      | r => (0, 0, r)
    if wholeCount + fractionCount = 0 then none
    else (readExponent rest).map fun e =>
      Binary64.ofDecimal negative (whole * tenPow fractionCount + fraction) (e - fractionCount)

/-- A floating-point number, rounded to the nearest one of the format. -/
def readFloat (s : String) : Except NumeralError Binary64 :=
  match s.toList with
  | [] => .error .emptyFloat
  | c :: cs =>
    let read :=
      if c = '-' then readUnsignedFloat true cs
      else if c = '+' then readUnsignedFloat false cs
      else readUnsignedFloat false (c :: cs)
    match read with
    | some x => .ok x
    | none => .error .invalidFloat

end Text

end WorkloadReplay
