import WorkloadReplay.Json.Value

/-!
# Reading JSON text

Reading has two stages. `Tree.ofText?` takes a text apart by the grammar alone: numbers stay
numerals, repeated keys stay repeated, and nesting is free. `Tree.toJson?` makes a value of a tree:
numbers get a size, repeated keys merge, and nesting has a limit. Records with a fixed shape are
decoded from the tree, where a repeated or an unknown field can still be told.
-/

namespace WorkloadReplay

namespace Json

/-- A number as it is written. -/
structure Numeral where
  negative : Bool
  /-- The digits before the point. -/
  whole : List Char
  /-- The digits after the point, if there is one. -/
  fraction : Option (List Char)
  /-- The exponent of ten, if there is one. -/
  exponent : Option Int

/-- A JSON text taken apart by the grammar. -/
inductive Tree where
  | null
  | bool (b : Bool)
  | number (n : Numeral)
  /-- A string; `none` if it names a code point that is half of a pair. -/
  | text (s : Option String)
  | list (items : List Tree)
  | record (fields : List (String × Tree))

/-- The text without the blanks before its first other character. -/
def skipBlank : List Char → List Char
  | [] => []
  | c :: cs => if c = ' ' ∨ c = '\n' ∨ c = '\t' ∨ c = '\r' then skipBlank cs else c :: cs

/-- The value of a hexadecimal digit. -/
def hexValue? (c : Char) : Option Nat :=
  let n := c.toNat
  if 48 ≤ n ∧ n ≤ 57 then some (n - 48)
  else if 97 ≤ n ∧ n ≤ 102 then some (n - 87)
  else if 65 ≤ n ∧ n ≤ 70 then some (n - 55)
  else none

/-- The number that four hexadecimal digits name. -/
def hex4? (a b c d : Char) : Option Nat := do
  let a ← hexValue? a
  let b ← hexValue? b
  let c ← hexValue? c
  let d ← hexValue? d
  some (((a * 16 + b) * 16 + c) * 16 + d)

/-- The character that a short escape stands for. -/
def shortEscape? (c : Char) : Option Char :=
  if c = '"' then some '"'
  else if c = '\\' then some '\\'
  else if c = '/' then some '/'
  else if c = 'b' then some (Char.ofNat 8)
  else if c = 'f' then some (Char.ofNat 12)
  else if c = 'n' then some '\n'
  else if c = 'r' then some '\r'
  else if c = 't' then some '\t'
  else none

/-- A piece of a string: a character, or a code point that is half of a pair. -/
inductive Piece where
  | char (c : Char)
  | half (n : Nat)

/-- The piece that a code point of four hexadecimal digits is. -/
def Piece.ofCode (n : Nat) : Piece :=
  if 0xd800 ≤ n ∧ n < 0xe000 then .half n else .char (Char.ofNat n)

/-- The rest of a string after its opening quote: its pieces, and what follows its closing
quote. -/
def readPieces : List Char → Option (List Piece × List Char)
  | [] => none
  | '"' :: rest => some ([], rest)
  | '\\' :: 'u' :: a :: b :: c :: d :: rest =>
    match hex4? a b c d with
    | none => none
    | some n => (readPieces rest).map fun (ps, r) => (Piece.ofCode n :: ps, r)
  | '\\' :: c :: rest =>
    match shortEscape? c with
    | none => none
    | some e => (readPieces rest).map fun (ps, r) => (.char e :: ps, r)
  | c :: rest =>
    if c.toNat < 32 ∨ c = '\\' then none
    else (readPieces rest).map fun (ps, r) => (.char c :: ps, r)

/-- The characters of pieces. A first half and a second half right after it make one character;
any other half makes none. -/
def joinPieces : List Piece → Option (List Char)
  | [] => some []
  | .char c :: ps => (joinPieces ps).map (c :: ·)
  | .half n :: .half m :: ps =>
    if n < 0xdc00 ∧ 0xdc00 ≤ m then
      (joinPieces ps).map (Char.ofNat (0x10000 + (n - 0xd800) * 0x400 + (m - 0xdc00)) :: ·)
    else none
  | .half _ :: _ => none

/-- The rest of a string after its opening quote: its characters, unless a half stands alone, and
what follows its closing quote. -/
def readString (cs : List Char) : Option (Option (List Char) × List Char) :=
  (readPieces cs).map fun (ps, r) => (joinPieces ps, r)

/-- A decimal digit. -/
def isDigit (c : Char) : Bool := '0' ≤ c && c ≤ '9'

/-- The digits at the front of a text, and the rest. -/
def spanDigits : List Char → List Char × List Char
  | [] => ([], [])
  | c :: cs =>
    if isDigit c then
      let (ds, r) := spanDigits cs
      (c :: ds, r)
    else ([], c :: cs)

/-- The number that digits name. -/
def digitsValue (ds : List Char) : Nat := ds.foldl (fun n c => 10 * n + (c.toNat - 48)) 0

/-- The digits at the front of a text, of which there has to be one, and the rest. -/
def readDigits? (cs : List Char) : Option (List Char × List Char) :=
  let (ds, r) := spanDigits cs
  if ds.isEmpty then none else some (ds, r)

/-- The sign at the front of a text, if there is one: whether it is a minus sign, and the rest. -/
def readSign : List Char → Bool × List Char
  | '-' :: r => (true, r)
  | '+' :: r => (false, r)
  | r => (false, r)

/-- The exponent at the front of a text, if there is one. -/
def readExponent : List Char → Option (Option Int × List Char)
  | [] => some (none, [])
  | c :: cs =>
    if c = 'e' ∨ c = 'E' then
      let (negative, cs) := readSign cs
      (readDigits? cs).map fun (ds, r) =>
        let n : Int := digitsValue ds
        (some (if negative then -n else n), r)
    else some (none, c :: cs)

/-- The digits of a number before its point: a zero alone, or digits that begin with another
one. -/
def readWhole? : List Char → Option (List Char × List Char)
  | '0' :: r => some (['0'], r)
  | cs => readDigits? cs

/-- The digits after a point, if there is one. -/
def readFraction? : List Char → Option (Option (List Char) × List Char)
  | '.' :: r => (readDigits? r).map fun (ds, r) => (some ds, r)
  | r => some (none, r)

/-- The rest of a number after its sign. -/
def readMagnitude (negative : Bool) (cs : List Char) : Option (Numeral × List Char) := do
  let (whole, r) ← readWhole? cs
  let (fraction, r) ← readFraction? r
  let (exponent, r) ← readExponent r
  some (⟨negative, whole, fraction, exponent⟩, r)

/-- What is between an opening character and the closing one: nothing, or what is left to a reader
of its own. -/
def readEnclosed {α : Type} (close : Char) (read : List Char → Option (List α × List Char))
    (cs : List Char) : Option (List α × List Char) :=
  match skipBlank cs with
  | [] => none
  | c :: r => if c = close then some ([], r) else read (c :: r)

/-- What follows an item: a comma and more items, or the closing character. -/
def readMore {α : Type} (close : Char) (more : List Char → Option (List α × List Char)) (a : α)
    (cs : List Char) : Option (List α × List Char) :=
  match skipBlank cs with
  | [] => none
  | c :: r =>
    if c = ',' then (more r).map fun (as, r) => (a :: as, r)
    else if c = close then some ([a], r)
    else none

/-- The value at the front of a text without blanks before it, and what follows it. Items and fields
are left to readers of their own. -/
def readValue (items : List Char → Option (List Tree × List Char))
    (fields : List Char → Option (List (String × Tree) × List Char)) :
    List Char → Option (Tree × List Char)
  | 'n' :: 'u' :: 'l' :: 'l' :: r => some (.null, r)
  | 't' :: 'r' :: 'u' :: 'e' :: r => some (.bool true, r)
  | 'f' :: 'a' :: 'l' :: 's' :: 'e' :: r => some (.bool false, r)
  | '"' :: r => (readString r).map fun (s, r) => (.text (s.map String.ofList), r)
  | '[' :: r => (readEnclosed ']' items r).map fun (ts, r) => (.list ts, r)
  | '\x7b' :: r => (readEnclosed '\x7d' fields r).map fun (fs, r) => (.record fs, r)
  | '-' :: r => (readMagnitude true r).map fun (n, r) => (.number n, r)
  | r => (readMagnitude false r).map fun (n, r) => (.number n, r)

/-- The field at the front of a text: its key, a colon, and its value, which is left to a reader of
its own. -/
def readField (value : List Char → Option (Tree × List Char)) (cs : List Char) :
    Option ((String × Tree) × List Char) :=
  match skipBlank cs with
  | '"' :: r =>
    match readString r with
    | some (some key, r) =>
      match skipBlank r with
      | ':' :: r => (value r).map fun (t, r) => ((String.ofList key, t), r)
      | _ => none
    | _ => none
  | _ => none

mutual

/-- The value at the front of a text, and what follows it. Every step uses fuel, of which twice the
length of the text is enough. -/
def readTree : Nat → List Char → Option (Tree × List Char)
  | 0, _ => none
  | fuel + 1, cs => readValue (readItems fuel) (readFields fuel) (skipBlank cs)

/-- Items up to the closing bracket. -/
def readItems : Nat → List Char → Option (List Tree × List Char)
  | 0, _ => none
  | fuel + 1, cs => (readTree fuel cs).bind fun (t, r) => readMore ']' (readItems fuel) t r

/-- Fields up to the closing brace. -/
def readFields : Nat → List Char → Option (List (String × Tree) × List Char)
  | 0, _ => none
  | fuel + 1, cs =>
    (readField (readTree fuel) cs).bind fun (field, r) =>
      readMore '\x7d' (readFields fuel) field r

end

/-- A text taken apart, with nothing but blanks around the value. -/
def Tree.ofText? (s : String) : Option Tree :=
  let cs := s.toList
  match readTree (2 * cs.length + 2) cs with
  | some (t, r) => if skipBlank r = [] then some t else none
  | none => none

/-! ## Numbers -/

/-- The greatest significand that is kept exactly. -/
def maxSignificand : Nat := 0xffffffffffffffff

/-- Appends digits to a significand while it stays within its limit; each digit appended moves the
exponent of ten by `step`. The rest of the digits moves it by `lost` for each. -/
def takeDigits (step lost : Int) : List Char → Nat → Int → Nat × Int
  | [], n, e => (n, e)
  | c :: cs, n, e =>
    let n' := 10 * n + (c.toNat - 48)
    if maxSignificand < n' then (n, e + lost * (cs.length + 1))
    else takeDigits step lost cs n' (e + step)

/-- A power of ten as a double. -/
def tenTo (n : Nat) : Binary64 := Binary64.ofDecimal false 1 n

/-- Moves a double by a power of ten, in steps of at most 308 that each round; `none` if it grows
out of range. -/
def shiftDecimal : Nat → Binary64 → Int → Option Binary64
  | 0, x, _ => some x
  | fuel + 1, x, e =>
    if e.natAbs ≤ 308 then
      if 0 ≤ e then
        let y := x.mul (tenTo e.toNat)
        if y.isFinite then some y else none
      else some (x.div (tenTo e.natAbs))
    else if x.eqv (Binary64.zero false) then some x
    else if 0 ≤ e then none
    else shiftDecimal fuel (x.div (tenTo 308)) (e + 308)

/-- The double that a numeral names: the leading digits that fit 64 bits, as a double, moved by a
power of ten. -/
def Numeral.toDouble? (n : Numeral) : Option Binary64 :=
  let (sig, e) := takeDigits 0 1 n.whole 0 0
  let (sig, e) := takeDigits (-1) 0 (n.fraction.getD []) sig e
  (shiftDecimal 4 (Binary64.ofNat sig) (e + n.exponent.getD 0)).map fun x =>
    if n.negative then x.neg else x

/-- The value of a numeral. Without point and exponent it is a whole number if it fits 64 bits,
with a sign only below zero; all else is a double, of which one out of range is refused. -/
def Numeral.toJson? (n : Numeral) : Option Json :=
  match n.fraction, n.exponent with
  | none, none =>
    let size := digitsValue n.whole
    if n.negative then
      if 0 < size ∧ size ≤ 0x8000000000000000 then some (.int (-(size : Int)))
      else n.toDouble?.map .double
    else if size ≤ maxSignificand then some (.int size)
    else n.toDouble?.map .double
  | _, _ => n.toDouble?.map .double

/-! ## Values -/

mutual

/-- The value of a tree whose lists and records nest to `limit` at most. -/
def Tree.toJson? (limit : Nat) : Tree → Option Json
  | .null => some .null
  | .bool b => some (.bool b)
  | .number n => n.toJson?
  | .text s => s.map .str
  | .list items =>
    match limit with
    | 0 => none
    | limit + 1 => (Tree.itemsToJson? limit items).map .arr
  | .record fields =>
    match limit with
    | 0 => none
    | limit + 1 => (Tree.fieldsToJson? limit fields).map ofFields

/-- The values of items. -/
def Tree.itemsToJson? (limit : Nat) : List Tree → Option (List Json)
  | [] => some []
  | t :: ts =>
    match t.toJson? limit, Tree.itemsToJson? limit ts with
    | some v, some vs => some (v :: vs)
    | _, _ => none

/-- The values of fields. -/
def Tree.fieldsToJson? (limit : Nat) : List (String × Tree) → Option (List (String × Json))
  | [] => some []
  | (k, t) :: ts =>
    match t.toJson? limit, Tree.fieldsToJson? limit ts with
    | some v, some vs => some ((k, v) :: vs)
    | _, _ => none

end

/-- How deeply lists and records of a text may nest. -/
def nestingLimit : Nat := 127

/-- The free value that a text holds. -/
def ofText? (s : String) : Option Json := (Tree.ofText? s).bind (Tree.toJson? nestingLimit)

end Json

end WorkloadReplay
