import WorkloadReplay.Random.KeyStream
import WorkloadReplay.Numeric.Binary64

/-!
# Random draws

A `RandomSource` draws numbers from ranges. What is drawn depends on the seed alone.
`RandomSource.standard` draws from a key stream, by rejection: a word is scaled to the range, and
words that would favour some numbers over others are passed over.
-/

namespace WorkloadReplay

/-- A source of draws with states of type `γ`. -/
structure RandomSource (γ : Type) where
  ofSeed : Nat → γ
  /-- A number of 64 bits, up to the given one. -/
  upTo : Nat → γ → Nat × γ
  /-- A character from the blank to the tilde. -/
  printable : γ → Char × γ
  /-- A nonnegative double below the given one, which must be positive and finite. -/
  below : Binary64 → γ → Binary64 × γ

namespace RandomSource

/-- The text with which a draw from an empty range breaks down. -/
def emptyRange : String := "cannot sample empty range"

/-- The text with which a draw from a range without end breaks down. -/
def endlessRange : String := "UniformSampler::sample_single called with `high` non-finite."

/-- A number below the given one, which must not be zero. -/
def index {γ : Type} (s : RandomSource γ) (count : Nat) (g : γ) : Except String (Nat × γ) :=
  if count = 0 then .error emptyRange else .ok (s.upTo (count - 1) g)

/-- A nonnegative double below the given one. -/
def fraction {γ : Type} (s : RandomSource γ) (bound : Binary64) (g : γ) :
    Except String (Binary64 × γ) :=
  if !(Binary64.zero false).lt bound then .error emptyRange
  else if !bound.isFinite then .error endlessRange
  else .ok (s.below bound g)

/-- How often a word is passed over at most. Each is with a chance of one half or less. -/
def patience : Nat := 4096

/-- A number of `size` values, from words of `2 ^ bits` values. -/
def sample {γ : Type} (next : γ → Nat × γ) (bits size zone : Nat) : Nat → γ → Nat × γ
  | 0, g => (0, g)
  | fuel + 1, g =>
    let (word, g) := next g
    let product := word * size
    if product % twoPow bits ≤ zone then (product / twoPow bits, g)
    else sample next bits size zone fuel g

/-- The next word as a number. -/
def word (g : KeyStream) : Nat × KeyStream :=
  let (w, g) := g.next
  (w.toNat, g)

/-- The next two words as one number. -/
def wideWord (g : KeyStream) : Nat × KeyStream :=
  let (w, g) := g.nextWide
  (w.toNat, g)

/-- A number of 64 bits, up to the given one. -/
def drawUpTo (high : Nat) (g : KeyStream) : Nat × KeyStream :=
  let size := (high + 1) % twoPow 64
  if size = 0 then wideWord g
  else sample wideWord 64 size (size * twoPow (63 - size.log2) - 1) patience g

/-- The number of printable characters. -/
def printableCount : Nat := 95

/-- A character from the blank to the tilde. -/
def drawPrintable (g : KeyStream) : Char × KeyStream :=
  let zone := twoPow 32 - 1 - (twoPow 32 - printableCount) % printableCount
  let (n, g) := sample word 32 printableCount zone patience g
  (Char.ofNat (32 + n), g)

/-- A double that is at least 0 and below 1, a multiple of `2 ^ -52`. -/
def unitFraction (g : KeyStream) : Binary64 × KeyStream :=
  let (w, g) := wideWord g
  (Binary64.ofRatio false (w / twoPow 12) (twoPow 52), g)

/-- A nonnegative double below the given one. -/
def drawBelow (bound : Binary64) : Nat → KeyStream → Binary64 × KeyStream
  | 0, g => (Binary64.zero false, g)
  | fuel + 1, g =>
    let (x, g) := unitFraction g
    let y := (x.mul bound).add (Binary64.zero false)
    if y.lt bound then (y, g) else drawBelow bound fuel g

/-- Draws from the key stream of a seed. -/
def standard : RandomSource KeyStream where
  ofSeed := KeyStream.ofSeed
  upTo := drawUpTo
  printable := drawPrintable
  below bound := drawBelow bound patience

/-- So many printable characters. -/
def printables {γ : Type} (s : RandomSource γ) : Nat → γ → List Char × γ
  | 0, g => ([], g)
  | n + 1, g =>
    let (c, g) := s.printable g
    let (cs, g) := printables s n g
    (c :: cs, g)

/-- The most characters that a text can have. -/
def maxLength : Nat := 0x7fffffffffffffff

/-- The text with which a draw of a longer text breaks down. -/
def lengthText : String := "capacity overflow"

/-- A text of so many printable characters. -/
def printableText {γ : Type} (s : RandomSource γ) (length : Nat) (g : γ) :
    Except String (List Char × γ) :=
  if maxLength < length then .error lengthText else .ok (s.printables length g)

/-- The place among weights, from number `i` on, at which a point falls when they are laid end to
end; beyond all of them it is the last place. -/
def placeOf (last : Nat) : Nat → Binary64 → List Binary64 → Nat
  | _, _, [] => last
  | i, point, w :: ws => if point.lt w then i else placeOf last (i + 1) (point.sub w) ws

/-- The sum of weights, from the left. -/
def total (weights : List Binary64) : Binary64 :=
  weights.foldl Binary64.add (Binary64.zero false)

/-- Picks a place among weights, each with a chance in proportion to its weight. Where the weights
come to nothing it is the first place. -/
def weightedChoice {γ : Type} (s : RandomSource γ) (weights : List Binary64) (g : γ) :
    Except String (Nat × γ) :=
  if (total weights).le (Binary64.zero false) then .ok (0, g)
  else (s.fraction (total weights) g).map fun (point, g) =>
    (placeOf (weights.length - 1) 0 point weights, g)

end RandomSource

end WorkloadReplay
