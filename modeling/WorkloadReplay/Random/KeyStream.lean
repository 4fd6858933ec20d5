/-!
# A stream of random words

The words of the ChaCha cipher with 12 rounds under a key that is spread out from a seed. The stream
is cut into blocks of sixteen words; a `KeyStream` is the key, the number of the next block, and
what is left of the present one.
-/

namespace WorkloadReplay

/-- Sixteen words. -/
abbrev WordBlock := Vector UInt32 16

namespace WordBlock

/-- A word turned to the left by some bits. -/
def turn (x : UInt32) (n : UInt32) : UInt32 := (x <<< n) ||| (x >>> (32 - n))

/-- The mixing of four words of a block. -/
def quarterRound (s : WordBlock) (i j k l : Fin 16) : WordBlock :=
  let a := s[i] + s[j]
  let d := turn (s[l] ^^^ a) 16
  let c := s[k] + d
  let b := turn (s[j] ^^^ c) 12
  let a := a + b
  let d := turn (d ^^^ a) 8
  let c := c + d
  let b := turn (b ^^^ c) 7
  (((s.set i a).set j b).set k c).set l d

/-- A round over the columns of a block, then one over its diagonals. -/
def doubleRound (s : WordBlock) : WordBlock :=
  let s := (((s.quarterRound 0 4 8 12).quarterRound 1 5 9 13).quarterRound 2 6 10 14).quarterRound
    3 7 11 15
  (((s.quarterRound 0 5 10 15).quarterRound 1 6 11 12).quarterRound 2 7 8 13).quarterRound 3 4 9 14

/-- The block that an initial block is mixed to, in twelve rounds. -/
def mixed (s : WordBlock) : WordBlock :=
  let t := Nat.repeat doubleRound 6 s
  Vector.ofFn fun i => s[i] + t[i]

end WordBlock

/-- A place in the stream of words of a key. -/
structure KeyStream where
  key : Vector UInt32 8
  /-- The number of the next block. -/
  counter : UInt64
  /-- The words of the present block that are left. -/
  rest : List UInt32

namespace KeyStream

/-- The initial block of a number: four constants, the key, and the number in two words. -/
def initialBlock (key : Vector UInt32 8) (counter : UInt64) : WordBlock :=
  #v[0x61707865, 0x3320646e, 0x79622d32, 0x6b206574,
    key[0], key[1], key[2], key[3], key[4], key[5], key[6], key[7],
    counter.toUInt32, (counter >>> 32).toUInt32, 0, 0]

/-- The next word. -/
def next (s : KeyStream) : UInt32 × KeyStream :=
  match s.rest with
  | w :: rest => (w, { s with rest := rest })
  | [] =>
    let block := (initialBlock s.key s.counter).mixed
    (block[0], { s with counter := s.counter + 1, rest := block.toList.drop 1 })

/-- The next two words as one number, the first as its low half. -/
def nextWide (s : KeyStream) : UInt64 × KeyStream :=
  let (low, s) := s.next
  let (high, s) := s.next
  ((high.toUInt64 <<< 32) ||| low.toUInt64, s)

/-- A step of the generator that spreads out a seed. -/
def spread (state : UInt64) : UInt64 := state * 6364136223846793005 + 11634580027462260723

/-- The word that the spreading generator gives in a state. -/
def spreadWord (state : UInt64) : UInt32 :=
  let mixed := (((state >>> 18) ^^^ state) >>> 27).toUInt32
  let turns := (state >>> 59).toUInt32
  (mixed >>> turns) ||| (mixed <<< ((32 - turns) % 32))

/-- The words that a seed is spread out to. -/
def spreadWords : Nat → UInt64 → List UInt32
  | 0, _ => []
  | n + 1, state =>
    let state := spread state
    spreadWord state :: spreadWords n state

/-- The beginning of the stream of a seed of 64 bits. -/
def ofSeed (seed : Nat) : KeyStream :=
  let words := spreadWords 8 (UInt64.ofNat seed)
  ⟨Vector.ofFn fun i => words[i.val]?.getD 0, 0, []⟩

end KeyStream

end WorkloadReplay
