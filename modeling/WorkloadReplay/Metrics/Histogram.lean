import WorkloadReplay.Json.Decode

/-!
# Histograms

A histogram of 64-bit numbers with one bucket for each power of two, so its size does not grow with
what is recorded. Beside the buckets it keeps the count, the sum and the extremes exactly. A
percentile is estimated by the upper end of the bucket in which its rank falls, moved into the
observed range.
-/

namespace WorkloadReplay

/-- The greatest number that can be recorded. -/
def maxRecorded : Nat := 0xffffffffffffffff

/-- A histogram of 64-bit numbers. -/
structure Histogram where
  /-- How many numbers fell into each bucket; bucket `k` holds the numbers from `2 ^ k` to below
  `2 ^ (k + 1)`, and bucket 0 also holds 0. -/
  buckets : List Nat
  count : Nat
  sum : Nat
  /-- The least number recorded, or the greatest possible one before any is. -/
  least : Nat
  /-- The greatest number recorded, or 0 before any is. -/
  greatest : Nat
  deriving DecidableEq

namespace Histogram

/-- The number of buckets. -/
def bucketCount : Nat := 64

/-- The bucket of a number. -/
def bucketIndex (value : Nat) : Nat := value.log2

/-- The greatest number of a bucket. -/
def bucketUpperBound (index : Nat) : Nat :=
  if bucketCount - 1 ≤ index then maxRecorded else twoPow (index + 1) - 1

/-- A histogram of nothing. -/
def empty : Histogram := ⟨List.replicate bucketCount 0, 0, 0, maxRecorded, 0⟩

instance : Inhabited Histogram := ⟨empty⟩

/-- Records a number. -/
def record (h : Histogram) (value : Nat) : Histogram where
  buckets := h.buckets.modify (bucketIndex value) (· + 1)
  count := h.count + 1
  sum := h.sum + value
  least := min h.least value
  greatest := max h.greatest value

/-- The least number recorded. -/
def min? (h : Histogram) : Option Nat := if 0 < h.count then some h.least else none

/-- The greatest number recorded. -/
def max? (h : Histogram) : Option Nat := if 0 < h.count then some h.greatest else none

/-- The mean of the numbers recorded. -/
def mean? (h : Histogram) : Option Binary64 :=
  if 0 < h.count then some ((Binary64.ofNat h.sum).div (Binary64.ofNat h.count)) else none

/-- A number moved into the observed range. -/
def clampToRange (h : Histogram) (value : Nat) : Nat := max h.least (min value h.greatest)

/-- The first bucket, from `index` on, at which the count reaches a rank, with `seen` numbers before
it. -/
def bucketOfRank (rank : Nat) : Nat → Nat → List Nat → Option Nat
  | _, _, [] => none
  | index, seen, c :: cs =>
    if rank ≤ seen + c then some index else bucketOfRank rank (index + 1) (seen + c) cs

/-- The rank of a quantile among `count` numbers: the quantile is moved into the interval from 0 to
1, multiplied by the count and rounded up, to 1 at least. -/
def rankOf (count : Nat) (q : Binary64) : Nat :=
  let q := q.clamp (Binary64.zero false) (Binary64.ofNat 1)
  max 1 (((q.mul (Binary64.ofNat count)).ceil.toIntClamped 0 maxRecorded).toNat)

/-- The estimate of a quantile. -/
def percentile? (h : Histogram) (q : Binary64) : Option Nat :=
  if h.count = 0 then none
  else match bucketOfRank (rankOf h.count q) 0 0 h.buckets with
    | some index => some (h.clampToRange (bucketUpperBound index))
    | none => some h.greatest

/-- The buckets that hold something, each as its greatest number and its count. -/
def filled (h : Histogram) : List (Nat × Nat) :=
  (h.buckets.zipIdx.filter (0 < ·.1)).map fun (c, index) => (bucketUpperBound index, c)

/-- The value that filled buckets are written as. -/
def filledToJson (buckets : List (Nat × Nat)) : Json :=
  .obj [("buckets", Json.ofList
    (fun (b, c) => .obj [("upper_bound", Json.nat b), ("count", Json.nat c)]) buckets)]

/-- Reads one filled bucket. -/
def bucketOfTree? (t : Json.Tree) : Option (Nat × Nat) := do
  let [bound, count] ← t.fields? ["upper_bound", "count"] | none
  some (← Json.Tree.required? Json.Tree.toWord? bound,
    ← Json.Tree.required? Json.Tree.toWord? count)

/-- Reads filled buckets. -/
def filledOfTree? (t : Json.Tree) : Option (List (Nat × Nat)) := do
  let [buckets] ← t.fields? ["buckets"] | none
  Json.Tree.required? (Json.Tree.toList? bucketOfTree?) buckets

end Histogram

end WorkloadReplay
