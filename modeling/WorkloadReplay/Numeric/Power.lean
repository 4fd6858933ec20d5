/-!
# Powers

The powers of two and of ten, which place a significand.
-/

namespace WorkloadReplay

/-- A power of two. -/
def twoPow (n : Nat) : Nat := Nat.pow 2 n

/-- A power of ten. -/
def tenPow (n : Nat) : Nat := Nat.pow 10 n

end WorkloadReplay
