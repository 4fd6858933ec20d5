import Mathlib.Data.Int.Order.Basic
import Mathlib.Order.Compare
import WorkloadReplay.Random.Source

/-!
# Draws that come to an end

Every draw from a range that is neither empty nor without end has a result: a number below a
positive one, a text that is not too long, and a place among weights whose sum is finite
(`exists_weightedChoice`). The numbers that the standard source draws do not exceed the bounds that
they are drawn for (`standard_staysInRange`): by rejection (`sample_lt`), a word is scaled to the
size of the range, and so the result is below the size.
-/

namespace WorkloadReplay

/-- A finite number that is not at most zero is above it. -/
theorem Binary64.zero_lt_of_not_le {x : Binary64} (hfinite : x.isFinite = true)
    (h : x.le (zero false) = false) : (zero false).lt x = true := by
  cases x with
  | infinite s => simp [isFinite] at hfinite
  | nan s => simp [isFinite] at hfinite
  | finite s m e =>
    simp only [le, lt, zero, compare?, min_comm minExp e] at h ⊢
    generalize signedAt s m e (min e minExp) = a at h ⊢
    generalize signedAt false 0 minExp (min e minExp) = b at h ⊢
    rcases lt_trichotomy a b with hlt | rfl | hgt
    · simp [compare_lt_iff_lt.mpr hlt] at h
    · simp at h
    · simp [compare_lt_iff_lt.mpr hgt]

namespace RandomSource

variable {γ : Type}

/-- The whole numbers that a source draws do not exceed the bounds that they are drawn for. -/
def StaysInRange (random : RandomSource γ) : Prop :=
  ∀ high g, (random.upTo high g).1 ≤ high

/-- A text that is not too long is drawn. -/
theorem exists_printableText (random : RandomSource γ) {length : Nat} (h : length ≤ maxLength)
    (g : γ) : ∃ drawn, random.printableText length g = .ok drawn :=
  ⟨_, if_neg (by omega)⟩

/-- A place is drawn among weights with a finite sum. -/
theorem exists_weightedChoice (random : RandomSource γ) {weights : List Binary64}
    (hfinite : (total weights).isFinite = true)
    (hpositive : (total weights).le (Binary64.zero false) = false) (g : γ) :
    ∃ drawn, random.weightedChoice weights g = .ok drawn := by
  have hlt := Binary64.zero_lt_of_not_le hfinite hpositive
  simp [weightedChoice, fraction, hfinite, hpositive, hlt, Except.map]

/-! ## The standard source -/

/-- A number that is drawn by rejection is below the size of its range. -/
theorem sample_lt {next : γ → Nat × γ} {bits size zone : Nat}
    (hnext : ∀ g, (next g).1 < twoPow bits) (hsize : 0 < size) (fuel : Nat) (g : γ) :
    (sample next bits size zone fuel g).1 < size := by
  induction fuel generalizing g with
  | zero => exact hsize
  | succ fuel ih =>
    unfold sample
    dsimp only
    split_ifs
    · exact Nat.div_lt_of_lt_mul (Nat.mul_lt_mul_of_pos_right (hnext g) hsize)
    · exact ih _

/-- Two words make a number of 64 bits. -/
theorem wideWord_lt (g : KeyStream) : (wideWord g).1 < twoPow 64 := (g.nextWide).1.toNat_lt

/-- The whole numbers that the standard source draws do not exceed their bounds. -/
theorem standard_staysInRange : standard.StaysInRange := by
  intro high g
  change (drawUpTo high g).1 ≤ high
  unfold drawUpTo
  dsimp only
  split_ifs with hsize
  · -- The size of the range is a multiple of the number of words.
    have hword := wideWord_lt g
    have hle := Nat.le_of_dvd (Nat.succ_pos high) (Nat.dvd_of_mod_eq_zero hsize)
    omega
  · exact Nat.le_of_lt_succ (Nat.lt_of_lt_of_le
      (sample_lt wideWord_lt (Nat.pos_of_ne_zero hsize) patience g)
      (Nat.mod_le (high + 1) (twoPow 64)))

end RandomSource

end WorkloadReplay
