import WorkloadReplay.Proofs.Numeric.Significand

/-!
# Rounding up

A number of the format that is rounded up to a whole number, and taken into a range of words, is the
ceiling of its magnitude in that range (`toIntClamped_ceil_ofRatio`). For a product the magnitude is
that of the factors, rounded once. The numbers from 0 to 1 are finite and have no sign but for a
zero, and they compare as their magnitudes do.
-/

namespace WorkloadReplay

namespace Binary64

variable {s t : Bool} {m n num den : ℕ} {e f : ℤ}

/-! ## Comparing -/

/-- The value of a finite number. -/
def toRat : Binary64 → ℚ
  | .finite s m e => if s then -magnitude m e else magnitude m e
  | _ => 0

/-- In a unit that divides it a number counts as its value. -/
theorem signedAt_mul (s : Bool) (m : ℕ) {unit : ℤ} (h : unit ≤ e) :
    (signedAt s m e unit : ℚ) * 2 ^ unit = toRat (.finite s m e) := by
  have hcount : (m : ℚ) * (twoPow (e - unit).toNat : ℕ) * 2 ^ unit = magnitude m e := by
    unfold magnitude
    rw [twoPow_cast, zpow_toNat (by omega), mul_assoc, ← zpow_add₀ two_ne_zero, sub_add_cancel]
  unfold signedAt toRat
  cases s with
  | false => simpa using hcount
  | true => simpa using congrArg Neg.neg hcount

/-- Finite numbers compare as their values do. -/
theorem le_iff_toRat : (finite s m e).le (.finite t n f) = true ↔
    toRat (.finite s m e) ≤ toRat (.finite t n f) := by
  have hunit : (0 : ℚ) < 2 ^ min e f := by positivity
  rw [← signedAt_mul s m (min_le_left e f), ← signedAt_mul t n (min_le_right e f),
    mul_le_mul_iff_left₀ hunit, Int.cast_le]
  unfold le compare?
  dsimp only
  rcases lt_trichotomy (signedAt s m e (min e f)) (signedAt t n f (min e f)) with h | h | h
  · simp [compare_lt_iff_lt.mpr h, h.le]
  · simp [h]
  · simp [compare_gt_iff_gt.mpr h, h]

/-- Of two numbers that are in order the second one is not less. -/
theorem lt_eq_false_of_le {x y : Binary64} (h : x.le y = true) : y.lt x = false := by
  cases x with
  | nan s => simp [le, compare?] at h
  | infinite s =>
    cases y with
    | nan t => rfl
    | finite t n f => cases s <;> simp [le, lt, compare?] at h ⊢
    | infinite t => cases s <;> cases t <;> simp [le, lt, compare?] at h ⊢
  | finite s m e =>
    cases y with
    | nan t => rfl
    | infinite t => cases t <;> simp [le, lt, compare?] at h ⊢
    | finite t n f =>
      simp only [le, lt, compare?, min_comm f e] at h ⊢
      generalize signedAt s m e (min e f) = a at h ⊢
      generalize signedAt t n f (min e f) = b at h ⊢
      rcases lt_trichotomy a b with hlt | rfl | hgt
      · simp [compare_gt_iff_gt.mpr hlt]
      · simp
      · simp [compare_gt_iff_gt.mpr hgt] at h

/-- Nothing has no magnitude. -/
theorem magnitude_zero (e : ℤ) : magnitude 0 e = 0 := by
  unfold magnitude
  rw [Nat.cast_zero, zero_mul]

/-- Only nothing has no magnitude. -/
theorem magnitude_eq_zero_iff : magnitude m e = 0 ↔ m = 0 := by
  unfold magnitude
  rw [mul_eq_zero, or_iff_left (zpow_ne_zero e two_ne_zero), Nat.cast_eq_zero]

/-- A number from 0 to 1. -/
structure InUnit (q : Binary64) : Prop where
  zero_le : (zero false).le q = true
  le_one : q.le (ofNat 1) = true

/-- A number from 0 to 1 is finite, has no sign unless it is zero, and its magnitude is at most
1. -/
theorem InUnit.exists_finite {q : Binary64} (h : q.InUnit) :
    ∃ s m e, q = .finite s m e ∧ toRat q = magnitude m e ∧ magnitude m e ≤ 1 ∧
      (s = true → m = 0) := by
  obtain ⟨hlow, hhigh⟩ := h
  have hone : ofNat 1 = .finite false (2 ^ 52) (-52) := by decide +kernel
  have hmagOne : magnitude (2 ^ 52) (-52) = 1 := by norm_num [magnitude]
  cases q with
  | infinite s => cases s <;> simp [le, zero, hone, compare?] at hlow hhigh
  | nan s => simp [le, zero, compare?] at hlow
  | finite s m e =>
    rw [zero, le_iff_toRat] at hlow
    rw [hone, le_iff_toRat] at hhigh
    cases s with
    | false => exact ⟨false, m, e, rfl, rfl, hhigh.trans_eq hmagOne, by simp⟩
    | true =>
      have hnone : m = 0 := by
        refine magnitude_eq_zero_iff.mp (le_antisymm ?_ (magnitude_nonneg m e))
        simpa [toRat, magnitude_zero] using hlow
      subst hnone
      refine ⟨true, 0, e, rfl, ?_, ?_, fun _ => rfl⟩
      · simp [toRat, magnitude_zero]
      · rw [magnitude_zero]
        exact zero_le_one

/-! ## Results of rounding -/

/-- A fraction is rounded to a finite number of at most `2 ^ 53` units, or it is a large one. -/
theorem ofRatio_cases (s : Bool) (num : ℕ) (hden : 0 < den) :
    (∃ m e, ofRatio s num den = .finite s m e ∧ magnitude m e = rounded num den ∧ m ≤ 2 ^ 53) ∨
      ofRatio s num den = .infinite s ∧ 2 ^ 64 < (num : ℚ) / den := by
  by_cases hsmall : (num : ℚ) / den ≤ 2 ^ 64
  · obtain ⟨m, e, hfinite⟩ := exists_ofRatio_eq_finite s hden hsmall
    obtain ⟨-, hmag, hm⟩ := ofRatio_eq_finite hden hfinite
    exact .inl ⟨m, e, hfinite, hmag, hm⟩
  · have hnum : num ≠ 0 := by
      rintro rfl
      exact hsmall (by norm_num)
    have hsign : ofRatio s num den = .infinite s ∨ ∃ m e, ofRatio s num den = .finite s m e := by
      rw [ofRatio_of_scaleRound hnum rfl rfl]
      split_ifs <;> simp
    rcases hsign with hinfinite | ⟨m, e, hfinite⟩
    · exact .inr ⟨hinfinite, not_le.mp hsmall⟩
    · obtain ⟨-, hmag, hm⟩ := ofRatio_eq_finite hden hfinite
      exact .inl ⟨m, e, hfinite, hmag, hm⟩

/-- The magnitude of a product is that of the factors, rounded once. -/
theorem mul_finite (s t : Bool) (m n : ℕ) (e f : ℤ) : ∃ num den : ℕ, 0 < den ∧
    (num : ℚ) / den = magnitude m e * magnitude n f ∧
      (finite s m e).mul (.finite t n f) = ofRatio (s != t) num den := by
  obtain ⟨num, den, hden, hfraction, hresult⟩ := ofScaled_eq_ofRatio (s != t) (m * n) (e + f)
  refine ⟨num, den, hden, ?_, hresult⟩
  rw [hfraction]
  unfold magnitude
  rw [zpow_add₀ two_ne_zero]
  push_cast
  ring

/-! ## Whole numbers -/

/-- A fraction is rounded up to the next whole number if something is left. -/
theorem ceil_div_eq (num : ℕ) (hden : 0 < den) :
    ⌈(num : ℚ) / den⌉₊ = if num % den = 0 then num / den else num / den + 1 := by
  have hdenQ : (0 : ℚ) < den := by exact_mod_cast hden
  have hsplit := Nat.div_add_mod' num den
  split_ifs with hrest
  · have hwhole : (num : ℚ) / den = (num / den : ℕ) := by
      rw [div_eq_iff hdenQ.ne']
      exact_mod_cast (by omega : num = num / den * den)
    rw [hwhole, Nat.ceil_natCast]
  · rw [Nat.ceil_eq_iff (Nat.add_one_ne_zero _), Nat.add_sub_cancel, lt_div_iff₀ hdenQ,
      div_le_iff₀ hdenQ]
    have hlt := Nat.mod_lt num hden
    constructor
    · exact_mod_cast (by omega : num / den * den < num)
    · have habove : num ≤ (num / den + 1) * den := by rw [Nat.add_mul]; omega
      exact_mod_cast habove

/-- Rounding up gives the ceiling of the magnitude, as a number of the format. -/
theorem ceil_finite (m : ℕ) (e : ℤ) :
    ceil (.finite false m e) = ofRatio false ⌈magnitude m e⌉₊ 1 := by
  unfold ceil wholePart
  by_cases hsign : 0 ≤ e
  · rw [magnitude_of_nonneg m hsign, Nat.ceil_natCast]
    simp [hsign]
  · rw [magnitude_of_neg m (not_le.mp hsign), ceil_div_eq m (twoPow_pos _)]
    simp only [hsign, if_false]
    split_ifs <;> simp_all

/-- A whole number up to `2 ^ 53` is a number of the format. -/
theorem rounded_of_le (h : n ≤ 2 ^ 53) : rounded n 1 = n := by
  simpa using rounded_mul_two_pow h 0

/-- The ceiling of a number of at most `2 ^ 53` units is a number of the format. -/
theorem rounded_ceil (hm : m ≤ 2 ^ 53) (e : ℤ) :
    rounded ⌈magnitude m e⌉₊ 1 = ⌈magnitude m e⌉₊ := by
  by_cases hsign : 0 ≤ e
  · rw [magnitude_of_nonneg m hsign, Nat.ceil_natCast]
    exact rounded_mul_two_pow hm _
  · have hle : ⌈magnitude m e⌉₊ ≤ m := by
      rw [Nat.ceil_le]
      exact mul_le_of_le_one_right (Nat.cast_nonneg m)
        (zpow_le_one_of_nonpos₀ one_le_two (by omega))
    exact rounded_of_le (hle.trans hm)

/-- A whole number of the format is taken into a range of words. -/
theorem toIntClamped_ofRatio {k hi : ℕ} (hk : rounded k 1 = k) (hhi : hi ≤ 2 ^ 64) :
    (ofRatio false k 1).toIntClamped 0 hi = (min k hi : ℕ) := by
  rcases ofRatio_cases false k one_pos with ⟨m, e, hfinite, hmag, -⟩ | ⟨hinfinite, hlarge⟩
  · rw [hfinite, toIntClamped, wholePart_eq_floor, hmag, hk, Nat.floor_natCast]
    simp
  · rw [Nat.cast_one, div_one] at hlarge
    have hgreater : 2 ^ 64 < k := by exact_mod_cast hlarge
    rw [hinfinite, min_eq_right (hhi.trans hgreater.le)]
    rfl

/-- A fraction that is rounded to a number of the format, and that up to a whole number, in a range
of words. -/
theorem toIntClamped_ceil_ofRatio (num : ℕ) {hi : ℕ} (hden : 0 < den) (hhi : hi ≤ 2 ^ 64) :
    (ofRatio false num den).ceil.toIntClamped 0 hi = (min ⌈rounded num den⌉₊ hi : ℕ) := by
  rcases ofRatio_cases false num hden with ⟨m, e, hfinite, hmag, hm⟩ | ⟨hinfinite, hlarge⟩
  · rw [hfinite, ceil_finite, toIntClamped_ofRatio (rounded_ceil hm e) hhi, hmag]
  · have hlow : ((2 ^ 64 : ℕ) : ℚ) ≤ rounded num den :=
      calc ((2 ^ 64 : ℕ) : ℚ) = rounded (1 * 2 ^ 64) 1 := by
            rw [rounded_mul_two_pow (by norm_num), one_mul]
        _ ≤ rounded num den := rounded_mono one_pos hden (by norm_num; linarith)
    have hceil : 2 ^ 64 ≤ ⌈rounded num den⌉₊ := by
      exact_mod_cast hlow.trans (Nat.le_ceil _)
    rw [hinfinite, min_eq_right (hhi.trans hceil)]
    rfl

/-- A fraction up to `2 ^ 53` is not rounded beyond its ceiling, nor below the whole number before
that. -/
theorem ceil_rounded_near (hden : 0 < den) (h : ⌈(num : ℚ) / den⌉₊ ≤ 2 ^ 53) :
    ⌈rounded num den⌉₊ ≤ ⌈(num : ℚ) / den⌉₊ ∧ ⌈(num : ℚ) / den⌉₊ ≤ ⌈rounded num den⌉₊ + 1 := by
  constructor
  · rw [Nat.ceil_le, ← rounded_of_le h]
    exact rounded_mono hden one_pos (by rw [Nat.cast_one, div_one]; exact Nat.le_ceil _)
  · rcases Nat.eq_zero_or_pos ⌈(num : ℚ) / den⌉₊ with hzero | hpos
    · rw [hzero]
      exact Nat.zero_le _
    · have hbefore : ((⌈(num : ℚ) / den⌉₊ - 1 : ℕ) : ℚ) ≤ num / den :=
        (Nat.lt_ceil.mp (Nat.sub_one_lt hpos.ne')).le
      have hlow : ((⌈(num : ℚ) / den⌉₊ - 1 : ℕ) : ℚ) ≤ rounded num den := by
        rw [← rounded_of_le ((Nat.sub_le _ 1).trans h)]
        exact rounded_mono one_pos hden (by rwa [Nat.cast_one, div_one])
      have hceil : ⌈(num : ℚ) / den⌉₊ - 1 ≤ ⌈rounded num den⌉₊ := by
        exact_mod_cast hlow.trans (Nat.le_ceil _)
      omega

end Binary64

end WorkloadReplay
