import Mathlib.Algebra.Order.Field.Power
import Mathlib.Algebra.Order.Floor.Semifield
import Mathlib.Data.Rat.Floor
import Mathlib.Tactic.FieldSimp
import Mathlib.Tactic.Linarith
import Mathlib.Tactic.NormNum
import Mathlib.Tactic.Positivity
import Mathlib.Tactic.Ring
import WorkloadReplay.Numeric.Binary64

/-!
# Rounding keeps the order

A fraction is rounded to a number of the 64-bit format in two steps: `floorLog2` places the grid on
which the number lies, and `scaleRound` picks the nearest point of it. Each step keeps the order of
fractions: `roundHalfEven_mono` on one grid, and `rounded_mono` across grids, since the finer grid
ends where the coarser one begins. So a greater fraction is never rounded to a smaller number.

Small whole numbers are numbers of the format (`rounded_natCast`).
-/

namespace WorkloadReplay

/-- A power of two as a rational number. -/
@[simp] theorem twoPow_cast (n : ℕ) : ((twoPow n : ℕ) : ℚ) = 2 ^ n := by
  unfold twoPow
  exact_mod_cast rfl

/-- Powers of two are positive. -/
theorem twoPow_pos (n : ℕ) : 0 < twoPow n := Nat.two_pow_pos n

/-! ## Rounding to a whole number -/

/-- A number in terms of its quotient and its remainder. -/
theorem mul_add_div_mod {den q r : ℕ} (hr : r < den) :
    (den * q + r) / den = q ∧ (den * q + r) % den = r := by
  constructor
  · rw [Nat.mul_add_div (Nat.zero_lt_of_lt hr), Nat.div_eq_of_lt hr, Nat.add_zero]
  · rw [Nat.mul_add_mod, Nat.mod_eq_of_lt hr]

/-- A greater fraction is not rounded to a smaller whole number. -/
theorem roundHalfEven_mono {num den num' den' : ℕ} (hden : 0 < den) (hden' : 0 < den')
    (h : (num : ℚ) / den ≤ num' / den') : roundHalfEven num den ≤ roundHalfEven num' den' := by
  have hcross : num * den' ≤ num' * den := by
    rw [div_le_div_iff₀ (by exact_mod_cast hden) (by exact_mod_cast hden')] at h
    exact_mod_cast h
  obtain ⟨q, r, hr, rfl⟩ : ∃ q r, r < den ∧ num = den * q + r :=
    ⟨num / den, num % den, Nat.mod_lt _ hden, (Nat.div_add_mod num den).symm⟩
  obtain ⟨q', r', hr', rfl⟩ : ∃ q' r', r' < den' ∧ num' = den' * q' + r' :=
    ⟨num' / den', num' % den', Nat.mod_lt _ hden', (Nat.div_add_mod num' den').symm⟩
  unfold roundHalfEven
  rw [(mul_add_div_mod hr).1, (mul_add_div_mod hr).2, (mul_add_div_mod hr').1,
    (mul_add_div_mod hr').2]
  dsimp only
  rcases Nat.lt_trichotomy q q' with hlt | rfl | hgt
  · -- The quotients differ, and rounding adds one at most.
    split_ifs <;> omega
  · -- The quotients are the same, so the remainders decide.
    have hrest : r * den' ≤ r' * den := by nlinarith
    have hup : den ≤ 2 * r → den' ≤ 2 * r' := fun hle => by
      by_contra hnot
      nlinarith
    have hupLt : den < 2 * r → den' < 2 * r' := fun hlt => by
      by_contra hnot
      nlinarith
    split_ifs <;> omega
  · exfalso
    have : den * den' * (q' + 1) ≤ den * den' * q := Nat.mul_le_mul_left _ hgt
    nlinarith

/-- A whole number is rounded to itself. -/
theorem roundHalfEven_mul (n : ℕ) {den : ℕ} (hden : 0 < den) : roundHalfEven (n * den) den = n := by
  unfold roundHalfEven
  rw [Nat.mul_div_cancel n hden, Nat.mul_mod_left]
  simp [hden]

/-- A fraction that does not exceed a whole number is not rounded beyond it. -/
theorem roundHalfEven_le {num den n : ℕ} (hden : 0 < den) (h : (num : ℚ) / den ≤ n) :
    roundHalfEven num den ≤ n := by
  rw [← roundHalfEven_mul n hden]
  refine roundHalfEven_mono hden hden (le_trans h (le_of_eq ?_))
  have : (den : ℚ) ≠ 0 := by exact_mod_cast hden.ne'
  push_cast
  field_simp

/-- A fraction that reaches a whole number is not rounded below it. -/
theorem le_roundHalfEven {num den n : ℕ} (hden : 0 < den) (h : (n : ℚ) ≤ num / den) :
    n ≤ roundHalfEven num den := by
  rw [← roundHalfEven_mul n hden]
  refine roundHalfEven_mono hden hden (le_trans (le_of_eq ?_) h)
  have : (den : ℚ) ≠ 0 := by exact_mod_cast hden.ne'
  push_cast
  field_simp

namespace Binary64

/-- The number `mant * 2 ^ exp`. -/
def magnitude (mant : ℕ) (exp : ℤ) : ℚ := mant * 2 ^ exp

/-- A magnitude is not negative. -/
theorem magnitude_nonneg (mant : ℕ) (exp : ℤ) : 0 ≤ magnitude mant exp := by
  unfold magnitude
  positivity

/-! ## The grid of a fraction -/

/-- A power of two with a whole exponent, from its two one-sided forms. -/
theorem zpow_toNat {k : ℤ} (h : 0 ≤ k) : (2 : ℚ) ^ k.toNat = 2 ^ k := by
  rw [← zpow_natCast, Int.toNat_of_nonneg h]

/-- In units that are not below one a number is whole. -/
theorem magnitude_of_nonneg (mant : ℕ) {exp : ℤ} (h : 0 ≤ exp) :
    magnitude mant exp = (mant * twoPow exp.toNat : ℕ) := by
  unfold magnitude
  push_cast
  rw [twoPow_cast, zpow_toNat h]

/-- In units below one a number is a fraction. -/
theorem magnitude_of_neg (mant : ℕ) {exp : ℤ} (h : exp < 0) :
    magnitude mant exp = (mant : ℚ) / (twoPow (-exp).toNat : ℕ) := by
  unfold magnitude
  rw [twoPow_cast, zpow_toNat (by omega), zpow_neg, div_inv_eq_mul]

/-- The whole part of the binary logarithm of a fraction is what it is said to be. -/
theorem floorLog2_spec {num den : ℕ} (hnum : 0 < num) (hden : 0 < den) :
    (2 : ℚ) ^ floorLog2 num den ≤ num / den ∧ (num : ℚ) / den < 2 ^ (floorLog2 num den + 1) := by
  have hdenQ : (0 : ℚ) < den := by exact_mod_cast hden
  have hnum1 : (2 : ℚ) ^ num.log2 ≤ num := by exact_mod_cast Nat.log2_self_le hnum.ne'
  have hnum2 : (num : ℚ) < 2 ^ (num.log2 + 1) := by exact_mod_cast Nat.lt_log2_self
  have hden1 : (2 : ℚ) ^ den.log2 ≤ den := by exact_mod_cast Nat.log2_self_le hden.ne'
  have hden2 : (den : ℚ) < 2 ^ (den.log2 + 1) := by exact_mod_cast Nat.lt_log2_self
  generalize hk : (num.log2 : ℤ) - den.log2 = k
  have hlow : (2 : ℚ) ^ (k - 1) ≤ num / den := by
    rw [le_div_iff₀ hdenQ]
    calc (2 : ℚ) ^ (k - 1) * den ≤ 2 ^ (k - 1) * 2 ^ (den.log2 + 1) := by gcongr
      _ = 2 ^ num.log2 := by
        rw [← zpow_natCast, ← zpow_natCast, ← zpow_add₀ two_ne_zero]
        congr 1
        push_cast
        omega
      _ ≤ num := hnum1
  have hhigh : (num : ℚ) / den < 2 ^ (k + 1) := by
    rw [div_lt_iff₀ hdenQ]
    calc (num : ℚ) < 2 ^ (num.log2 + 1) := hnum2
      _ = 2 ^ (k + 1) * 2 ^ den.log2 := by
        rw [← zpow_natCast, ← zpow_natCast, ← zpow_add₀ two_ne_zero]
        congr 1
        push_cast
        omega
      _ ≤ 2 ^ (k + 1) * den := by gcongr
  -- The test in the definition compares the fraction with the power of the estimate.
  have hreaches : (if 0 ≤ k then decide (den * twoPow k.toNat ≤ num)
      else decide (den ≤ num * twoPow (-k).toNat)) = true ↔ (2 : ℚ) ^ k ≤ num / den := by
    rw [le_div_iff₀ hdenQ]
    split_ifs with hsign
    · rw [decide_eq_true_iff, ← Nat.cast_le (α := ℚ)]
      push_cast
      rw [twoPow_cast, zpow_toNat hsign, mul_comm]
    · have hinv : (2 : ℚ) ^ (-k).toNat = (2 ^ k)⁻¹ := by
        rw [zpow_toNat (by omega), zpow_neg]
      rw [decide_eq_true_iff, ← Nat.cast_le (α := ℚ)]
      push_cast
      rw [twoPow_cast, hinv, ← div_eq_mul_inv, le_div_iff₀ (by positivity), mul_comm]
  unfold floorLog2
  dsimp only
  rw [hk]
  by_cases h : (2 : ℚ) ^ k ≤ num / den
  · have htest := hreaches.mpr h
    rw [if_pos htest]
    exact ⟨h, hhigh⟩
  · have htest := mt hreaches.mp h
    rw [if_neg htest]
    refine ⟨hlow, ?_⟩
    rw [sub_add_cancel]
    exact not_le.mp h

/-- A fraction in units of a power of two is rounded as a whole number. -/
theorem exists_scaleRound (num : ℕ) {den : ℕ} (hden : 0 < den) (exp : ℤ) :
    ∃ num' den', 0 < den' ∧ scaleRound num den exp = roundHalfEven num' den' ∧
      (num' : ℚ) / den' = num / den / 2 ^ exp := by
  have hdenQ : (den : ℚ) ≠ 0 := by exact_mod_cast hden.ne'
  unfold scaleRound
  by_cases hsign : 0 ≤ exp
  · rw [if_pos hsign]
    refine ⟨_, _, Nat.mul_pos hden (twoPow_pos _), rfl, ?_⟩
    push_cast
    rw [twoPow_cast, zpow_toNat hsign, div_div]
  · rw [if_neg hsign]
    refine ⟨_, _, hden, rfl, ?_⟩
    push_cast
    rw [twoPow_cast, zpow_toNat (by omega), zpow_neg]
    field_simp

/-- A fraction that is a whole number of units is rounded to that number. -/
theorem scaleRound_eq {num den n : ℕ} {exp : ℤ} (hden : 0 < den)
    (h : (num : ℚ) / den = n * 2 ^ exp) : scaleRound num den exp = n := by
  obtain ⟨a, b, hb, heq, hab⟩ := exists_scaleRound num hden exp
  have hunits : (a : ℚ) / b = n := by
    rw [hab, h, mul_div_cancel_right₀ _ (by positivity)]
  rw [heq]
  exact le_antisymm (roundHalfEven_le hb hunits.le) (le_roundHalfEven hb hunits.ge)

/-- On one grid a greater fraction is not rounded to a smaller number. -/
theorem scaleRound_mono {num den num' den' : ℕ} (hden : 0 < den) (hden' : 0 < den')
    (h : (num : ℚ) / den ≤ num' / den') (exp : ℤ) :
    scaleRound num den exp ≤ scaleRound num' den' exp := by
  obtain ⟨a, b, hb, heq, hab⟩ := exists_scaleRound num hden exp
  obtain ⟨a', b', hb', heq', hab'⟩ := exists_scaleRound num' hden' exp
  rw [heq, heq']
  refine roundHalfEven_mono hb hb' ?_
  rw [hab, hab']
  gcongr

/-- The exponent of the grid on which a fraction is rounded. -/
def gridExp (num den : ℕ) : ℤ := max (floorLog2 num den - 52) minExp

/-- A fraction that is rounded on its grid. -/
def rounded (num den : ℕ) : ℚ := magnitude (scaleRound num den (gridExp num den)) (gridExp num den)

/-- On its own grid a fraction is rounded to `2 ^ 53` units at most. -/
theorem scaleRound_gridExp_le (num : ℕ) {den : ℕ} (hden : 0 < den) :
    scaleRound num den (gridExp num den) ≤ 2 ^ 53 := by
  obtain ⟨a, b, hb, heq, hab⟩ := exists_scaleRound num hden (gridExp num den)
  rw [heq]
  refine roundHalfEven_le hb ?_
  rw [hab, div_le_iff₀ (by positivity)]
  rcases Nat.eq_zero_or_pos num with rfl | hnum
  · simp only [Nat.cast_zero, zero_div]
    positivity
  · have hle : floorLog2 num den + 1 ≤ 53 + gridExp num den := by
      unfold gridExp
      omega
    calc (num : ℚ) / den ≤ 2 ^ (floorLog2 num den + 1) := (floorLog2_spec hnum hden).2.le
      _ ≤ 2 ^ (53 + gridExp num den) := zpow_le_zpow_right₀ (by norm_num) hle
      _ = ((2 ^ 53 : ℕ) : ℚ) * 2 ^ gridExp num den := by
        rw [zpow_add₀ two_ne_zero]
        norm_num

/-- Above the finest grid a fraction is rounded to `2 ^ 52` units at least. -/
theorem le_scaleRound_gridExp {num den : ℕ} (hnum : 0 < num) (hden : 0 < den)
    (h : minExp < gridExp num den) : 2 ^ 52 ≤ scaleRound num den (gridExp num den) := by
  obtain ⟨a, b, hb, heq, hab⟩ := exists_scaleRound num hden (gridExp num den)
  rw [heq]
  refine le_roundHalfEven hb ?_
  rw [hab, le_div_iff₀ (by positivity)]
  have hexp : 52 + gridExp num den = floorLog2 num den := by
    unfold gridExp at h ⊢
    omega
  calc ((2 ^ 52 : ℕ) : ℚ) * 2 ^ gridExp num den = 2 ^ (52 + gridExp num den) := by
        rw [zpow_add₀ two_ne_zero]
        norm_num
    _ = 2 ^ floorLog2 num den := by rw [hexp]
    _ ≤ num / den := (floorLog2_spec hnum hden).1

/-- A greater positive fraction has no finer grid. -/
theorem gridExp_mono {num den num' den' : ℕ} (hnum : 0 < num) (hden : 0 < den) (hnum' : 0 < num')
    (hden' : 0 < den') (h : (num : ℚ) / den ≤ num' / den') :
    gridExp num den ≤ gridExp num' den' := by
  have hlt : (2 : ℚ) ^ floorLog2 num den < 2 ^ (floorLog2 num' den' + 1) :=
    lt_of_le_of_lt ((floorLog2_spec hnum hden).1.trans h) (floorLog2_spec hnum' hden').2
  have hle := (zpow_lt_zpow_iff_right₀ (by norm_num : (1 : ℚ) < 2)).mp hlt
  unfold gridExp
  omega

/-- Nothing is rounded to nothing. -/
theorem rounded_zero {den : ℕ} (hden : 0 < den) : rounded 0 den = 0 := by
  unfold rounded magnitude
  rw [scaleRound_eq (n := 0) hden (by simp), Nat.cast_zero, zero_mul]

/-- A greater fraction is not rounded to a smaller number. -/
theorem rounded_mono {num den num' den' : ℕ} (hden : 0 < den) (hden' : 0 < den')
    (h : (num : ℚ) / den ≤ num' / den') : rounded num den ≤ rounded num' den' := by
  rcases Nat.eq_zero_or_pos num with rfl | hnum
  · rw [rounded_zero hden]
    exact magnitude_nonneg _ _
  have hnum' : 0 < num' := by
    by_contra hnot
    obtain rfl : num' = 0 := by omega
    rw [Nat.cast_zero, zero_div] at h
    have hpos : (0 : ℚ) < num / den :=
      div_pos (by exact_mod_cast hnum) (by exact_mod_cast hden)
    linarith
  unfold rounded magnitude
  rcases (gridExp_mono hnum hden hnum' hden' h).lt_or_eq with hlt | heq
  · -- The coarser grid begins where the finer one ends.
    have hlow := scaleRound_gridExp_le num hden
    have hhigh := le_scaleRound_gridExp hnum' hden'
      (lt_of_le_of_lt (le_max_right (floorLog2 num den - 52) minExp) hlt)
    calc (scaleRound num den (gridExp num den) : ℚ) * 2 ^ gridExp num den
        ≤ ((2 ^ 53 : ℕ) : ℚ) * 2 ^ gridExp num den := by gcongr
      _ = ((2 ^ 52 : ℕ) : ℚ) * 2 ^ (gridExp num den + 1) := by
        rw [zpow_add₀ two_ne_zero]
        norm_num
        ring
      _ ≤ ((2 ^ 52 : ℕ) : ℚ) * 2 ^ gridExp num' den' := by
        gcongr
        · norm_num
        · omega
      _ ≤ (scaleRound num' den' (gridExp num' den') : ℚ) * 2 ^ gridExp num' den' := by gcongr
  · rw [heq]
    have hmono := scaleRound_mono hden hden' h (gridExp num' den')
    gcongr

/-- A whole number below `2 ^ 53` is rounded to itself. -/
theorem rounded_natCast {n : ℕ} (h : n < 2 ^ 53) : rounded n 1 = n := by
  have hexp : gridExp n 1 ≤ 0 := by
    rcases Nat.eq_zero_or_pos n with rfl | hn
    · decide
    have hlow := (floorLog2_spec hn one_pos).1
    have hlt : (2 : ℚ) ^ floorLog2 n 1 < 2 ^ (53 : ℤ) := by
      refine lt_of_le_of_lt hlow ?_
      rw [Nat.cast_one, div_one]
      exact_mod_cast h
    have := (zpow_lt_zpow_iff_right₀ (by norm_num : (1 : ℚ) < 2)).mp hlt
    unfold gridExp minExp
    omega
  unfold rounded magnitude
  generalize gridExp n 1 = e at hexp ⊢
  -- The grid is that of the whole numbers or finer, so the number lies on it.
  have hunits : ((n * 2 ^ (-e).toNat : ℕ) : ℚ) * 2 ^ e = n := by
    push_cast
    rw [zpow_toNat (by omega), mul_assoc, ← zpow_add₀ two_ne_zero, neg_add_cancel, zpow_zero,
      mul_one]
  rw [scaleRound_eq (n := n * 2 ^ (-e).toNat) one_pos (by rw [hunits, Nat.cast_one, div_one]),
    hunits]

/-! ## Numbers of the format -/

/-- How a fraction is rounded, by the units of its grid. -/
theorem ofRatio_of_scaleRound {s : Bool} {num den k : ℕ} {g : ℤ} (hnum : num ≠ 0)
    (hg : gridExp num den = g) (hk : scaleRound num den g = k) : ofRatio s num den =
      if k = twoPow 53 then
        if maxExp < g + 1 then .infinite s else .finite s (twoPow 52) (g + 1)
      else if maxExp < g then .infinite s else .finite s k g := by
  unfold gridExp at hg
  unfold ofRatio
  rw [if_neg hnum]
  dsimp only
  rw [hg, hk]
  by_cases hcarry : k = twoPow 53 <;> simp [hcarry]

/-- A fraction that is rounded to a finite number keeps its sign, is rounded on its grid, and has
no more than `2 ^ 53` units of it. -/
theorem ofRatio_eq_finite {s s' : Bool} {num den m : ℕ} {e : ℤ} (hden : 0 < den)
    (h : ofRatio s num den = .finite s' m e) :
    s' = s ∧ magnitude m e = rounded num den ∧ m ≤ 2 ^ 53 := by
  rcases Nat.eq_zero_or_pos num with rfl | hnum
  · unfold ofRatio zero at h
    rw [if_pos rfl] at h
    obtain ⟨rfl, rfl, rfl⟩ := Binary64.finite.inj h
    refine ⟨rfl, ?_, Nat.zero_le _⟩
    rw [rounded_zero hden, magnitude, Nat.cast_zero, zero_mul]
  · rw [ofRatio_of_scaleRound hnum.ne' rfl rfl] at h
    have hle := scaleRound_gridExp_le num hden
    unfold rounded
    generalize scaleRound num den (gridExp num den) = k at h hle ⊢
    generalize gridExp num den = g at h ⊢
    -- A rounding up to `2 ^ 53` units is `2 ^ 52` units of the next grid.
    split_ifs at h with hcarry
    · obtain ⟨rfl, rfl, rfl⟩ := Binary64.finite.inj h
      refine ⟨rfl, ?_, by decide⟩
      unfold magnitude
      rw [hcarry, twoPow_cast, twoPow_cast, zpow_add₀ two_ne_zero]
      ring
    · obtain ⟨rfl, rfl, rfl⟩ := Binary64.finite.inj h
      exact ⟨rfl, rfl, hle⟩

/-- A number of units is rounded as a fraction. -/
theorem ofScaled_eq_ofRatio (s : Bool) (m : ℕ) (e : ℤ) : ∃ num den : ℕ, 0 < den ∧
    (num : ℚ) / den = magnitude m e ∧ ofScaled s m e = ofRatio s num den := by
  unfold ofScaled
  split_ifs with hsign
  · refine ⟨_, _, one_pos, ?_, rfl⟩
    rw [magnitude_of_nonneg m hsign, Nat.cast_one, div_one]
  · exact ⟨_, _, twoPow_pos _, (magnitude_of_neg m (not_le.mp hsign)).symm, rfl⟩

/-- What a number in units of a power of two is rounded to. -/
theorem ofScaled_eq_finite {s s' : Bool} {m m' : ℕ} {e e' : ℤ}
    (h : ofScaled s m e = .finite s' m' e') :
    s' = s ∧ m' ≤ 2 ^ 53 ∧ ∃ num den : ℕ, 0 < den ∧ (num : ℚ) / den = magnitude m e ∧
      magnitude m' e' = rounded num den := by
  obtain ⟨num, den, hden, hfraction, hresult⟩ := ofScaled_eq_ofRatio s m e
  obtain ⟨hs, hm, hle⟩ := ofRatio_eq_finite hden (hresult.symm.trans h)
  exact ⟨hs, hle, num, den, hden, hfraction, hm⟩

/-- The whole part of a number is that of its magnitude. -/
theorem wholePart_eq_floor (m : ℕ) (e : ℤ) : (wholePart m e).1 = ⌊magnitude m e⌋₊ := by
  unfold wholePart
  split_ifs with hsign
  · rw [magnitude_of_nonneg m hsign, Nat.floor_natCast]
  · rw [magnitude_of_neg m (not_le.mp hsign), Nat.floor_div_eq_div]

/-- A number of at most `2 ^ 53` units is rounded to the nearest whole number, a half going away
from zero. -/
theorem round_eq_finite {s s' : Bool} {m m' : ℕ} {e e' : ℤ} (hm : m ≤ 2 ^ 53)
    (h : round (.finite s m e) = .finite s' m' e') :
    s' = s ∧ (wholePart m' e').1 = ⌊magnitude m e + 1 / 2⌋₊ := by
  unfold round at h
  simp only at h
  rw [wholePart_eq_floor]
  split_ifs at h with hsign
  · obtain ⟨rfl, rfl, rfl⟩ := Binary64.finite.inj h
    refine ⟨rfl, ?_⟩
    -- The number is whole already.
    rw [magnitude_of_nonneg m hsign, Nat.floor_natCast]
    exact ((Nat.floor_eq_iff (by positivity)).mpr ⟨by linarith, by linarith⟩).symm
  · rw [magnitude_of_neg m (not_le.mp hsign)]
    generalize hden : twoPow (-e).toNat = den at h ⊢
    have hpos : 0 < den := hden ▸ twoPow_pos _
    have hfloor : (2 * m + den) / (2 * den) = ⌊(m : ℚ) / den + 1 / 2⌋₊ := by
      rw [← Nat.floor_div_eq_div (K := ℚ)]
      congr 1
      have hne : (den : ℚ) ≠ 0 := by exact_mod_cast hpos.ne'
      push_cast
      field_simp
    obtain ⟨rfl, hmag, -⟩ := ofRatio_eq_finite one_pos h
    refine ⟨rfl, ?_⟩
    -- A number with binary places is small enough for its whole part to be one of the format.
    have htwo : 2 ≤ den := by
      rw [← hden]
      exact Nat.le_self_pow (by omega) 2
    have hsmall : (2 * m + den) / (2 * den) < 2 ^ 53 := by
      rw [Nat.div_lt_iff_lt_mul (by omega)]
      nlinarith
    rw [hmag, rounded_natCast hsmall, Nat.floor_natCast, hfloor]

end Binary64

end WorkloadReplay
