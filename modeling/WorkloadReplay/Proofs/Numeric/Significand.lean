import WorkloadReplay.Proofs.Numeric.Rounding

/-!
# Whole numbers of 53 significant bits

A whole number becomes a number of the 64-bit format by rounding it to 53 significant bits
(`Binary64.rounded_whole`). It stays what it is exactly if it has no more of them
(`Binary64.nearestInt_eq_iff`), and nothing more is lost when the result is rounded again
(`Binary64.rounded_nearestNat`). Beyond `2 ^ 53` not every whole number is one of the format.
-/

namespace WorkloadReplay

/-! ## Rounding to a multiple -/

/-- Rounding to a multiple of a number keeps exactly the multiples of it. -/
theorem roundHalfEven_mul_eq_iff {n den : ℕ} (hden : 0 < den) :
    roundHalfEven n den * den = n ↔ den ∣ n := by
  constructor
  · exact fun h => ⟨_, by rw [← h, Nat.mul_comm, Nat.mul_comm den]⟩
  · rintro ⟨q, rfl⟩
    rw [Nat.mul_comm den q, roundHalfEven_mul q hden]

/-- Rounding to a multiple of a number moves up by at most half of that number. -/
theorem roundHalfEven_mul_le (n : ℕ) {den : ℕ} (hden : 0 < den) :
    2 * (roundHalfEven n den * den) ≤ 2 * n + den := by
  have hsplit := Nat.div_add_mod n den
  have hrest := Nat.mod_lt n hden
  rw [Nat.mul_comm] at hsplit
  unfold roundHalfEven
  dsimp only
  have hsucc : (n / den + 1) * den = n / den * den + den := by rw [Nat.add_mul, Nat.one_mul]
  split_ifs <;> omega

namespace Binary64

/-! ## Whole numbers of the format -/

/-- What a unit in the last of 53 significant bits is worth in a natural number. -/
def lastUnit (n : ℕ) : ℕ := 2 ^ (n.log2 - 52)

/-- The number of 53 significant bits nearest to a natural number; halfway between two of them, the
one with the even significand. -/
def nearestNat (n : ℕ) : ℕ := roundHalfEven n (lastUnit n) * lastUnit n

/-- The number of 53 significant bits nearest to a whole number. -/
def nearestInt (n : ℤ) : ℤ := if n < 0 then -(nearestNat n.natAbs : ℤ) else nearestNat n.natAbs

/-- A whole number has at most 53 significant bits. -/
def IsExact (n : ℤ) : Prop := lastUnit n.natAbs ∣ n.natAbs

instance (n : ℤ) : Decidable (IsExact n) := inferInstanceAs (Decidable (_ ∣ _))

/-- The last unit is worth something. -/
theorem lastUnit_pos (n : ℕ) : 0 < lastUnit n := Nat.two_pow_pos _

/-- A whole number is nearest to itself exactly if it has at most 53 significant bits. -/
theorem nearestInt_eq_iff {n : ℤ} : nearestInt n = n ↔ IsExact n := by
  unfold IsExact
  rw [← roundHalfEven_mul_eq_iff (lastUnit_pos _)]
  change _ ↔ nearestNat n.natAbs = n.natAbs
  unfold nearestInt
  split_ifs <;> omega

/-- Up to `2 ^ 53` every whole number has at most 53 significant bits. -/
theorem isExact_of_le {n : ℤ} (h : n.natAbs ≤ 2 ^ 53) : IsExact n := by
  unfold IsExact lastUnit
  rcases h.lt_or_eq with hlt | heq
  · have hlog : n.natAbs.log2 - 52 = 0 := by
      rcases Nat.eq_zero_or_pos n.natAbs with hzero | hpos
      · rw [hzero]
        rfl
      · have := (Nat.log2_lt hpos.ne').mpr hlt
        omega
    rw [hlog]
    exact one_dvd _
  · rw [heq]
    decide +kernel

/-- Rounding to 53 significant bits at most doubles a number. -/
theorem nearestNat_le (n : ℕ) : nearestNat n ≤ 2 * n := by
  rcases Nat.eq_zero_or_pos n with rfl | hpos
  · decide
  · have habove := roundHalfEven_mul_le n (lastUnit_pos n)
    have hunit : lastUnit n ≤ n :=
      (Nat.pow_le_pow_right two_pos (Nat.sub_le _ _)).trans (Nat.log2_self_le hpos.ne')
    unfold nearestNat
    omega

/-! ## They are what fractions are rounded to -/

/-- A whole number has the logarithm that it has as a fraction. -/
theorem floorLog2_one {n : ℕ} (hn : 0 < n) : floorLog2 n 1 = n.log2 := by
  have hreaches : twoPow n.log2 ≤ n := Nat.log2_self_le hn.ne'
  have hlog : Nat.log2 1 = 0 := by decide
  unfold floorLog2
  simp [hlog, hreaches]

/-- Equal fractions are rounded to the same number. -/
theorem rounded_congr {num den num' den' : ℕ} (hden : 0 < den) (hden' : 0 < den')
    (h : (num : ℚ) / den = num' / den') : rounded num den = rounded num' den' :=
  le_antisymm (rounded_mono hden hden' h.le) (rounded_mono hden' hden h.ge)

/-- A whole number of `2 ^ 53` or more is rounded to a multiple of its last unit. -/
theorem gridExp_one {n : ℕ} (hn : 2 ^ 53 ≤ n) : gridExp n 1 = (n.log2 - 52 : ℕ) := by
  have hlog : 53 ≤ n.log2 := (Nat.le_log2 (by omega)).mpr hn
  unfold gridExp minExp
  rw [floorLog2_one (by omega)]
  omega

/-- A multiple of a power of two, by at most `2 ^ 53`, is a number of the format. -/
theorem rounded_mul_two_pow {m : ℕ} (hm : m ≤ 2 ^ 53) (k : ℕ) :
    rounded (m * 2 ^ k) 1 = (m * 2 ^ k : ℕ) := by
  -- A multiple by `2 ^ 53` itself is one by `2 ^ 52` of the next power.
  suffices hlt : ∀ m' k', m' < 2 ^ 53 → rounded (m' * 2 ^ k') 1 = (m' * 2 ^ k' : ℕ) by
    rcases hm.lt_or_eq with h | rfl
    · exact hlt m k h
    · have hnext : 2 ^ 53 * 2 ^ k = 2 ^ 52 * 2 ^ (k + 1) := by
        rw [← Nat.pow_add, ← Nat.pow_add]
        congr 1
        omega
      rw [hnext]
      exact hlt (2 ^ 52) (k + 1) (by norm_num)
  intro m k hm
  rcases lt_or_ge (m * 2 ^ k) (2 ^ 53) with hsmall | hlarge
  · exact rounded_natCast hsmall
  · have hgrid : (m * 2 ^ k).log2 - 52 ≤ k := by
      have hlt : m * 2 ^ k < 2 ^ (53 + k) := by
        rw [Nat.pow_add]
        exact Nat.mul_lt_mul_of_pos_right hm (Nat.two_pow_pos k)
      have := (Nat.log2_lt (by omega)).mpr hlt
      omega
    have hunits : m * 2 ^ k =
        m * 2 ^ (k - ((m * 2 ^ k).log2 - 52)) * 2 ^ ((m * 2 ^ k).log2 - 52) := by
      rw [Nat.mul_assoc, ← Nat.pow_add, Nat.sub_add_cancel hgrid]
    unfold rounded magnitude
    rw [gridExp_one hlarge, zpow_natCast]
    generalize (m * 2 ^ k).log2 - 52 = g at hunits ⊢
    rw [scaleRound_eq (n := m * 2 ^ (k - g)) one_pos]
    · rw [hunits]
      push_cast
      ring
    · rw [hunits, zpow_natCast, Nat.cast_one, div_one]
      push_cast
      ring

/-- A whole number is rounded to the nearest one of 53 significant bits. -/
theorem rounded_whole (n : ℕ) : rounded n 1 = nearestNat n := by
  rcases lt_or_ge n (2 ^ 53) with hsmall | hlarge
  · have hexact := nearestInt_eq_iff.mpr (isExact_of_le (n := n) (by omega))
    rw [rounded_natCast hsmall]
    unfold nearestInt at hexact
    rw [if_neg (by omega), Int.natAbs_natCast] at hexact
    exact_mod_cast hexact.symm
  · unfold rounded magnitude nearestNat lastUnit
    rw [gridExp_one hlarge, zpow_natCast, scaleRound, if_pos (Int.natCast_nonneg _),
      Int.toNat_natCast, Nat.one_mul]
    push_cast
    rfl

/-- The nearest number of 53 significant bits is not rounded any further. -/
theorem rounded_nearestNat (n : ℕ) : rounded (nearestNat n) 1 = nearestNat n := by
  refine rounded_mul_two_pow ?_ _
  -- There are at most `2 ^ 53` last units in a number.
  refine roundHalfEven_le (lastUnit_pos n) ?_
  rw [div_le_iff₀ (by exact_mod_cast lastUnit_pos n)]
  norm_cast
  calc n ≤ 2 ^ (n.log2 + 1) := Nat.lt_log2_self.le
    _ ≤ 2 ^ (53 + (n.log2 - 52)) := Nat.pow_le_pow_right two_pos (by omega)
    _ = 2 ^ 53 * lastUnit n := Nat.pow_add ..

/-! ## Numbers that are not too large are finite -/

/-- A fraction up to `2 ^ 64` is rounded to a finite number. -/
theorem exists_ofRatio_eq_finite (s : Bool) {num den : ℕ} (hden : 0 < den)
    (h : (num : ℚ) / den ≤ 2 ^ 64) : ∃ m e, ofRatio s num den = .finite s m e := by
  rcases Nat.eq_zero_or_pos num with rfl | hnum
  · exact ⟨0, minExp, rfl⟩
  · have hgrid : gridExp num den ≤ 12 := by
      have hmono : gridExp num den ≤ gridExp (2 ^ 64) 1 :=
        gridExp_mono hnum hden (by norm_num) one_pos (h.trans (by norm_num))
      rwa [show gridExp (2 ^ 64) 1 = 12 by decide +kernel] at hmono
    have hfinite : ¬ maxExp < gridExp num den + 1 ∧ ¬ maxExp < gridExp num den := by
      unfold maxExp
      omega
    rw [ofRatio_of_scaleRound hnum.ne' rfl rfl, if_neg hfinite.1, if_neg hfinite.2]
    split_ifs
    · exact ⟨_, _, rfl⟩
    · exact ⟨_, _, rfl⟩

/-- So is a number of units up to `2 ^ 64`. -/
theorem exists_ofScaled_eq_finite (s : Bool) {m : ℕ} {e : ℤ} (h : magnitude m e ≤ 2 ^ 64) :
    ∃ m' e', ofScaled s m e = .finite s m' e' := by
  obtain ⟨num, den, hden, hfraction, hresult⟩ := ofScaled_eq_ofRatio s m e
  rw [hresult]
  exact exists_ofRatio_eq_finite s hden (hfraction.trans_le h)

/-- A number of at most `2 ^ 53` units has a nearest whole number. -/
theorem exists_round_eq_finite (s : Bool) {m : ℕ} (hm : m ≤ 2 ^ 53) (e : ℤ) :
    ∃ m' e', round (.finite s m e) = .finite s m' e' := by
  unfold round
  dsimp only
  split_ifs with hsign
  · exact ⟨m, e, rfl⟩
  · refine exists_ofRatio_eq_finite s one_pos ?_
    have hden := twoPow_pos (-e).toNat
    generalize twoPow (-e).toNat = den at hden ⊢
    have hwhole : (2 * m + den) / (2 * den) ≤ m + 1 := Nat.div_le_of_le_mul (by nlinarith)
    have hsmall : (2 * m + den) / (2 * den) ≤ 2 ^ 64 := by omega
    rw [Nat.cast_one, div_one]
    exact_mod_cast hsmall

/-! ## The product with one -/

/-- A whole number as a number of the format. -/
theorem exists_ofInt_eq_finite {n : ℤ} (h : n.natAbs ≤ 2 ^ 63) :
    ∃ m e, ofInt n = .finite (n < 0) m e ∧ magnitude m e = nearestNat n.natAbs := by
  have hsize : ((n.natAbs : ℕ) : ℚ) / (1 : ℕ) ≤ 2 ^ 64 := by
    have : n.natAbs ≤ 2 ^ 64 := by omega
    rw [Nat.cast_one, div_one]
    exact_mod_cast this
  obtain ⟨m, e, hfinite⟩ := exists_ofRatio_eq_finite (n < 0) one_pos hsize
  obtain ⟨-, hmag, -⟩ := ofRatio_eq_finite one_pos hfinite
  exact ⟨m, e, hfinite, hmag.trans (rounded_whole _)⟩

/-- A number of 53 significant bits is its own product with one. -/
theorem exists_mul_one_eq_finite (s : Bool) {m n : ℕ} {e : ℤ} (hn : n ≤ 2 ^ 63)
    (h : magnitude m e = nearestNat n) : ∃ m' e', (finite s m e).mul (ofNat 1) = .finite s m' e' ∧
      m' ≤ 2 ^ 53 ∧ magnitude m' e' = nearestNat n := by
  have hone : ofNat 1 = .finite false (2 ^ 52) (-52) := by decide +kernel
  have hproduct : magnitude (m * 2 ^ 52) (e + -52) = nearestNat n := by
    rw [← h]
    unfold magnitude
    rw [zpow_add₀ two_ne_zero, zpow_neg]
    push_cast
    field_simp
  have hsize : magnitude (m * 2 ^ 52) (e + -52) ≤ 2 ^ 64 := by
    have : nearestNat n ≤ 2 ^ 64 := (nearestNat_le n).trans (by omega)
    rw [hproduct]
    exact_mod_cast this
  obtain ⟨m', e', hfinite⟩ := exists_ofScaled_eq_finite (s != false) hsize
  obtain ⟨-, hle, num, den, hden, hfraction, hmag⟩ := ofScaled_eq_finite hfinite
  refine ⟨m', e', ?_, hle, ?_⟩
  · rw [hone, mul, hfinite, Bool.bne_false]
  · rw [hmag, ← rounded_nearestNat]
    exact rounded_congr hden one_pos (by rw [hfraction, hproduct, Nat.cast_one, div_one])

/-- The product of a whole number with one, rounded to a whole number: the nearest number of 53
significant bits. -/
theorem exists_round_mul_one {n : ℤ} (h : n.natAbs ≤ 2 ^ 63) :
    ∃ m e, ((ofInt n).mul (ofNat 1)).round = .finite (n < 0) m e ∧
      (wholePart m e).1 = nearestNat n.natAbs := by
  obtain ⟨m₁, e₁, hnumber, hmag₁⟩ := exists_ofInt_eq_finite h
  obtain ⟨m₂, e₂, hproduct, hle, hmag₂⟩ := exists_mul_one_eq_finite (n < 0) h hmag₁
  obtain ⟨m₃, e₃, hround⟩ := exists_round_eq_finite (n < 0) hle e₂
  refine ⟨m₃, e₃, by rw [hnumber, hproduct, hround], ?_⟩
  rw [(round_eq_finite hle hround).2, hmag₂, Nat.floor_eq_iff (by positivity)]
  exact ⟨by linarith, by linarith⟩

end Binary64

end WorkloadReplay
