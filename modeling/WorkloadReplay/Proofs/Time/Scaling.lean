import WorkloadReplay.Proofs.Numeric.Rounding
import WorkloadReplay.Proofs.Time.Order

/-!
# Scaled durations

A duration is multiplied by a ratio in floating point: its nanoseconds are rounded to a number of
the format, the product is rounded, and the result is rounded to a whole number of nanoseconds.
`Duration.scale_eq_some` says what comes out, in rational numbers. Each of the three roundings keeps
the order of magnitudes, and signs are treated alike, so a longer duration is never scaled to a
shorter one (`Duration.scale_mono`).
-/

namespace WorkloadReplay

/-- A ratio that is positive and finite. -/
structure Binary64.Positive (ratio : Binary64) : Prop where
  finite : ratio.isFinite = true
  positive : (Binary64.zero false).lt ratio = true

/-- A positive ratio is a positive number of units. -/
theorem Binary64.Positive.eq_finite {ratio : Binary64} (h : ratio.Positive) :
    ∃ m e, ratio = .finite false m e := by
  obtain ⟨hfinite, hpositive⟩ := h
  cases ratio with
  | infinite s => simp [isFinite] at hfinite
  | nan s => simp [isFinite] at hfinite
  | finite s m e =>
    cases s with
    | false => exact ⟨m, e, rfl⟩
    | true =>
      -- A negative number of units is not above zero.
      have hlt : (0 : ℤ) < -(m * twoPow (e - min minExp e).toNat : ℕ) := by
        simpa [lt, compare?, signedAt, zero, compare_lt_iff_lt] using hpositive
      omega

namespace Duration

/-- Durations compare as their nanoseconds do. -/
theorem le_iff {a b : Duration} : a ≤ b ↔ a.nanos ≤ b.nanos := Iff.rfl

/-- What a duration is scaled to: the magnitude of its nanoseconds is rounded to a number of the
format, multiplied, rounded again, and then rounded to a whole number. -/
theorem scale_eq_some {d d' : Duration} {m : ℕ} {e : ℤ}
    (h : d.scale (.finite false m e) = some d') :
    ∃ num den : ℕ, 0 < den ∧
      (num : ℚ) / den = Binary64.rounded d.nanos.natAbs 1 * Binary64.magnitude m e ∧
      d'.nanos = if d.nanos < 0 then -(⌊Binary64.rounded num den + 1 / 2⌋₊ : ℤ)
        else ⌊Binary64.rounded num den + 1 / 2⌋₊ := by
  unfold scale at h
  split at h
  case h_2 => simp at h
  rename_i s₃ m₃ e₃ hround
  dsimp only at h
  obtain ⟨hfits, hsome⟩ := Option.dite_none_right_eq_some.mp h
  have hresult : (if s₃ = true then -((Binary64.wholePart m₃ e₃).1 : ℤ)
      else (Binary64.wholePart m₃ e₃).1) = d'.nanos := congrArg nanos (Option.some.inj hsome)
  -- The number of nanoseconds and the product must be finite for the result to be.
  cases hnanos : Binary64.ofInt d.nanos with
  | infinite s =>
    rw [hnanos] at hround
    by_cases hm : m = 0 <;> simp [Binary64.mul, Binary64.round, hm] at hround
  | nan s =>
    rw [hnanos] at hround
    simp [Binary64.mul, Binary64.round] at hround
  | finite s₁ m₁ e₁ =>
    obtain ⟨rfl, hmag₁, -⟩ := Binary64.ofRatio_eq_finite one_pos hnanos
    rw [hnanos, Binary64.mul] at hround
    cases hproduct : Binary64.ofScaled (decide (d.nanos < 0) != false) (m₁ * m) (e₁ + e) with
    | infinite s =>
      rw [hproduct] at hround
      simp [Binary64.round] at hround
    | nan s =>
      rw [hproduct] at hround
      simp [Binary64.round] at hround
    | finite s₂ m₂ e₂ =>
      obtain ⟨rfl, hle, num, den, hden, hfraction, hmag₂⟩ := Binary64.ofScaled_eq_finite hproduct
      rw [hproduct] at hround
      obtain ⟨rfl, hwhole⟩ := Binary64.round_eq_finite hle hround
      refine ⟨num, den, hden, ?_, ?_⟩
      · rw [hfraction, ← hmag₁]
        unfold Binary64.magnitude
        rw [zpow_add₀ two_ne_zero]
        push_cast
        ring
      · rw [hwhole, hmag₂] at hresult
        rw [← hresult]
        simp

/-- A duration that does not go back is not scaled to one that does. -/
theorem scale_nonneg {d d' : Duration} {ratio : Binary64} (hratio : ratio.Positive)
    (hnonneg : 0 ≤ d.nanos) (h : d.scale ratio = some d') : 0 ≤ d'.nanos := by
  obtain ⟨m, e, rfl⟩ := hratio.eq_finite
  obtain ⟨num, den, -, -, hnanos⟩ := scale_eq_some h
  rw [hnanos, if_neg (not_lt.mpr hnonneg)]
  exact Int.natCast_nonneg _

/-- No time at all is scaled to none. -/
theorem scale_zero {ratio : Binary64} (hratio : ratio.Positive) :
    zero.scale ratio = some zero := by
  obtain ⟨m, e, rfl⟩ := hratio.eq_finite
  have hproduct : (Binary64.ofInt 0).mul (.finite false m e) = Binary64.zero false := by
    have hofInt : Binary64.ofInt 0 = .finite false 0 Binary64.minExp := rfl
    rw [hofInt, Binary64.mul, Binary64.ofScaled]
    simp [Binary64.ofRatio]
  have hround : (Binary64.zero false).round = Binary64.zero false := by decide +kernel
  unfold scale
  have hnanos : zero.nanos = 0 := rfl
  rw [hnanos, hproduct, hround]
  decide +kernel
/-- Of two magnitudes the greater one is not scaled to the smaller one. -/
theorem floor_scaled_mono {n n' num den num' den' m : ℕ} {e : ℤ} (hden : 0 < den) (hden' : 0 < den')
    (hn : n ≤ n')
    (hfraction : (num : ℚ) / den = Binary64.rounded n 1 * Binary64.magnitude m e)
    (hfraction' : (num' : ℚ) / den' = Binary64.rounded n' 1 * Binary64.magnitude m e) :
    ⌊Binary64.rounded num den + 1 / 2⌋₊ ≤ ⌊Binary64.rounded num' den' + 1 / 2⌋₊ := by
  have hrounded : Binary64.rounded n 1 ≤ Binary64.rounded n' 1 := by
    refine Binary64.rounded_mono one_pos one_pos ?_
    rw [Nat.cast_one, div_one, div_one]
    exact_mod_cast hn
  have hproduct : (num : ℚ) / den ≤ num' / den' :=
    calc (num : ℚ) / den = Binary64.rounded n 1 * Binary64.magnitude m e := hfraction
      _ ≤ Binary64.rounded n' 1 * Binary64.magnitude m e :=
        mul_le_mul_of_nonneg_right hrounded (Binary64.magnitude_nonneg m e)
      _ = num' / den' := hfraction'.symm
  have hresult := Binary64.rounded_mono hden hden' hproduct
  exact Nat.floor_le_floor (by linarith)

/-- A longer duration is not scaled to a shorter one. -/
theorem scale_mono {d₁ d₂ d₁' d₂' : Duration} {ratio : Binary64} (hratio : ratio.Positive)
    (hle : d₁ ≤ d₂) (h₁ : d₁.scale ratio = some d₁') (h₂ : d₂.scale ratio = some d₂') :
    d₁' ≤ d₂' := by
  obtain ⟨m, e, rfl⟩ := hratio.eq_finite
  obtain ⟨num₁, den₁, hden₁, hfraction₁, hnanos₁⟩ := scale_eq_some h₁
  obtain ⟨num₂, den₂, hden₂, hfraction₂, hnanos₂⟩ := scale_eq_some h₂
  rw [le_iff] at hle ⊢
  rw [hnanos₁, hnanos₂]
  split_ifs with hneg₁ hneg₂
  · -- Both are negative, and the first has the greater magnitude.
    have hfloor := floor_scaled_mono hden₂ hden₁ (by omega) hfraction₂ hfraction₁
    omega
  · omega
  · omega
  · have hfloor := floor_scaled_mono hden₁ hden₂ (by omega) hfraction₁ hfraction₂
    omega

end Duration

end WorkloadReplay
