import WorkloadReplay.Proofs.Metrics.Histograms
import WorkloadReplay.Proofs.Numeric.Ceiling

/-!
# Estimates of quantiles

The rank of a quantile is that of a number among those recorded, and the estimate is the upper end
of the bucket of this number, or the greatest number recorded if that is less
(`Histogram.percentile?_ofValues`). So the estimate is not below the number, it is less than twice
as much unless it is 1, and a greater rank has no smaller estimate.

The rank is computed with the product of the quantile and the count, rounded to a number of the
format. It is the ceiling of the exact product, or one less, which comes of a product that is
rounded down to a whole number (`Histogram.rankOf_near`).
-/

namespace WorkloadReplay

namespace Histogram

variable {values : List Nat} {v w k : Nat}

/-! ## Buckets -/

/-- The greatest number of a bucket is the last one below a power of two. -/
theorem bucketUpperBound_eq (hk : k < bucketCount) : bucketUpperBound k = 2 ^ (k + 1) - 1 := by
  unfold bucketUpperBound bucketCount at *
  split_ifs with hlast
  · obtain rfl : k = 63 := by omega
    rfl
  · rfl

/-- A number falls into a bucket or one before it exactly if it is at most the greatest number of
the bucket. -/
theorem bucketIndex_le_iff (hk : k < bucketCount) (v : Nat) :
    bucketIndex v ≤ k ↔ v ≤ bucketUpperBound k := by
  rw [bucketUpperBound_eq hk, Nat.le_sub_one_iff_lt (Nat.two_pow_pos _), ← Nat.lt_succ_iff]
  unfold bucketIndex
  rcases Nat.eq_zero_or_pos v with rfl | hv
  · simp
  · exact Nat.log2_lt hv.ne'

/-- There is a bucket for each number that can be recorded. -/
theorem bucketIndex_lt (h : v ≤ maxRecorded) : bucketIndex v < bucketCount :=
  have hlast : 63 < bucketCount := by decide
  Nat.lt_of_le_of_lt ((bucketIndex_le_iff hlast v).mpr h) hlast

/-- A number is at most the greatest one of its bucket. -/
theorem le_bucketUpperBound (h : v ≤ maxRecorded) : v ≤ bucketUpperBound (bucketIndex v) :=
  (bucketIndex_le_iff (bucketIndex_lt h) v).mp le_rfl

/-- The greatest number of a bucket is less than twice as much as any number of the bucket, but for
the first bucket. -/
theorem bucketUpperBound_bucketIndex_le (h : v ≤ maxRecorded) :
    bucketUpperBound (bucketIndex v) ≤ max (2 * v - 1) 1 := by
  rw [bucketUpperBound_eq (bucketIndex_lt h)]
  unfold bucketIndex
  rcases Nat.eq_zero_or_pos v with rfl | hv
  · decide
  · have hlow := Nat.log2_self_le hv.ne'
    rw [Nat.pow_succ]
    omega

/-- A greater number does not fall into an earlier bucket. -/
theorem bucketIndex_mono (h : v ≤ w) : bucketIndex v ≤ bucketIndex w := by
  unfold bucketIndex
  rcases Nat.eq_zero_or_pos v with rfl | hv
  · exact Nat.zero_le _
  · exact (Nat.le_log2 (hv.trans_le h).ne').mpr ((Nat.log2_self_le hv.ne').trans h)

/-- A later bucket has no smaller greatest number. -/
theorem bucketUpperBound_mono {l : Nat} (hl : l < bucketCount) (h : k ≤ l) :
    bucketUpperBound k ≤ bucketUpperBound l := by
  rw [bucketUpperBound_eq hl, bucketUpperBound_eq (Nat.lt_of_le_of_lt h hl)]
  exact Nat.sub_le_sub_right (Nat.pow_le_pow_right two_pos (Nat.succ_le_succ h)) 1

/-! ## The bucket of a rank -/

/-- How many numbers fall into the buckets before one. -/
def countBefore (values : List Nat) (k : Nat) : Nat := values.countP (bucketIndex · < k)

/-- There are no numbers before the first bucket. -/
theorem countBefore_zero (values : List Nat) : countBefore values 0 = 0 := by
  unfold countBefore
  simp

/-- Before the next bucket there are, besides, the numbers of the bucket. -/
theorem countBefore_succ (values : List Nat) (k : Nat) :
    countBefore values (k + 1) = countBefore values k + values.countP (bucketIndex · = k) := by
  unfold countBefore
  induction values with
  | nil => rfl
  | cons v rest ih =>
    simp only [List.countP_cons, ih, decide_eq_true_eq]
    split_ifs <;> omega

/-- Before a later bucket there are no fewer numbers. -/
theorem countBefore_mono (values : List Nat) {l : Nat} (h : k ≤ l) :
    countBefore values k ≤ countBefore values l :=
  List.countP_mono_left fun _ _ hlt =>
    decide_eq_true (Nat.lt_of_lt_of_le (of_decide_eq_true hlt) h)

/-- The bucket of a rank is the one at which the count reaches the rank. -/
theorem bucketOfRank_eq_some {rank index length : Nat} (hindex : index ≤ k)
    (hk : k < index + length) (hlow : countBefore values k < rank)
    (hhigh : rank ≤ countBefore values (k + 1)) :
    bucketOfRank rank index (countBefore values index)
      ((List.range' index length).map fun k => values.countP (bucketIndex · = k)) = some k := by
  induction length generalizing index with
  | zero => omega
  | succ length ih =>
    rw [List.range'_succ, List.map_cons, bucketOfRank, ← countBefore_succ]
    rcases hindex.lt_or_eq with hlt | rfl
    · have hbefore : countBefore values (index + 1) ≤ countBefore values k :=
        countBefore_mono values hlt
      rw [if_neg (by omega)]
      exact ih hlt (by omega)
    · rw [if_pos hhigh]

/-- There is no bucket of a rank that the count does not reach. -/
theorem bucketOfRank_eq_none {rank index length : Nat}
    (h : countBefore values (index + length) < rank) :
    bucketOfRank rank index (countBefore values index)
      ((List.range' index length).map fun k => values.countP (bucketIndex · = k)) = none := by
  induction length generalizing index with
  | zero => rfl
  | succ length ih =>
    have hbefore : countBefore values (index + 1) ≤ countBefore values (index + (length + 1)) :=
      countBefore_mono values (by omega)
    rw [List.range'_succ, List.map_cons, bucketOfRank, ← countBefore_succ, if_neg (by omega)]
    exact ih (by rwa [Nat.add_assoc, Nat.add_comm 1 length])

/-! ## The number of a rank -/

/-- In an ordered list the numbers that are small enough come first. -/
theorem lt_countP_iff {p : Nat → Bool} (hp : ∀ v w, v ≤ w → p w = true → p v = true)
    {l : List Nat} (hl : l.Pairwise (· ≤ ·)) {i : Nat} (hi : i < l.length) :
    i < l.countP p ↔ p l[i] = true := by
  induction l generalizing i with
  | nil => exact absurd hi (Nat.not_lt_zero i)
  | cons v rest ih =>
    obtain ⟨hfirst, hrest⟩ := List.pairwise_cons.mp hl
    by_cases hv : p v = true
    · rw [List.countP_cons_of_pos hv]
      cases i with
      | zero => simpa using hv
      | succ i => simpa using ih hrest (Nat.lt_of_succ_lt_succ hi)
    · have hall : ∀ w ∈ v :: rest, ¬ p w = true := by
        intro w hw hpw
        rcases List.mem_cons.mp hw with rfl | hw
        · exact hv hpw
        · exact hv (hp v w (hfirst w hw) hpw)
      rw [List.countP_eq_zero.mpr hall]
      exact iff_of_false (Nat.not_lt_zero i) (hall _ (List.getElem_mem hi))

/-- A number of a greater rank is not smaller. -/
theorem le_of_rank_le {i j : Nat} (hij : i ≤ j) (hv : values.mergeSort[i]? = some v)
    (hw : values.mergeSort[j]? = some w) : v ≤ w := by
  obtain ⟨hi, rfl⟩ := List.getElem?_eq_some_iff.mp hv
  obtain ⟨hj, rfl⟩ := List.getElem?_eq_some_iff.mp hw
  rcases hij.lt_or_eq with hlt | rfl
  · exact List.pairwise_iff_getElem.mp (List.pairwise_mergeSort' (· ≤ ·) values) i j hi hj hlt
  · exact le_rfl

/-- Before a bucket there are as many numbers when they are in order. -/
theorem countBefore_mergeSort (values : List Nat) (k : Nat) :
    countBefore values.mergeSort k = countBefore values k :=
  (List.mergeSort_perm values _).countP_eq _

/-- The bucket of a rank is that of the number which has this rank. -/
theorem bucketOfRank_buckets (hvalues : ∀ v ∈ values, v ≤ maxRecorded) {i : Nat}
    (hv : values.mergeSort[i]? = some v) :
    bucketOfRank (i + 1) 0 0 (ofValues values).buckets = some (bucketIndex v) := by
  obtain ⟨hi, rfl⟩ := List.getElem?_eq_some_iff.mp hv
  have hmem : values.mergeSort[i] ∈ values := List.mem_mergeSort.mp (List.getElem_mem hi)
  -- Those that fall into the buckets before one come first among the ordered numbers, so the place
  -- of a number says whether it is one of them.
  have hrank : ∀ k, i < countBefore values k ↔ bucketIndex values.mergeSort[i] < k := by
    intro k
    rw [← countBefore_mergeSort]
    refine (lt_countP_iff (fun v w hvw hw => ?_) (List.pairwise_mergeSort' (· ≤ ·) values) hi).trans
      decide_eq_true_iff
    exact decide_eq_true (Nat.lt_of_le_of_lt (bucketIndex_mono hvw) (of_decide_eq_true hw))
  have hbefore : countBefore values (bucketIndex values.mergeSort[i]) < i + 1 :=
    Nat.lt_succ_of_le (not_lt.mp fun hlt => lt_irrefl _ ((hrank _).mp hlt))
  have hbucket := bucketOfRank_eq_some (Nat.zero_le _)
    ((bucketIndex_lt (hvalues _ hmem)).trans_eq (Nat.zero_add _).symm) hbefore
    ((hrank _).mpr (Nat.lt_succ_self _))
  rwa [countBefore_zero, ← List.range_eq_range', ← buckets_ofValues] at hbucket

/-- There is no bucket of a rank beyond the count. -/
theorem bucketOfRank_buckets_eq_none {rank : Nat} (h : values.length < rank) :
    bucketOfRank rank 0 0 (ofValues values).buckets = none := by
  have hbeyond : countBefore values (0 + bucketCount) < rank :=
    Nat.lt_of_le_of_lt List.countP_le_length h
  have hnone := bucketOfRank_eq_none hbeyond
  rwa [countBefore_zero, ← List.range_eq_range', ← buckets_ofValues] at hnone

/-! ## Estimates -/

/-- The extremes of a histogram are those of the numbers. -/
theorem extremes_ofValues (hne : values ≠ []) (hvalues : ∀ v ∈ values, v ≤ maxRecorded) :
    values.min? = some (ofValues values).least ∧ values.max? = some (ofValues values).greatest := by
  have hcount : 0 < (ofValues values).count := by
    rw [count_ofValues]
    exact List.length_pos_of_ne_nil hne
  constructor
  · rw [← min?_ofValues hvalues]
    exact if_pos hcount
  · rw [← max?_ofValues]
    exact if_pos hcount

/-- What is estimated for a number: the greatest number of its bucket, moved into the observed
range. -/
def estimate (h : Histogram) (v : Nat) : Nat := h.clampToRange (bucketUpperBound (bucketIndex v))

/-- An estimate is not below the number it is made for, less than twice as much unless it is 1, and
in the observed range. -/
theorem estimate_brackets (hvalues : ∀ v ∈ values, v ≤ maxRecorded) (hv : v ∈ values) :
    v ≤ (ofValues values).estimate v ∧ (ofValues values).estimate v ≤ max (2 * v - 1) 1 ∧
      (ofValues values).least ≤ (ofValues values).estimate v ∧
      (ofValues values).estimate v ≤ (ofValues values).greatest := by
  obtain ⟨hmin, hmax⟩ := extremes_ofValues (List.ne_nil_of_mem hv) hvalues
  have hleast := (List.min?_eq_some_iff.mp hmin).2 v hv
  have hgreatest := (List.max?_eq_some_iff.mp hmax).2 v hv
  have hlow := le_bucketUpperBound (hvalues v hv)
  have hhigh := bucketUpperBound_bucketIndex_le (hvalues v hv)
  unfold estimate clampToRange
  omega

/-- A greater number has no smaller estimate. -/
theorem estimate_mono (h : Histogram) (hw : w ≤ maxRecorded) (hvw : v ≤ w) :
    h.estimate v ≤ h.estimate w := by
  have hbound := bucketUpperBound_mono (bucketIndex_lt hw) (bucketIndex_mono hvw)
  unfold estimate clampToRange
  omega

/-- A quantile is estimated by what is estimated for the number of its rank. -/
theorem percentile?_ofValues (hne : values ≠ []) (hvalues : ∀ v ∈ values, v ≤ maxRecorded)
    (q : Binary64) : ∃ v ∈ values,
      values.mergeSort[min values.length (rankOf values.length q) - 1]? = some v ∧
      (ofValues values).percentile? q = some ((ofValues values).estimate v) := by
  have hlength : 0 < values.length := List.length_pos_of_ne_nil hne
  have hpositive : 1 ≤ rankOf values.length q := Nat.le_max_left 1 _
  have hcount : (ofValues values).count ≠ 0 := by
    rw [count_ofValues]
    exact hlength.ne'
  have hi : min values.length (rankOf values.length q) - 1 < values.mergeSort.length := by
    rw [List.length_mergeSort]
    omega
  obtain ⟨v, hv⟩ : ∃ v,
      values.mergeSort[min values.length (rankOf values.length q) - 1]? = some v :=
    ⟨_, List.getElem?_eq_getElem hi⟩
  have hmem : v ∈ values := List.mem_mergeSort.mp (List.mem_of_getElem? hv)
  refine ⟨v, hmem, hv, ?_⟩
  unfold percentile?
  rw [if_neg hcount, count_ofValues]
  rcases Nat.lt_or_ge values.length (rankOf values.length q) with hbeyond | hwithin
  · rw [bucketOfRank_buckets_eq_none hbeyond]
    -- Beyond all ranks the number is the greatest one, and so is its estimate.
    obtain ⟨-, hmax⟩ := extremes_ofValues hne hvalues
    have hgreatest : (ofValues values).greatest ∈ values.mergeSort :=
      List.mem_mergeSort.mpr (List.max?_eq_some_iff.mp hmax).1
    obtain ⟨i, hlast⟩ := List.mem_iff_getElem?.mp hgreatest
    have hwithin := (List.getElem?_eq_some_iff.mp hlast).1
    rw [List.length_mergeSort] at hwithin
    obtain ⟨hlow, -, -, hhigh⟩ := estimate_brackets hvalues hmem
    have hle := le_of_rank_le (by omega) hlast hv
    exact congrArg some (le_antisymm (hle.trans hlow) hhigh)
  · rw [Nat.min_eq_right hwithin] at hv
    have hbucket := bucketOfRank_buckets hvalues hv
    rw [Nat.sub_add_cancel hpositive] at hbucket
    rw [hbucket]
    rfl

/-- A greater rank has no smaller estimate. -/
theorem percentile?_mono_of_rank (hvalues : ∀ v ∈ values, v ≤ maxRecorded) {q q' : Binary64}
    (hrank : rankOf values.length q ≤ rankOf values.length q') {e e' : Nat}
    (he : (ofValues values).percentile? q = some e)
    (he' : (ofValues values).percentile? q' = some e') : e ≤ e' := by
  have hne : values ≠ [] := by
    rintro rfl
    simp [percentile?, ofValues, empty] at he
  obtain ⟨v, -, hv, hestimate⟩ := percentile?_ofValues hne hvalues q
  obtain ⟨v', hmem', hv', hestimate'⟩ := percentile?_ofValues hne hvalues q'
  obtain rfl := Option.some.inj (he.symm.trans hestimate)
  obtain rfl := Option.some.inj (he'.symm.trans hestimate')
  exact estimate_mono _ (hvalues _ hmem') (le_of_rank_le (by omega) hv hv')

/-! ## Ranks -/

/-- A quantile from 0 to 1 stays what it is. -/
theorem clamp_of_unit {q : Binary64} (hq : q.InUnit) :
    q.clamp (Binary64.zero false) (Binary64.ofNat 1) = q := by
  unfold Binary64.clamp
  rw [Binary64.lt_eq_false_of_le hq.zero_le, Binary64.lt_eq_false_of_le hq.le_one]
  rfl

/-- The rank of a quantile from 0 to 1 is its product with the count, rounded up. -/
theorem rankOf_of_unit {q : Binary64} (hq : q.InUnit) (n : Nat) :
    rankOf n q = max 1 ((q.mul (Binary64.ofNat n)).ceil.toIntClamped 0 maxRecorded).toNat := by
  unfold rankOf
  rw [clamp_of_unit hq]

/-- Among some numbers whose count is a number of the format, the rank of a quantile is the ceiling
of the product, rounded once. -/
theorem rankOf_of_finite {q : Binary64} (hq : q.InUnit) {n m : Nat} {e : Int}
    (hn : Binary64.ofNat n = .finite false m e) : ∃ num den : Nat, 0 < den ∧
      (num : ℚ) / den = q.toRat * Binary64.rounded n 1 ∧
      rankOf n q = max 1 (min ⌈Binary64.rounded num den⌉₊ maxRecorded) := by
  obtain ⟨s, m', e', rfl, hvalue, -, hsign⟩ := hq.exists_finite
  obtain ⟨-, hmag, -⟩ := Binary64.ofRatio_eq_finite one_pos hn
  obtain ⟨num, den, hden, hfraction, hproduct⟩ := Binary64.mul_finite s false m' m e' e
  refine ⟨num, den, hden, by rw [hfraction, hvalue, hmag], ?_⟩
  rw [rankOf_of_unit hq, hn, hproduct]
  cases s with
  | false =>
    rw [Bool.bne_false, Binary64.toIntClamped_ceil_ofRatio num hden (by decide), Int.toNat_natCast]
  | true =>
    -- A zero with a sign has the rank of one without.
    obtain rfl := hsign rfl
    obtain rfl : num = 0 := by
      rw [Binary64.magnitude_zero, zero_mul, div_eq_zero_iff] at hfraction
      exact_mod_cast hfraction.resolve_right (Nat.cast_ne_zero.mpr hden.ne')
    have hzero : Binary64.ofRatio (true != false) 0 den = Binary64.zero true := if_pos rfl
    rw [Binary64.rounded_zero hden, Nat.ceil_zero, hzero]
    decide +kernel

/-- Among so many numbers that their count is not a number of the format, the rank of a quantile
other than zero is beyond all of them. -/
theorem rankOf_of_infinite {q : Binary64} (hq : q.InUnit) {n : Nat}
    (hn : Binary64.ofNat n = .infinite false) :
    rankOf n q = if q.toRat = 0 then 1 else maxRecorded := by
  obtain ⟨s, m, e, rfl, hvalue, -, hsign⟩ := hq.exists_finite
  rw [rankOf_of_unit hq, hn, hvalue, Binary64.mul]
  by_cases hm : m = 0
  · subst hm
    rw [if_pos rfl, if_pos (Binary64.magnitude_zero e)]
    decide +kernel
  · obtain rfl : s = false := by
      cases s
      · rfl
      · exact absurd (hsign rfl) hm
    rw [if_neg hm, if_neg (mt Binary64.magnitude_eq_zero_iff.mp hm)]
    decide +kernel

/-- A greater quantile has no smaller rank. -/
theorem rankOf_mono {q q' : Binary64} (hq : q.InUnit) (hq' : q'.InUnit) (hle : q.le q' = true)
    (n : Nat) : rankOf n q ≤ rankOf n q' := by
  obtain ⟨s, m, e, hfinite, hvalue, -, -⟩ := hq.exists_finite
  obtain ⟨s', m', e', hfinite', -, -, -⟩ := hq'.exists_finite
  have hnonneg : 0 ≤ q.toRat := hvalue ▸ Binary64.magnitude_nonneg m e
  have hvalues : q.toRat ≤ q'.toRat := by
    rw [hfinite, hfinite'] at hle ⊢
    exact Binary64.le_iff_toRat.mp hle
  rcases Binary64.ofRatio_cases false n one_pos with ⟨k, f, hn, hcount, -⟩ | ⟨hn, -⟩
  · obtain ⟨num, den, hden, hfraction, hrank⟩ := rankOf_of_finite hq hn
    obtain ⟨num', den', hden', hfraction', hrank'⟩ := rankOf_of_finite hq' hn
    -- The exact products are in order, and each step that follows keeps the order.
    have hproduct : (num : ℚ) / den ≤ num' / den' := by
      rw [hfraction, hfraction']
      exact mul_le_mul_of_nonneg_right hvalues (hcount ▸ Binary64.magnitude_nonneg k f)
    have hceil := Nat.ceil_mono (Binary64.rounded_mono hden hden' hproduct)
    rw [hrank, hrank']
    omega
  · rw [rankOf_of_infinite hq hn, rankOf_of_infinite hq' hn]
    split_ifs with hzero hzero' hzero'
    · exact le_rfl
    · decide
    · exact absurd (le_antisymm (hvalues.trans_eq hzero') hnonneg) hzero
    · exact le_rfl

/-- The rank of a quantile as it is meant: the ceiling of the exact product, and 1 at least. -/
def exactRank (n : Nat) (q : Binary64) : Nat := max 1 ⌈q.toRat * n⌉₊

/-- The rank is the ceiling of the product rounded to a number of the format. It is as it is meant,
or one less. -/
theorem rankOf_near {q : Binary64} (hq : q.InUnit) {n : Nat} (hn : n ≤ 2 ^ 53) :
    (∃ num den : Nat, 0 < den ∧ (num : ℚ) / den = q.toRat * n ∧
      rankOf n q = max 1 ⌈Binary64.rounded num den⌉₊) ∧
    rankOf n q ≤ exactRank n q ∧ exactRank n q ≤ rankOf n q + 1 := by
  obtain ⟨s, m, e, -, hvalue, hone, -⟩ := hq.exists_finite
  have hsmall : (n : ℚ) / (1 : ℕ) ≤ 2 ^ 64 := by
    have hword : n ≤ 2 ^ 64 := hn.trans (by norm_num)
    rw [Nat.cast_one, div_one]
    exact_mod_cast hword
  obtain ⟨k, f, hfinite⟩ := Binary64.exists_ofRatio_eq_finite false one_pos hsmall
  obtain ⟨num, den, hden, hfraction, hrank⟩ := rankOf_of_finite hq hfinite
  rw [Binary64.rounded_of_le hn] at hfraction
  -- The exact product is at most the count, so its ceiling is a number of the format.
  have hceil : ⌈(num : ℚ) / den⌉₊ ≤ n := by
    rw [Nat.ceil_le, hfraction, hvalue]
    exact mul_le_of_le_one_left (Nat.cast_nonneg n) hone
  obtain ⟨habove, hbelow⟩ := Binary64.ceil_rounded_near hden (hceil.trans hn)
  have hbound : ⌈Binary64.rounded num den⌉₊ ≤ maxRecorded :=
    (habove.trans hceil).trans (hn.trans (by decide))
  rw [Nat.min_eq_left hbound] at hrank
  refine ⟨⟨num, den, hden, hfraction, hrank⟩, ?_⟩
  unfold exactRank
  rw [hrank, ← hfraction]
  omega

/-- A greater quantile has no smaller estimate. -/
theorem percentile?_mono (hvalues : ∀ v ∈ values, v ≤ maxRecorded) {q q' : Binary64}
    (hq : q.InUnit) (hq' : q'.InUnit) (hle : q.le q' = true) {e e' : Nat}
    (he : (ofValues values).percentile? q = some e)
    (he' : (ofValues values).percentile? q' = some e') : e ≤ e' :=
  percentile?_mono_of_rank hvalues (rankOf_mono hq hq' hle values.length) he he'

end Histogram

namespace TypeAggregate

/-- Quantiles given in hundredths, of which the results show the estimates, are from 0 to 1 and in
order. -/
theorem inUnit_hundredths : (hundredths 50).InUnit ∧ (hundredths 90).InUnit ∧
    (hundredths 95).InUnit ∧ (hundredths 99).InUnit := by
  refine ⟨⟨?_, ?_⟩, ⟨?_, ?_⟩, ⟨?_, ?_⟩, ⟨?_, ?_⟩⟩ <;> decide +kernel

/-- The estimates in the account of a type are in order, and within the latencies. -/
theorem latencies_ordered (unit : TimeUnit) (operationType : String) {a : TypeAggregate}
    {values : List Nat} (h : a.latency = Histogram.ofValues values) (hne : values ≠ [])
    (hvalues : ∀ v ∈ values, v ≤ maxRecorded) :
    let o := a.metrics unit operationType
    o.minLatency ≤ o.p50Latency ∧ o.p50Latency ≤ o.p90Latency ∧ o.p90Latency ≤ o.p95Latency ∧
      o.p95Latency ≤ o.p99Latency ∧ o.p99Latency ≤ o.maxLatency := by
  obtain ⟨h50, h90, h95, h99⟩ := inUnit_hundredths
  obtain ⟨v50, hmem50, -, he50⟩ := Histogram.percentile?_ofValues hne hvalues (hundredths 50)
  obtain ⟨v90, -, -, he90⟩ := Histogram.percentile?_ofValues hne hvalues (hundredths 90)
  obtain ⟨v95, -, -, he95⟩ := Histogram.percentile?_ofValues hne hvalues (hundredths 95)
  obtain ⟨v99, hmem99, -, he99⟩ := Histogram.percentile?_ofValues hne hvalues (hundredths 99)
  obtain ⟨hmin, hmax⟩ := Histogram.extremes_ofValues hne hvalues
  simp only [metrics, h, Histogram.min?_ofValues hvalues, Histogram.max?_ofValues, hmin, hmax,
    he50, he90, he95, he99, Option.getD_some]
  exact ⟨(Histogram.estimate_brackets hvalues hmem50).2.2.1,
    Histogram.percentile?_mono hvalues h50 h90 (by decide +kernel) he50 he90,
    Histogram.percentile?_mono hvalues h90 h95 (by decide +kernel) he90 he95,
    Histogram.percentile?_mono hvalues h95 h99 (by decide +kernel) he95 he99,
    (Histogram.estimate_brackets hvalues hmem99).2.2.2⟩

end TypeAggregate

/-- The estimates in results are in order, and within the latencies. -/
theorem Aggregate.latencies_ordered_ofRecords {config : MetricsConfig}
    {records : List MetricsRecord} {o : OperationMetrics}
    (ho : o ∈ (ofRecords config records).snapshot.operations) :
    o.minLatency ≤ o.p50Latency ∧ o.p50Latency ≤ o.p90Latency ∧ o.p90Latency ≤ o.p95Latency ∧
      o.p95Latency ≤ o.p99Latency ∧ o.p99Latency ≤ o.maxLatency := by
  have hordered := TypeAggregate.latencies_ordered config.timeUnit o.operationType
    (latency_ofType config o.operationType records) (timesOf_ne_nil ho _) le_of_mem_timesOf
  rwa [← operations_ofRecords records ho] at hordered

namespace Histogram

variable {values : List Nat}

/-- The estimate of a quantile brackets the number of its rank: it is not below the number, less
than twice as much unless it is 1, and in the observed range. The rank is computed with the product
of the quantile and the count rounded to a number of the format, and is the rank of the exact
product or one less. A greater quantile has no smaller estimate, and so the estimates in results are
in order. -/
theorem percentile_brackets (hne : values ≠ []) (hvalues : ∀ v ∈ values, v ≤ maxRecorded)
    {q : Binary64} (hq : q.InUnit) :
    (∃ v e least greatest,
      values.mergeSort[min values.length (rankOf values.length q) - 1]? = some v ∧
      (ofValues values).percentile? q = some e ∧ v ≤ e ∧ e ≤ max (2 * v - 1) 1 ∧
      values.min? = some least ∧ values.max? = some greatest ∧ least ≤ e ∧ e ≤ greatest) ∧
    (values.length ≤ 2 ^ 53 →
      (∃ num den : Nat, 0 < den ∧ (num : ℚ) / den = q.toRat * values.length ∧
        rankOf values.length q = max 1 ⌈Binary64.rounded num den⌉₊) ∧
      rankOf values.length q ≤ exactRank values.length q ∧
      exactRank values.length q ≤ rankOf values.length q + 1) ∧
    (∀ q' : Binary64, q'.InUnit → q.le q' = true → ∀ e e',
      (ofValues values).percentile? q = some e → (ofValues values).percentile? q' = some e' →
        e ≤ e') ∧
    ∀ config records, ∀ o ∈ (Aggregate.ofRecords config records).snapshot.operations,
      o.p50Latency ≤ o.p90Latency ∧ o.p90Latency ≤ o.p95Latency ∧
        o.p95Latency ≤ o.p99Latency ∧ o.p99Latency ≤ o.maxLatency := by
  obtain ⟨v, hmem, hv, he⟩ := percentile?_ofValues hne hvalues q
  obtain ⟨hlow, hhigh, hleast, hgreatest⟩ := estimate_brackets hvalues hmem
  obtain ⟨hmin, hmax⟩ := extremes_ofValues hne hvalues
  exact ⟨⟨v, _, _, _, hv, he, hlow, hhigh, hmin, hmax, hleast, hgreatest⟩, rankOf_near hq,
    fun q' hq' hle e e' he he' => percentile?_mono hvalues hq hq' hle he he',
    fun config records o ho => (Aggregate.latencies_ordered_ofRecords ho).2⟩

/-- The median of 3, 1 and 2 is 2, and the estimate is 3. -/
theorem percentile_brackets_three : ∃ v, [3, 1, 2].mergeSort[2 - 1]? = some v ∧
    (ofValues [3, 1, 2]).percentile? (TypeAggregate.hundredths 50) = some 3 ∧
    v ≤ 3 ∧ 3 ≤ max (2 * v - 1) 1 := by
  have hne : [3, 1, 2] ≠ [] := by decide
  have hvalues : ∀ v ∈ [3, 1, 2], v ≤ maxRecorded := by decide
  obtain ⟨⟨v, e, -, -, hv, he, hlow, hhigh, -⟩, -⟩ :=
    percentile_brackets hne hvalues TypeAggregate.inUnit_hundredths.1
  have hrank : min [3, 1, 2].length
      (rankOf [3, 1, 2].length (TypeAggregate.hundredths 50)) = 2 := by decide +kernel
  have hestimate : (ofValues [3, 1, 2]).percentile? (TypeAggregate.hundredths 50) = some 3 := by
    decide +kernel
  rw [hrank] at hv
  obtain rfl := Option.some.inj (hestimate.symm.trans he)
  exact ⟨v, hv, hestimate, hlow, hhigh⟩

/-- The number next to 0.9 is above it, so its exact product with 10 is above 9. The product is
rounded to 9, and so the estimate of the quantile is that of the ninth number and not the tenth. -/
theorem percentile_below_exactRank :
    exactRank 10 (TypeAggregate.hundredths 90) = 10 ∧
    [1, 1, 1, 1, 1, 1, 1, 1, 1, 4].mergeSort[10 - 1]? = some 4 ∧
    (ofValues [1, 1, 1, 1, 1, 1, 1, 1, 1, 4]).percentile? (TypeAggregate.hundredths 90) =
      some 1 := by
  have hvalue : TypeAggregate.hundredths 90 = .finite false 8106479329266893 (-53) := by
    decide +kernel
  refine ⟨?_, ?_, by decide +kernel⟩
  · have hceil : ⌈(TypeAggregate.hundredths 90).toRat * (10 : ℕ)⌉₊ = 10 := by
      rw [hvalue, Nat.ceil_eq_iff (by norm_num)]
      norm_num [Binary64.toRat, Binary64.magnitude]
    unfold exactRank
    rw [hceil]
    rfl
  · rw [List.mergeSort_of_pairwise (by decide)]
    rfl

end Histogram

end WorkloadReplay
