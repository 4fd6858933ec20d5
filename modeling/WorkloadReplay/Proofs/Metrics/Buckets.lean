import WorkloadReplay.Proofs.Metrics.Percentiles

/-!
# What a histogram keeps of the numbers recorded

`Histogram.Represents` says what a histogram has to tell about some numbers: how many of them belong
into each bucket, how many there are, their sum and their extremes, and which buckets are filled. A
histogram of numbers that fit into 64 bits represents them (`Histogram.ofValues_represents`), and
its counts and its sum keep within the words of 64 and 128 bits that they are stored in.
-/

namespace WorkloadReplay

namespace Histogram

variable {values : List Nat} {v k l : Nat}

/-! ## Which numbers belong into a bucket -/

/-- A number belongs into a bucket: it is at least the power of two with which the bucket begins,
where the first bucket begins with 0, and below the next power. -/
def InBucket (k v : Nat) : Prop := (k = 0 ∨ 2 ^ k ≤ v) ∧ v < 2 ^ (k + 1)

instance (k v : Nat) : Decidable (InBucket k v) :=
  inferInstanceAs (Decidable ((k = 0 ∨ 2 ^ k ≤ v) ∧ v < 2 ^ (k + 1)))

/-- A number is put into the bucket into which it belongs. -/
theorem bucketIndex_eq_iff : bucketIndex v = k ↔ InBucket k v := by
  unfold bucketIndex InBucket
  rcases Nat.eq_zero_or_pos v with rfl | hv
  · have hbelow : 0 < 2 ^ (k + 1) := Nat.two_pow_pos _
    have habove : ¬ 2 ^ k ≤ 0 := not_le.mpr (Nat.two_pow_pos k)
    simp [hbelow, habove, eq_comm]
  · rw [Nat.log2_eq_iff hv.ne']
    refine and_congr_left fun _ => ⟨.inr, fun h => h.elim (fun hk => ?_) id⟩
    rw [hk]
    exact hv

/-- The greatest numbers of two buckets are in the order of the buckets. -/
theorem bucketUpperBound_lt (hl : l < bucketCount) (h : k < l) :
    bucketUpperBound k < bucketUpperBound l := by
  rw [bucketUpperBound_eq hl, bucketUpperBound_eq (h.trans hl)]
  have hpower : 2 ^ (k + 1) < 2 ^ (l + 1) := Nat.pow_lt_pow_right one_lt_two (by omega)
  have hpos : 0 < 2 ^ (k + 1) := Nat.two_pow_pos _
  omega

/-! ## Totals -/

/-- The buckets before one hold together as many numbers as belong before it. -/
theorem sum_counts (values : List Nat) (n : Nat) :
    ((List.range n).map fun k => values.countP (bucketIndex · = k)).sum = countBefore values n := by
  induction n with
  | zero => exact (countBefore_zero values).symm
  | succ n ih =>
    rw [List.range_succ, List.map_append, List.sum_append, ih, countBefore_succ]
    simp

/-- Together the buckets hold all numbers. -/
theorem sum_buckets (h : ∀ v ∈ values, v ≤ maxRecorded) :
    (ofValues values).buckets.sum = values.length := by
  rw [buckets_ofValues, sum_counts]
  exact List.countP_eq_length.mpr fun v hv => decide_eq_true (bucketIndex_lt (h v hv))

/-- The sum is that of the numbers. -/
theorem sum_ofValues (values : List Nat) : (ofValues values).sum = values.sum := by
  induction values using List.reverseRecOn with
  | nil => rfl
  | append_singleton values v ih =>
    rw [ofValues_append_singleton, record, ih, List.sum_append, List.sum_singleton]

/-- Numbers of 64 bits have a sum of less than `2 ^ 64` for each of them. -/
theorem sum_le (h : ∀ v ∈ values, v ≤ maxRecorded) :
    values.sum ≤ values.length * maxRecorded := by
  simpa using List.sum_le_card_nsmul values maxRecorded h

/-- A bucket holds as many numbers as belong into it. -/
theorem getElem?_buckets (hk : k < bucketCount) :
    (ofValues values).buckets[k]? = some (values.countP fun v => InBucket k v) := by
  rw [buckets_ofValues, List.getElem?_map, List.getElem?_range hk, Option.map_some]
  simp only [bucketIndex_eq_iff]

/-! ## Filled buckets -/

section Filled

variable {h : Histogram}

/-- The filled buckets are those that hold something. -/
theorem mem_filled {b c : Nat} :
    (b, c) ∈ h.filled ↔ ∃ k, h.buckets[k]? = some c ∧ b = bucketUpperBound k ∧ 0 < c := by
  unfold filled
  simp only [List.mem_map, List.mem_filter, decide_eq_true_eq, Prod.exists, Prod.mk.injEq,
    List.mem_zipIdx_iff_getElem?]
  constructor
  · rintro ⟨c, k, ⟨hk, hc⟩, rfl, rfl⟩
    exact ⟨k, hk, rfl, hc⟩
  · rintro ⟨k, hk, rfl, hc⟩
    exact ⟨c, k, ⟨hk, hc⟩, rfl, rfl⟩

/-- The filled buckets come in the order of their greatest numbers. -/
theorem pairwise_filled (hlength : h.buckets.length = bucketCount) :
    (h.filled.map (·.1)).Pairwise (· < ·) := by
  have hplaces : h.buckets.zipIdx.Pairwise (·.2 < ·.2) := by
    rw [← List.pairwise_map, List.zipIdx_map_snd]
    exact List.pairwise_lt_range'
  unfold filled
  rw [List.map_map, List.pairwise_map]
  refine (hplaces.filter _).imp_of_mem fun {x y} _ hy hlt => ?_
  -- The greatest numbers grow with the places, as far as there are buckets.
  have hplace := List.mem_zipIdx_iff_getElem?.mp (List.mem_of_mem_filter hy)
  have hwithin := (List.getElem?_eq_some_iff.mp hplace).1
  exact bucketUpperBound_lt (hlength ▸ hwithin) hlt

/-- What is left out holds nothing. -/
theorem sum_filter_pos (buckets : List (Nat × Nat)) :
    ((buckets.filter (0 < ·.1)).map (·.1)).sum = (buckets.map (·.1)).sum := by
  induction buckets with
  | nil => rfl
  | cons x rest ih =>
    rcases Nat.eq_zero_or_pos x.1 with hx | hx
    · rw [List.filter_cons_of_neg (by simp [hx]), ih, List.map_cons, List.sum_cons, hx,
        Nat.zero_add]
    · rw [List.filter_cons_of_pos (by simpa using hx), List.map_cons, List.sum_cons, ih,
        List.map_cons, List.sum_cons]

/-- The filled buckets hold all that the buckets hold. -/
theorem sum_filled (h : Histogram) : (h.filled.map (·.2)).sum = h.buckets.sum := by
  unfold filled
  rw [List.map_map]
  exact (sum_filter_pos h.buckets.zipIdx).trans (by rw [List.zipIdx_map_fst])

end Filled

/-! ## Representation -/

/-- What a histogram has to tell about some numbers. -/
structure Represents (h : Histogram) (values : List Nat) : Prop where
  length : h.buckets.length = bucketCount
  /-- Each bucket counts the numbers that belong into it. -/
  bucket : ∀ k < bucketCount, h.buckets[k]? = some (values.countP fun v => InBucket k v)
  /-- All numbers are in the buckets, and counted. -/
  buckets_sum : h.buckets.sum = h.count
  count : h.count = values.length
  sum : h.sum = values.sum
  min : h.min? = values.min?
  max : h.max? = values.max?
  /-- The filled buckets are those into which some of the numbers belong, with their greatest
  numbers and counts. -/
  filled : ∀ b c, (b, c) ∈ h.filled ↔ ∃ k < bucketCount, b = bucketUpperBound k ∧
    c = values.countP (fun v => InBucket k v) ∧ 0 < c
  filled_increasing : (h.filled.map (·.1)).Pairwise (· < ·)
  filled_sum : (h.filled.map (·.2)).sum = h.count

/-- The counts of a histogram fit into 64 bits, and its sum into 128. -/
structure Fits (h : Histogram) : Prop where
  buckets : ∀ c ∈ h.buckets, c < 2 ^ 64
  count : h.count < 2 ^ 64
  sum : h.sum < 2 ^ 128

/-- A histogram of numbers that can be recorded, fewer than `2 ^ 64` of them, represents them, and
fits into its words. The bucket of a number is the first whose greatest number reaches it. -/
theorem ofValues_represents (hvalues : ∀ v ∈ values, v ≤ maxRecorded)
    (hcount : values.length < 2 ^ 64) :
    (ofValues values).Represents values ∧ (ofValues values).Fits ∧
    ∀ v ≤ maxRecorded, ∀ k < bucketCount, bucketIndex v ≤ k ↔ v ≤ bucketUpperBound k := by
  have hlength : (ofValues values).buckets.length = bucketCount := by simp [buckets_ofValues]
  have htotal := sum_buckets hvalues
  have hcounted := count_ofValues values
  refine ⟨⟨hlength, fun k hk => getElem?_buckets hk, by rw [htotal, hcounted], hcounted,
    sum_ofValues values, min?_ofValues hvalues, max?_ofValues values, fun b c => ?_,
    pairwise_filled hlength, by rw [sum_filled, htotal, hcounted]⟩, ⟨fun c hc => ?_, ?_, ?_⟩,
    fun v _ k hk => bucketIndex_le_iff hk v⟩
  · rw [mem_filled]
    constructor
    · rintro ⟨k, hk, hb, hc⟩
      have hwithin : k < bucketCount := hlength ▸ (List.getElem?_eq_some_iff.mp hk).1
      rw [getElem?_buckets hwithin] at hk
      exact ⟨k, hwithin, hb, (Option.some.inj hk).symm, hc⟩
    · rintro ⟨k, hk, hb, rfl, hc⟩
      exact ⟨k, getElem?_buckets hk, hb, hc⟩
  · exact (htotal ▸ List.le_sum_of_mem hc).trans_lt hcount
  · rwa [hcounted]
  · have hsum := sum_le hvalues
    rw [sum_ofValues]
    unfold maxRecorded at hsum
    omega

/-- Both numbers of the first bucket, the last number of one bucket and the first of the next, and
the greatest number of all. -/
theorem ofValues_represents_bounds :
    (∀ v ∈ [1, 8, 0, 7, maxRecorded, 7], v ≤ maxRecorded) ∧
    [1, 8, 0, 7, maxRecorded, 7].length < 2 ^ 64 ∧
    (ofValues [1, 8, 0, 7, maxRecorded, 7]).Represents [1, 8, 0, 7, maxRecorded, 7] ∧
    (ofValues [1, 8, 0, 7, maxRecorded, 7]).filled =
      [(1, 2), (7, 2), (15, 1), (maxRecorded, 1)] :=
  ⟨by decide, by decide, (ofValues_represents (by decide) (by decide)).1, by decide⟩

end Histogram

end WorkloadReplay
