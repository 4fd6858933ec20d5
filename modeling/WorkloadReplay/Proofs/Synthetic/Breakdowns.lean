import WorkloadReplay.Proofs.Numeric.Rounding
import WorkloadReplay.Proofs.Synthetic.Sequence

/-!
# Where drawing the synthetic sequence breaks down

A configuration is checked once, before anything is drawn. The check makes sure that there are keys
to draw from, that the jitter is no empty range, and that the proportions are finite and come to
more than zero. It does not make sure that their sum is finite. The values may be asked to have any
length, also one that no text can have. `next_ends` follows the draws of one operation, with any
source: it is drawn, or its start overflows, or the draw of its kind or of its value breaks down. By
induction `sequence_ends` says so of a whole sequence.

Proportions that pass the check have a sum that is positive and finite, or else infinite
(`total_of_validate`): a sum of numbers that are at least zero is again at least zero, and `nan` is
not. Two proportions of `1e308` pass it, and the first draw among them breaks down
(`syntheticSequence_of_hugeProportions`).
-/

namespace WorkloadReplay

/-! ## Sums of numbers that are at least zero -/

namespace Binary64

/-- A finite number is at least zero if it has no sign, or is zero. -/
theorem zero_le_finite {s : Bool} {m : Nat} {e : Int} :
    (zero false).le (.finite s m e) = true ↔ s = false ∨ m = 0 := by
  have hpos : (0 : Int) < (twoPow (e - min minExp e).toNat : Nat) := by
    exact_mod_cast twoPow_pos _
  simp only [le, zero, compare?, signedAt]
  rcases Nat.eq_zero_or_pos m with rfl | hm
  · cases s <;> simp
  · have hprod : (0 : Int) < m * (twoPow (e - min minExp e).toNat : Nat) :=
      Int.mul_pos (by exact_mod_cast hm) hpos
    cases s
    · simp [compare_lt_iff_lt.mpr hprod]
    · have hgt : compare (0 : Int) (-(m * (twoPow (e - min minExp e).toNat : Nat))) = .gt :=
        compare_gt_iff_gt.mpr (by omega)
      simp [hgt, hm.ne']

/-- An infinite number is at least zero if it has no sign. -/
theorem zero_le_infinite {s : Bool} : (zero false).le (.infinite s) = true ↔ s = false := by
  cases s <;> simp [le, zero, compare?]

/-- A fraction without a sign is at least zero, however it is rounded. -/
theorem zero_le_ofRatio (num den : Nat) : (zero false).le (ofRatio false num den) = true := by
  unfold ofRatio
  dsimp only
  repeat' split
  all_goals first
    | rfl
    | exact zero_le_finite.mpr (.inl rfl)

/-- So is a multiple of a power of two. -/
theorem zero_le_ofScaled (m : Nat) (e : Int) :
    (zero false).le (ofScaled false m e) = true := by
  unfold ofScaled
  split_ifs <;> exact zero_le_ofRatio _ _

/-- In any unit, what is at least zero counts as that. -/
theorem signedAt_nonneg {s : Bool} {m : Nat} {e : Int}
    (h : (zero false).le (.finite s m e) = true) (unit : Int) : 0 ≤ signedAt s m e unit := by
  unfold signedAt
  rcases zero_le_finite.mp h with rfl | rfl
  · exact Int.natCast_nonneg _
  · cases s <;> simp

/-- A sum of numbers that are at least zero is at least zero. -/
theorem zero_le_add {x y : Binary64} (hx : (zero false).le x = true)
    (hy : (zero false).le y = true) : (zero false).le (x.add y) = true := by
  cases x with
  | nan s => simp [le, zero, compare?] at hx
  | infinite s =>
    cases y with
    | nan t => simp [le, zero, compare?] at hy
    | finite t n f => exact hx
    | infinite t =>
      rw [zero_le_infinite.mp hx, zero_le_infinite.mp hy]
      rfl
  | finite s m e =>
    cases y with
    | nan t => simp [le, zero, compare?] at hy
    | infinite t => exact hy
    | finite t n f =>
      have hsum := Int.add_nonneg (signedAt_nonneg hx (min e f)) (signedAt_nonneg hy (min e f))
      simp only [add]
      generalize signedAt s m e (min e f) + signedAt t n f (min e f) = sum at hsum ⊢
      split_ifs
      · exact zero_le_finite.mpr (.inr rfl)
      · rw [decide_eq_false (Int.not_lt.mpr hsum)]
        exact zero_le_ofScaled sum.natAbs (min e f)

/-- What is at least zero but not finite is infinite. -/
theorem eq_infinite_of_zero_le {x : Binary64} (hx : (zero false).le x = true)
    (hfinite : x.isFinite = false) : x = .infinite false := by
  cases x with
  | finite s m e => simp [isFinite] at hfinite
  | infinite s => rw [zero_le_infinite.mp hx]
  | nan s => simp [le, zero, compare?] at hx

end Binary64

open Binary64 (zero)
open RandomSource (total maxLength endlessRange lengthText)

/-! ## What the check of a configuration leaves open -/

namespace SyntheticConfig

variable {c : SyntheticConfig}

/-- A proportion is at least zero. -/
theorem zero_le_of_isProportion {x : Binary64} (h : isProportion x = true) :
    (zero false).le x = true := by
  cases x with
  | infinite s => simp [isProportion, Binary64.isFinite] at h
  | nan s => simp [isProportion, Binary64.isFinite] at h
  | finite s m e =>
    simp only [isProportion, Binary64.isFinite, Bool.true_and, Bool.not_eq_true', Binary64.lt,
      Binary64.le, zero, Binary64.compare?, min_comm Binary64.minExp e] at h ⊢
    generalize Binary64.signedAt s m e (min e Binary64.minExp) = a at h ⊢
    generalize Binary64.signedAt false 0 Binary64.minExp (min e Binary64.minExp) = b at h ⊢
    rcases lt_trichotomy b a with hlt | rfl | hgt
    · simp [compare_lt_iff_lt.mpr hlt]
    · simp
    · simp [compare_lt_iff_lt.mpr hgt] at h

/-- The proportions of a valid configuration pass for such. -/
theorem isProportion_of_validate (h : c.validate = .ok ()) :
    ∀ x ∈ c.weights, isProportion x = true := by
  have hproblem := validate_eq_ok.mp h
  unfold problem? at hproblem
  generalize hfind : c.proportions.find? _ = found at hproblem
  cases found with
  | some _ => split_ifs at hproblem
  | none =>
    intro x hx
    obtain ⟨⟨name, x⟩, hmem, rfl⟩ := List.mem_map.mp hx
    simpa using List.find?_eq_none.mp hfind ⟨name, x⟩ hmem

/-- The sum of the proportions of a valid configuration is positive. It is finite, or there is no
end to it. -/
theorem total_of_validate (h : c.validate = .ok ()) :
    (zero false).lt (total c.weights) = true ∧
      ((total c.weights).isFinite = true ∨ total c.weights = .infinite false) := by
  have hweights : ∀ x ∈ c.weights, (zero false).le x = true := fun x hx =>
    zero_le_of_isProportion (isProportion_of_validate h x hx)
  have hsum : (zero false).le (total c.weights) = true := by
    refine List.foldlRecOn (motive := fun sum => (zero false).le sum = true) c.weights
      Binary64.add (Binary64.zero_le_finite.mpr (.inl rfl)) ?_
    exact fun sum hsum x hx => Binary64.zero_le_add hsum (hweights x hx)
  obtain ⟨-, -, -, htotal⟩ := of_validate h
  cases hfinite : (total c.weights).isFinite with
  | true => exact ⟨Binary64.zero_lt_of_not_le hfinite htotal, .inl rfl⟩
  | false =>
    rw [Binary64.eq_infinite_of_zero_le hsum hfinite]
    exact ⟨rfl, .inr rfl⟩

/-- A configuration that parameters give is valid. -/
theorem validate_of_ofParams {p : Params} (h : ofParams p = .ok c) : c.validate = .ok () := by
  unfold ofParams at h
  split at h
  · simp at h
  · next c' hread =>
    cases hvalid : c'.validate with
    | error e => simp [hvalid, Except.map] at h
    | ok u =>
      rw [hvalid] at h
      obtain rfl : c' = c := Except.ok.inj h
      exact hvalid

/-- The configuration with empty values. -/
def withoutValues (c : SyntheticConfig) : SyntheticConfig := { c with valueLength := 0 }

end SyntheticConfig

namespace SyntheticState

variable {γ : Type} {random : RandomSource γ} {c : SyntheticConfig}

/-! ## The draws of one operation -/

/-- The start of the next operation, if it is in range. -/
def nextStart? (random : RandomSource γ) (c : SyntheticConfig) (s : SyntheticState γ) :
    Option Instant :=
  (s.time.add? c.interval).bind (·.add? (drawJitter random c s.source).1)

/-- How the drawing of the next operation may end. -/
inductive NextEnds (random : RandomSource γ) (c : SyntheticConfig) (s : SyntheticState γ) :
    Except WorkloadError (SyntheticOperation × SyntheticState γ) → Prop
  | drawn {x : SyntheticOperation} {s' : SyntheticState γ}
      (finite : (total c.weights).isFinite = true)
      (length : x.kind = .update → c.valueLength ≤ maxLength) : NextEnds random c s (.ok (x, s'))
  | overflow (start : s.nextStart? random c = none) :
      NextEnds random c s (.error (.stream "scheduled start overflows"))
  | endless (start : s.nextStart? random c ≠ none) (total : total c.weights = .infinite false) :
      NextEnds random c s (.error (.panicked endlessRange))
  | tooLong (finite : (total c.weights).isFinite = true) (length : maxLength < c.valueLength) :
      NextEnds random c s (.error (.panicked lengthText))

/-- Whatever a source draws, the next operation of a valid configuration is drawn, or its start
overflows, or the draw of a kind or a value breaks down. -/
theorem next_ends (random : RandomSource γ) (hc : c.validate = .ok ()) (s : SyntheticState γ) :
    s.NextEnds random c (s.next random c) := by
  obtain ⟨hcount, -, -, hpositive⟩ := SyntheticConfig.of_validate hc
  obtain ⟨hlt, htotal⟩ := SyntheticConfig.total_of_validate hc
  unfold next
  dsimp only
  cases hstart : (s.time.add? c.interval).bind (·.add? (drawJitter random c s.source).1) with
  | none => exact .overflow hstart
  | some time =>
    generalize (drawJitter random c s.source).2 = g
    have hsome : s.nextStart? random c ≠ none := by simp [nextStart?, hstart]
    obtain ⟨⟨key, g₁⟩, hkey⟩ : ∃ drawn, random.index c.recordCount g = .ok drawn :=
      ⟨_, if_neg hcount⟩
    rcases htotal with hfinite | hinfinite
    · obtain ⟨⟨place, g₂⟩, hplace⟩ := random.exists_weightedChoice hfinite hpositive g₁
      by_cases hlength : c.valueLength ≤ maxLength
      · obtain ⟨⟨payload, g₃⟩, hpayload⟩ :=
          exists_drawPayload random hlength key g₂ (SyntheticKind.ofPlace place)
        simp only [drawOperation, hkey, hplace, hpayload, bind, Except.bind, pure, Except.pure]
        split_ifs <;> exact .drawn hfinite fun _ => hlength
      · simp only [drawOperation, hkey, hplace, bind, Except.bind, pure, Except.pure]
        cases hkind : SyntheticKind.ofPlace place with
        | read => exact .drawn hfinite (by simp)
        | scan => exact .drawn hfinite (by simp)
        | update =>
          have htext : random.printableText c.valueLength g₂ = .error lengthText :=
            if_pos (not_le.mp hlength)
          rw [drawPayload, htext]
          exact .tooLong hfinite (not_le.mp hlength)
    · have hendless : (total c.weights).isFinite = false := by rw [hinfinite]; rfl
      have hplace : random.weightedChoice c.weights g₁ = .error endlessRange := by
        simp [RandomSource.weightedChoice, RandomSource.fraction, hpositive, hlt, hendless,
          Except.map]
      simp only [drawOperation, hkey, hplace, bind, Except.bind]
      exact .endless hsome hinfinite

/-- With values that are too long for texts, what is drawn for a time is the same as with empty
values, except that every update breaks down. -/
theorem drawOperation_withoutValues (random : RandomSource γ)
    (hlength : maxLength < c.valueLength) (time : Instant) (latest : Option Instant) (g : γ) :
    drawOperation random c time latest g =
      (drawOperation random c.withoutValues time latest g).bind fun (x, s) =>
        if x.kind = .update then .error lengthText else .ok (x, s) := by
  have hweights : c.withoutValues.weights = c.weights := rfl
  have hgated (op : Operation KeyValuePayload) :
      gated c.withoutValues latest op = gated c latest op := rfl
  have hcount : c.withoutValues.recordCount = c.recordCount := rfl
  simp only [drawOperation, hcount, hweights, hgated, bind, Except.bind, pure, Except.pure]
  cases random.index c.recordCount g with
  | error e => rfl
  | ok drawn =>
    obtain ⟨key, g₁⟩ := drawn
    dsimp only
    cases random.weightedChoice c.weights g₁ with
    | error e => rfl
    | ok drawn =>
      obtain ⟨place, g₂⟩ := drawn
      cases hkind : SyntheticKind.ofPlace place with
      | read => simp [drawPayload, hkind]
      | scan => simp [drawPayload, hkind, SyntheticConfig.withoutValues]
      | update =>
        simp [drawPayload, hkind, hlength, SyntheticConfig.withoutValues,
          RandomSource.printableText, Except.map]

/-- The same holds of the next operation. -/
theorem next_withoutValues (random : RandomSource γ) (hlength : maxLength < c.valueLength)
    (s : SyntheticState γ) : s.next random c =
      (s.next random c.withoutValues).bind fun (x, s') =>
        if x.kind = .update then .error (.panicked lengthText) else .ok (x, s') := by
  have hjitter : drawJitter random c.withoutValues s.source = drawJitter random c s.source := rfl
  have hinterval : c.withoutValues.interval = c.interval := rfl
  simp only [next, hjitter, hinterval, drawOperation_withoutValues random hlength]
  cases (s.time.add? c.interval).bind (·.add? (drawJitter random c s.source).1) with
  | none => rfl
  | some time =>
    dsimp only
    generalize (drawJitter random c s.source).2 = g
    cases drawOperation random c.withoutValues time s.lastUpdate g with
    | error text => rfl
    | ok drawn =>
      simp only [Except.bind]
      split_ifs <;> rfl

/-! ## The draws of a sequence -/

/-- An operation is in a sequence if it is the next one, or comes after that. -/
theorem mem_sequence_succ {r : Except WorkloadError SyntheticOperation} {n : Nat}
    {s : SyntheticState γ} : r ∈ (s.sequence random c (n + 1)).toList ↔
      match s.next random c with
      | .error e => r = .error e
      | .ok (x, s') => r = .ok x ∨ r ∈ (s'.sequence random c n).toList := by
  rw [sequence]
  cases s.next random c with
  | error e => simp
  | ok drawn => simp

/-- A sequence breaks down with the sum of the proportions if there is no end to that and its first
start is in range. -/
theorem endlessRange_mem_sequence (hc : c.validate = .ok ()) (n : Nat) (s : SyntheticState γ) :
    .error (.panicked endlessRange) ∈ (s.sequence random c n).toList ↔
      total c.weights = .infinite false ∧ 0 < n ∧ s.nextStart? random c ≠ none := by
  induction n generalizing s with
  | zero => simp [sequence]
  | succ n ih =>
    have hendless (hfinite : (total c.weights).isFinite = true) :
        total c.weights ≠ .infinite false := fun h => by simp [h, Binary64.isFinite] at hfinite
    rw [mem_sequence_succ]
    have hends := next_ends random hc s
    generalize s.next random c = next at hends ⊢
    cases hends with
    | drawn hfinite _ => simp [ih, hendless hfinite]
    | overflow hstart => simp [hstart]
    | endless hstart htotal => simp [hstart, htotal]
    | tooLong hfinite _ => simp [hendless hfinite, endlessRange, lengthText]

/-- No sequence breaks down with the length of a value unless values are longer than texts can
be. -/
theorem lengthText_not_mem_sequence (hc : c.validate = .ok ()) (hlength : c.valueLength ≤ maxLength)
    (n : Nat) (s : SyntheticState γ) :
    .error (.panicked lengthText) ∉ (s.sequence random c n).toList := by
  induction n generalizing s with
  | zero => simp [sequence]
  | succ n ih =>
    rw [mem_sequence_succ]
    have hends := next_ends random hc s
    generalize s.next random c = next at hends ⊢
    cases hends with
    | drawn _ _ => simp [ih]
    | overflow _ => simp
    | endless _ _ => simp [endlessRange, lengthText]
    | tooLong _ hlong => exact absurd hlength (not_le.mpr hlong)

/-- If they are, it does if there is an update among what is drawn with empty values. -/
theorem lengthText_mem_sequence (hc : c.validate = .ok ()) (hlength : maxLength < c.valueLength)
    (n : Nat) (s : SyntheticState γ) :
    .error (.panicked lengthText) ∈ (s.sequence random c n).toList ↔
      ∃ x, .ok x ∈ (s.sequence random c.withoutValues n).toList ∧ x.kind = .update := by
  induction n generalizing s with
  | zero => simp [sequence]
  | succ n ih =>
    simp only [mem_sequence_succ]
    rw [next_withoutValues random hlength]
    have hends := next_ends random (c := c.withoutValues) hc s
    generalize s.next random c.withoutValues = next at hends ⊢
    cases hends with
    | @drawn x s' _ _ =>
      by_cases hkind : x.kind = .update <;>
        simp [Except.bind, hkind, ih, or_and_right, exists_or]
    | overflow _ => simp [Except.bind]
    | endless _ _ => simp [Except.bind, endlessRange, lengthText]
    | tooLong _ hlong => exact absurd hlong (Nat.not_lt_zero _)

/-- A sequence has as many operations as are left, or fewer and one error after them. -/
theorem sequence_ends (hc : c.validate = .ok ()) (n : Nat) (s : SyntheticState γ) :
    ∃ (xs : List SyntheticOperation) (e : Option WorkloadError),
      (s.sequence random c n).toList = xs.map .ok ++ e.toList.map .error ∧ xs.length ≤ n ∧
      (e = none ↔ xs.length = n) ∧
      (e = none ∨ e = some (.stream "scheduled start overflows") ∨
        e = some (.panicked endlessRange) ∨ e = some (.panicked lengthText)) := by
  induction n generalizing s with
  | zero => exact ⟨[], none, rfl, le_refl 0, by simp, .inl rfl⟩
  | succ n ih =>
    rw [sequence]
    have hends := next_ends random hc s
    generalize s.next random c = next at hends ⊢
    cases hends with
    | @drawn x s' _ _ =>
      obtain ⟨xs, e, htoList, hle, hnone, he⟩ := ih s'
      refine ⟨x :: xs, e, ?_, Nat.succ_le_succ hle, by simp [hnone], he⟩
      rw [LazyList.toList_cons, htoList]
      rfl
    | overflow _ => exact ⟨[], some _, rfl, Nat.zero_le _, by simp, .inr (.inl rfl)⟩
    | endless _ _ => exact ⟨[], some _, rfl, Nat.zero_le _, by simp, .inr (.inr (.inl rfl))⟩
    | tooLong _ _ => exact ⟨[], some _, rfl, Nat.zero_le _, by simp, .inr (.inr (.inr rfl))⟩

end SyntheticState

/-- Parameters that are accepted leave no draw without its range but two: there are keys to draw
from, the jitter is not negative, and the sum of the proportions is positive. So a sequence consists
of operations, as many as the configuration says, or fewer with one error at the end: a start that
overflows, or a draw that breaks down. The draw of the first kind does if there is no end to the sum
of the proportions, and the draw of the first update does if values are longer than texts can be. -/
theorem syntheticSequence_ends {γ : Type} (random : RandomSource γ) {p : Params}
    {c : SyntheticConfig} (hc : SyntheticConfig.ofParams p = .ok c) (seed : Nat) :
    0 < c.recordCount ∧ 0 ≤ c.jitter.nanos ∧ (zero false).lt (total c.weights) = true ∧
    ((total c.weights).isFinite = true ∨ total c.weights = .infinite false) ∧
    ∃ (xs : List SyntheticOperation) (e : Option WorkloadError),
      (syntheticSequence random c seed).toList = xs.map .ok ++ e.toList.map .error ∧
      xs.length ≤ c.operationCount ∧ (e = none ↔ xs.length = c.operationCount) ∧
      (e = none ∨ e = some (.stream "scheduled start overflows") ∨
        e = some (.panicked endlessRange) ∨ e = some (.panicked lengthText)) ∧
      (e = some (.panicked endlessRange) ↔ total c.weights = .infinite false ∧
        0 < c.operationCount ∧ (SyntheticState.ofSeed random seed).nextStart? random c ≠ none) ∧
      (e = some (.panicked lengthText) ↔ maxLength < c.valueLength ∧
        ∃ x, .ok x ∈ (syntheticSequence random c.withoutValues seed).toList ∧
          x.kind = .update) := by
  have hvalid := SyntheticConfig.validate_of_ofParams hc
  obtain ⟨hcount, -, hjitter, -⟩ := SyntheticConfig.of_validate hvalid
  obtain ⟨hpositive, htotal⟩ := SyntheticConfig.total_of_validate hvalid
  obtain ⟨xs, e, htoList, hle, hnone, he⟩ := SyntheticState.sequence_ends hvalid
    c.operationCount (SyntheticState.ofSeed random seed)
  have hmem (failure : WorkloadError) : e = some failure ↔ .error failure ∈
      ((SyntheticState.ofSeed random seed).sequence random c c.operationCount).toList := by
    rw [htoList]
    simp [eq_comm]
  refine ⟨Nat.pos_of_ne_zero hcount, hjitter, hpositive, htotal, xs, e, htoList, hle, hnone, he,
    ?_, ?_⟩
  · rw [hmem, SyntheticState.endlessRange_mem_sequence hvalid]
  · rw [hmem]
    by_cases hlength : maxLength < c.valueLength
    · rw [SyntheticState.lengthText_mem_sequence hvalid hlength]
      exact (and_iff_right hlength).symm
    · refine iff_of_false ?_ fun h => hlength h.1
      exact SyntheticState.lengthText_not_mem_sequence hvalid (not_lt.mp hlength) _ _

deriving instance DecidableEq for SyntheticConfig

/-- Parameters of three operations whose intervals vary, most of which are updates. -/
def variedParams : Params :=
  .ofList [("operation_count", "3"), ("jitter_us", "250"), ("update_proportion", "1e9")]

/-- The configuration that they give. -/
def variedConfig : SyntheticConfig where
  operationCount := 3
  jitter := Duration.ofUnits .micro 250
  updateProportion := Binary64.ofDecimal false 1 9

/-- With the standard source, three operations are drawn. -/
theorem syntheticSequence_ends_varied :
    SyntheticConfig.ofParams variedParams = .ok variedConfig ∧
    ∃ xs : List SyntheticOperation, xs.length = 3 ∧
      (syntheticSequence RandomSource.standard variedConfig 42).toList = xs.map .ok := by
  have hparams : SyntheticConfig.ofParams variedParams = .ok variedConfig := by decide +kernel
  have hdrawn :
      (syntheticSequence RandomSource.standard variedConfig 42).toList.all (·.isOk) = true := by
    decide +kernel
  obtain ⟨-, -, -, -, xs, e, htoList, -, hnone, -⟩ :=
    syntheticSequence_ends RandomSource.standard hparams 42
  cases e with
  | none => exact ⟨hparams, xs, hnone.mp rfl, by simpa using htoList⟩
  | some failure =>
    rw [htoList] at hdrawn
    simp [Except.isOk, Except.toBool] at hdrawn

/-- Parameters of one operation with two proportions whose sum is beyond the greatest double. -/
def hugeProportions : Params :=
  .ofList [("operation_count", "1"), ("read_proportion", "1e308"),
    ("update_proportion", "1e308"), ("scan_proportion", "0")]

/-- The configuration that they give. -/
def hugeConfig : SyntheticConfig where
  operationCount := 1
  readProportion := Binary64.ofDecimal false 1 308
  updateProportion := Binary64.ofDecimal false 1 308
  scanProportion := Binary64.zero false

/-- These are accepted, but the sequence breaks down with the draw of its first kind. -/
theorem syntheticSequence_of_hugeProportions :
    SyntheticConfig.ofParams hugeProportions = .ok hugeConfig ∧
    .error (.panicked endlessRange) ∈
      (syntheticSequence RandomSource.standard hugeConfig 42).toList := by
  have hparams : SyntheticConfig.ofParams hugeProportions = .ok hugeConfig := by decide +kernel
  have hvalid := SyntheticConfig.validate_of_ofParams hparams
  have hsum : total hugeConfig.weights = .infinite false := by decide +kernel
  exact ⟨hparams, (SyntheticState.endlessRange_mem_sequence hvalid 1 _).mpr
    ⟨hsum, by decide, by decide⟩⟩

end WorkloadReplay
