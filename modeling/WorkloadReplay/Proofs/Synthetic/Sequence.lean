import WorkloadReplay.Proofs.Random.Draws
import WorkloadReplay.Proofs.Time.Order
import WorkloadReplay.Proofs.Validation.Serialization
import WorkloadReplay.Synthetic.Sequence

/-!
# What the synthetic sequence consists of

Whatever a source draws, as long as its numbers stay in range, no draw of a `Drawable` configuration
breaks down. `next_cases` says so of one operation: either it is drawn, or its start would be out of
range. `sequence_cases` says so of the whole sequence, by induction on the number of operations that
are left: it has as many as the configuration says, or it ends with an error where a start is out of
range. Where there is time enough for all of them, as with a `Feasible` configuration, none does
(`exists_sequence`).

The operations come one after another at increasing times. None depends on a time after its start. A
read or a scan waits for the latest update before it if that is near enough, and for nothing
otherwise (`SyntheticOperation.awaited?`). What carries the induction is that the latest update of a
state is not before the epoch and not after the time of the state, so the time between them can be
measured.
-/

namespace WorkloadReplay

open WorkloadValidation (Accepts)

/-- A configuration with which no draw breaks down: it is valid, the proportions have a finite sum,
and its values are no longer than texts can be. -/
structure SyntheticConfig.Drawable (c : SyntheticConfig) : Prop where
  valid : c.validate = .ok ()
  finite : (RandomSource.total c.weights).isFinite = true
  length : c.valueLength ≤ RandomSource.maxLength

/-- A configuration that can be followed to the end of its sequence: it is valid, the proportions
have a finite sum, its values are no longer than texts can be, and the latest time at which the last
operation may start is in range. -/
structure SyntheticConfig.Feasible (c : SyntheticConfig) : Prop where
  valid : c.validate = .ok ()
  finite : (RandomSource.total c.weights).isFinite = true
  length : c.valueLength ≤ RandomSource.maxLength
  times : c.operationCount * (c.interval.nanos + c.jitter.nanos) ≤ greatestNanos

/-- With a configuration that can be followed to the end of its sequence no draw breaks down. -/
theorem SyntheticConfig.Feasible.drawable {c : SyntheticConfig} (h : c.Feasible) : c.Drawable :=
  ⟨h.valid, h.finite, h.length⟩

/-- A configuration is valid if there is no problem with it. -/
theorem SyntheticConfig.validate_eq_ok {c : SyntheticConfig} :
    c.validate = .ok () ↔ c.problem? = none := by
  unfold validate
  cases c.problem? <;> simp

/-- What the check of a configuration makes sure of, as far as drawing goes. -/
theorem SyntheticConfig.of_validate {c : SyntheticConfig} (h : c.validate = .ok ()) :
    c.recordCount ≠ 0 ∧ 0 < c.interval.nanos ∧ 0 ≤ c.jitter.nanos ∧
      (RandomSource.total c.weights).le (Binary64.zero false) = false := by
  have hproblem := validate_eq_ok.mp h
  unfold problem? at hproblem
  split_ifs at hproblem with hcount hinterval hjitter hinterleave hscan htotal
  · split at hproblem <;> simp at hproblem
  · simp only [Duration.isNegative, decide_eq_true_eq] at hjitter
    exact ⟨hcount, by omega, by omega, by simpa using htotal⟩

/-- The time from one instant to a later one can be measured if neither is before the epoch. -/
theorem Instant.exists_since? {t u : Instant} (hu : epoch ≤ u) (hle : u ≤ t) :
    ∃ lag, t.since? u = some lag ∧ lag.nanos = t.nanos - u.nanos := by
  have hbounds := t.fits
  rw [le_iff] at hu hle
  have hepoch : epoch.nanos = 0 := rfl
  have hfits : FitsNanos (t.nanos - u.nanos) := by
    unfold FitsNanos at hbounds ⊢
    unfold leastNanos greatestNanos at *
    omega
  exact ⟨⟨_, hfits⟩, dif_pos hfits, rfl⟩

/-! ## What operations wait for -/

/-- An operation waits for a time, or for nothing: then it depends on its own start. -/
def Operation.WaitsFor {P : Type} (op : Operation P) : Option Instant → Prop
  | some time => op.isGated = true ∧ op.dependencyTime = time
  | none => op.isGated = false ∧ op.dependencyTime = op.scheduledStart

namespace SyntheticOperation

/-- The start of the latest update, once another operation has come. -/
def update? (x : SyntheticOperation) (latest : Option Instant) : Option Instant :=
  if x.kind = .update then some x.operation.scheduledStart else latest

/-- The start of the last update among operations. -/
def latestUpdate (xs : List SyntheticOperation) : Option Instant :=
  (xs.filter (·.kind = .update)).getLast?.map (·.operation.scheduledStart)

/-- The start of the last of the operations that come after a time, or that time if none comes. -/
def latestStart (time : Instant) (xs : List SyntheticOperation) : Instant :=
  (xs.getLast?.map (·.operation.scheduledStart)).getD time

/-- What an operation is to wait for: a read or a scan for the latest update, if that is not further
away than the maximum interleave, and an update for nothing. -/
def awaited? (c : SyntheticConfig) (latest : Option Instant) (x : SyntheticOperation) :
    Option Instant :=
  if x.kind = .update then none
  else latest.filter fun update =>
    x.operation.scheduledStart.nanos - update.nanos ≤ c.maxInterleave.nanos

/-- The last update of all is the last one after the first operation, or else that of the first. -/
theorem latestUpdate_cons (x : SyntheticOperation) (xs : List SyntheticOperation)
    (latest : Option Instant) :
    (latestUpdate (x :: xs)).or latest = (latestUpdate xs).or (x.update? latest) := by
  unfold latestUpdate update?
  by_cases hkind : x.kind = .update
  · rw [List.filter_cons_of_pos (by simp [hkind]), List.getLast?_cons, if_pos hkind]
    cases (xs.filter (·.kind = .update)).getLast? <;> rfl
  · rw [List.filter_cons_of_neg (by simp [hkind]), if_neg hkind]

/-- The last of all operations is the last one after the first, or else the first. -/
theorem latestStart_cons (time : Instant) (x : SyntheticOperation) (xs : List SyntheticOperation) :
    latestStart time (x :: xs) = latestStart x.operation.scheduledStart xs := by
  unfold latestStart
  rw [List.getLast?_cons]
  cases xs.getLast? <;> rfl

end SyntheticOperation

namespace SyntheticState

variable {γ : Type} {random : RandomSource γ} {c : SyntheticConfig}

/-! ## One operation -/

/-- The latest update of a state is between the epoch and the time of the state. -/
structure Sound (s : SyntheticState γ) : Prop where
  time : Instant.epoch ≤ s.time
  update : ∀ u, s.lastUpdate = some u → Instant.epoch ≤ u ∧ u ≤ s.time

/-- An operation waits for the latest update that is not before the epoch if that is near enough,
and it stays as it is otherwise. -/
theorem gated_eq (c : SyntheticConfig) {latest : Option Instant} {op : Operation KeyValuePayload}
    (hlatest : ∀ u, latest = some u → Instant.epoch ≤ u ∧ u ≤ op.scheduledStart) :
    gated c latest op = (latest.filter fun update =>
      op.scheduledStart.nanos - update.nanos ≤ c.maxInterleave.nanos).elim op op.gatedOn := by
  cases latest with
  | none => rfl
  | some update =>
    obtain ⟨hepoch, hle⟩ := hlatest update rfl
    obtain ⟨lag, hlag, hnanos⟩ := Instant.exists_since? hepoch hle
    have hnear : (op.scheduledStart.since? update).any (· ≤ c.maxInterleave) =
        decide (op.scheduledStart.nanos - update.nanos ≤ c.maxInterleave.nanos) := by
      rw [hlag, Option.any_some, ← hnanos]
      rfl
    unfold gated
    dsimp only
    rw [hnear, Option.filter_some]
    by_cases h : op.scheduledStart.nanos - update.nanos ≤ c.maxInterleave.nanos <;> simp [h]

/-- What is drawn for a time after a state with the given latest update: an operation that starts
then, waits for what it is to wait for, and with which nothing is wrong, and the next state. -/
structure Drawn (c : SyntheticConfig) (latest : Option Instant) (time : Instant)
    (x : SyntheticOperation) (s : SyntheticState γ) : Prop where
  start : x.operation.scheduledStart = time
  named : x.operation.operationType = x.kind.operationType
  waits : x.operation.WaitsFor (x.awaited? c latest)
  dependency : x.operation.dependencyTime ≤ x.operation.scheduledStart
  accepted : Accepts KeyValuePayload.codec c.maxInterleave x.operation
  reached : s.time = time
  update : s.lastUpdate = x.update? latest

/-- Nothing is wrong with an operation that may wait for the latest update before it. -/
theorem drawn_gated {time : Instant} {latest : Option Instant}
    (hlatest : ∀ u, latest = some u → Instant.epoch ≤ u ∧ u ≤ time) {kind : SyntheticKind}
    (hkind : kind ≠ .update) (payload : KeyValuePayload) (g : γ) :
    Drawn c latest time ⟨kind, gated c latest (.independent kind.operationType time payload)⟩
      ⟨g, time, latest⟩ := by
  have hgated : gated c latest (.independent kind.operationType time payload) =
      (latest.filter fun update => time.nanos - update.nanos ≤ c.maxInterleave.nanos).elim
        (.independent kind.operationType time payload)
        (Operation.independent kind.operationType time payload).gatedOn := gated_eq c hlatest
  obtain ⟨form, hform, -⟩ := KeyValuePayload.exists_writtenForm
    (gated c latest (.independent kind.operationType time payload))
  have hupdate : latest = SyntheticOperation.update? ⟨kind, gated c latest
      (.independent kind.operationType time payload)⟩ latest := (if_neg hkind).symm
  cases hnear : latest.filter fun update =>
      time.nanos - update.nanos ≤ c.maxInterleave.nanos with
  | none =>
    rw [hnear, Option.elim_none] at hgated
    rw [hgated] at hform hupdate ⊢
    refine ⟨rfl, rfl, ?_, le_refl time, ⟨fun h => ?_, form, hform⟩, rfl, hupdate⟩
    · rw [SyntheticOperation.awaited?, if_neg hkind]
      exact hnear ▸ ⟨rfl, rfl⟩
    · simp [Operation.isGated, Operation.independent] at h
  | some update =>
    -- The update is not further away than an operation that waits for it may be.
    obtain ⟨hlast, hle⟩ := Option.filter_eq_some_iff.mp hnear
    obtain ⟨hepoch, hbefore⟩ := hlatest update hlast
    obtain ⟨lag, hlag, hnanos⟩ := Instant.exists_since? hepoch hbefore
    rw [hnear, Option.elim_some] at hgated
    rw [hgated] at hform hupdate ⊢
    refine ⟨rfl, rfl, ?_, hbefore, ⟨fun _ => ⟨lag, hlag, ?_⟩, form, hform⟩, rfl, hupdate⟩
    · rw [SyntheticOperation.awaited?, if_neg hkind]
      exact hnear ▸ ⟨rfl, rfl⟩
    · exact Int.not_lt.mpr (hnanos ▸ of_decide_eq_true hle)

/-- Nor with an update, which waits for nothing. -/
theorem drawn_update (c : SyntheticConfig) (latest : Option Instant) (time : Instant)
    (payload : KeyValuePayload) (g : γ) :
    Drawn c latest time
      ⟨.update, .independent SyntheticKind.update.operationType time payload⟩
      ⟨g, time, some time⟩ := by
  obtain ⟨form, hform, -⟩ := KeyValuePayload.exists_writtenForm
    (.independent SyntheticKind.update.operationType time payload)
  exact ⟨rfl, rfl, ⟨rfl, rfl⟩, le_refl time,
    ⟨fun h => by simp [Operation.isGated, Operation.independent] at h, form, hform⟩, rfl, rfl⟩

/-- A sound state follows if the operation comes after the state before it. -/
theorem Drawn.sound {s s' : SyntheticState γ} {time : Instant} {x : SyntheticOperation}
    (h : Drawn c s.lastUpdate time x s') (hs : s.Sound) (hlater : s.time < time) : s'.Sound := by
  have hepoch : Instant.epoch ≤ time := hs.time.trans hlater.le
  refine ⟨h.reached ▸ hepoch, fun u hu => ?_⟩
  rw [h.update, SyntheticOperation.update?] at hu
  rw [h.reached]
  split_ifs at hu with hkind
  · obtain rfl := Option.some.inj hu
    rw [h.start]
    exact ⟨hepoch, le_refl time⟩
  · obtain ⟨hleast, hle⟩ := hs.update u hu
    exact ⟨hleast, hle.trans hlater.le⟩

/-- The arguments of an operation are drawn. -/
theorem exists_drawPayload (random : RandomSource γ)
    (hlength : c.valueLength ≤ RandomSource.maxLength) (key : Nat) (g : γ) (kind : SyntheticKind) :
    ∃ drawn, drawPayload random c key g kind = .ok drawn := by
  cases kind with
  | read => exact ⟨_, rfl⟩
  | scan => exact ⟨_, rfl⟩
  | update =>
    obtain ⟨drawn, hdrawn⟩ := random.exists_printableText hlength g
    rw [drawPayload, hdrawn]
    exact ⟨_, rfl⟩

/-- An operation is drawn for each time. -/
theorem exists_drawOperation (random : RandomSource γ) (hc : c.Drawable) {time : Instant}
    {latest : Option Instant}
    (hlatest : ∀ u, latest = some u → Instant.epoch ≤ u ∧ u ≤ time) (g : γ) :
    ∃ x s, drawOperation random c time latest g = .ok (x, s) ∧ Drawn c latest time x s := by
  obtain ⟨hcount, -, -, htotal⟩ := SyntheticConfig.of_validate hc.valid
  obtain ⟨⟨key, g₁⟩, hkey⟩ : ∃ drawn, random.index c.recordCount g = .ok drawn :=
    ⟨_, if_neg hcount⟩
  obtain ⟨⟨place, g₂⟩, hplace⟩ := random.exists_weightedChoice hc.finite htotal g₁
  obtain ⟨⟨payload, g₃⟩, hpayload⟩ :=
    exists_drawPayload random hc.length key g₂ (SyntheticKind.ofPlace place)
  unfold drawOperation
  simp only [hkey, hplace, hpayload, bind, Except.bind, pure, Except.pure]
  split_ifs with hkind
  · rw [hkind]
    exact ⟨_, _, rfl, drawn_update c latest time payload g₃⟩
  · exact ⟨_, _, rfl, drawn_gated hlatest hkind payload g₃⟩

/-- What is added to an interval is not more than the jitter, and it is not negative. -/
theorem drawJitter_range (hrandom : random.StaysInRange) (hjitter : 0 ≤ c.jitter.nanos) (g : γ) :
    0 ≤ (drawJitter random c g).1.nanos ∧ (drawJitter random c g).1.nanos ≤ c.jitter.nanos := by
  by_cases hnone : c.jitter.nanos ≤ 0
  · rw [drawJitter, if_pos hnone]
    exact ⟨le_refl 0, hjitter⟩
  · have hle := hrandom c.jitter.nanos.toNat g
    have hmax := c.jitter.fits.2
    have hfits : FitsNanos (random.upTo c.jitter.nanos.toNat g).1 := by
      simp only [FitsNanos, leastNanos, greatestNanos] at hmax ⊢
      omega
    have hnanos : (drawJitter random c g).1.nanos = (random.upTo c.jitter.nanos.toNat g).1 := by
      rw [drawJitter, if_neg hnone]
      exact clampNanos_eq hfits
    omega

/-- The next operation is drawn for the time that follows the latest start after the interval and
some of the jitter. Only if that time is out of range there is none, but an error. -/
theorem next_cases (hrandom : random.StaysInRange) (hc : c.Drawable) {s : SyntheticState γ}
    (hs : s.Sound) : ∃ jitter : Duration, 0 ≤ jitter.nanos ∧ jitter.nanos ≤ c.jitter.nanos ∧
      ((∃ x s' time, s.next random c = .ok (x, s') ∧ Drawn c s.lastUpdate time x s' ∧
        time.nanos = s.time.nanos + c.interval.nanos + jitter.nanos) ∨
      s.next random c = .error (.stream "scheduled start overflows") ∧
        greatestNanos < s.time.nanos + c.interval.nanos + jitter.nanos) := by
  obtain ⟨-, hinterval, hjitter, -⟩ := SyntheticConfig.of_validate hc.valid
  obtain ⟨hlow, hhigh⟩ := drawJitter_range hrandom hjitter s.source
  have hepoch : 0 ≤ s.time.nanos := hs.time
  have hleast : leastNanos ≤ 0 := by decide
  unfold next
  generalize drawJitter random c s.source = drawn at hlow hhigh ⊢
  obtain ⟨jitter, g⟩ := drawn
  refine ⟨jitter, hlow, hhigh, ?_⟩
  dsimp only at hlow hhigh ⊢
  by_cases hroom : s.time.nanos + c.interval.nanos + jitter.nanos ≤ greatestNanos
  · -- There is room for both additions.
    have hfirst : FitsNanos (s.time.nanos + c.interval.nanos) := ⟨by omega, by omega⟩
    have hsecond : FitsNanos (s.time.nanos + c.interval.nanos + jitter.nanos) :=
      ⟨by omega, hroom⟩
    have htime : (s.time.add? c.interval).bind (·.add? jitter) =
        some ⟨s.time.nanos + c.interval.nanos + jitter.nanos, hsecond⟩ := by
      simp [Instant.add?, Instant.ofNanos?, hfirst, hsecond]
    have hlater : s.time ≤ ⟨s.time.nanos + c.interval.nanos + jitter.nanos, hsecond⟩ := by
      rw [Instant.le_iff]
      dsimp only
      omega
    obtain ⟨x, s', hx, hdrawn⟩ := exists_drawOperation random hc
      (fun u hu => ⟨(hs.update u hu).1, (hs.update u hu).2.trans hlater⟩) g
    refine .inl ⟨x, s', _, ?_, hdrawn, rfl⟩
    rw [htime]
    simp [hx]
  · -- If the first addition fits, the second one does not.
    have htime : (s.time.add? c.interval).bind (·.add? jitter) = none := by
      have hsecond : ¬ FitsNanos (s.time.nanos + c.interval.nanos + jitter.nanos) :=
        fun h => hroom h.2
      by_cases hfirst : FitsNanos (s.time.nanos + c.interval.nanos) <;>
        simp [Instant.add?, Instant.ofNanos?, hfirst, hsecond]
    rw [htime]
    exact .inr ⟨rfl, not_le.mp hroom⟩

end SyntheticState

/-! ## The whole sequence -/

/-- Operations as they are drawn one after another from a time on: they start at increasing times,
and nothing is wrong with them. -/
structure SyntheticOperation.InTurn (c : SyntheticConfig) (time : Instant)
    (xs : List SyntheticOperation) : Prop where
  increasing : xs.Pairwise (·.operation.scheduledStart < ·.operation.scheduledStart)
  later : ∀ x ∈ xs, time < x.operation.scheduledStart
  dependencies : ∀ x ∈ xs, x.operation.dependencyTime ≤ x.operation.scheduledStart
  accepted : ∀ x ∈ xs, Accepts KeyValuePayload.codec c.maxInterleave x.operation

/-- Operations as they are drawn after a latest update: they are named after their kinds, and each
waits for the latest update before it if it is to. -/
structure SyntheticOperation.Chained (c : SyntheticConfig) (latest : Option Instant)
    (xs : List SyntheticOperation) : Prop where
  named : ∀ x ∈ xs, x.operation.operationType = x.kind.operationType
  waits : ∀ (i : Nat) (x : SyntheticOperation), xs[i]? = some x →
    x.operation.WaitsFor (x.awaited? c ((latestUpdate (xs.take i)).or latest))

/-- After operations that come after a time, a start that is drawn for the next one overflows. -/
def SyntheticOperation.RunOut (c : SyntheticConfig) (time : Instant)
    (xs : List SyntheticOperation) : Prop :=
  ∃ jitter : Duration, 0 ≤ jitter.nanos ∧ jitter.nanos ≤ c.jitter.nanos ∧
    greatestNanos < (latestStart time xs).nanos + c.interval.nanos + jitter.nanos

/-- No operations come in turn. -/
theorem SyntheticOperation.InTurn.nil (c : SyntheticConfig) (time : Instant) : InTurn c time [] :=
  ⟨List.Pairwise.nil, by simp, by simp, by simp⟩

/-- Nothing is wrong with no operations. -/
theorem SyntheticOperation.Chained.nil (c : SyntheticConfig) (latest : Option Instant) :
    Chained c latest [] :=
  ⟨by simp, by simp⟩

section Drawing

variable {γ : Type} {random : RandomSource γ} {c : SyntheticConfig} {now time : Instant}
  {latest : Option Instant} {x : SyntheticOperation} {xs : List SyntheticOperation}
  {s : SyntheticState γ}

/-- An operation comes before those that are drawn from its start on. -/
theorem SyntheticState.Drawn.inTurn_cons (hx : Drawn c latest time x s) (hlater : now < time)
    (hxs : SyntheticOperation.InTurn c time xs) : SyntheticOperation.InTurn c now (x :: xs) where
  increasing := List.pairwise_cons.mpr ⟨fun y hy => hx.start ▸ hxs.later y hy, hxs.increasing⟩
  later := List.forall_mem_cons.mpr ⟨hx.start ▸ hlater, fun y hy => hlater.trans (hxs.later y hy)⟩
  dependencies := List.forall_mem_cons.mpr ⟨hx.dependency, hxs.dependencies⟩
  accepted := List.forall_mem_cons.mpr ⟨hx.accepted, hxs.accepted⟩

/-- Those that are drawn after an operation wait for it if it is the latest update before them. -/
theorem SyntheticState.Drawn.chained_cons (hx : Drawn c latest time x s)
    (hxs : SyntheticOperation.Chained c s.lastUpdate xs) :
    SyntheticOperation.Chained c latest (x :: xs) where
  named := List.forall_mem_cons.mpr ⟨hx.named, hxs.named⟩
  waits i y hy := by
    cases i with
    | zero =>
      obtain rfl := Option.some.inj hy
      exact hx.waits
    | succ i =>
      rw [List.take_succ_cons, SyntheticOperation.latestUpdate_cons, ← hx.update]
      exact hxs.waits i y hy

/-- As many operations are drawn as are left, or fewer, and then a start overflows. -/
theorem SyntheticState.sequence_cases (hrandom : random.StaysInRange) (hc : c.Drawable) (n : Nat)
    (hs : s.Sound) : ∃ xs, SyntheticOperation.InTurn c s.time xs ∧
      SyntheticOperation.Chained c s.lastUpdate xs ∧
      (SyntheticOperation.latestStart s.time xs).nanos ≤
        s.time.nanos + xs.length * (c.interval.nanos + c.jitter.nanos) ∧
      ((s.sequence random c n).toList = xs.map .ok ∧ xs.length = n ∨
        (s.sequence random c n).toList =
          xs.map .ok ++ [.error (.stream "scheduled start overflows")] ∧
        xs.length < n ∧ SyntheticOperation.RunOut c s.time xs) := by
  induction n generalizing s with
  | zero =>
    exact ⟨[], .nil c s.time, .nil c s.lastUpdate, by simp [SyntheticOperation.latestStart],
      .inl ⟨rfl, rfl⟩⟩
  | succ n ih =>
    obtain ⟨-, hinterval, -, -⟩ := SyntheticConfig.of_validate hc.valid
    obtain ⟨jitter, hlow, hhigh, ⟨x, s', time, hnext, hdrawn, htime⟩ | ⟨hnext, hlate⟩⟩ :=
      next_cases hrandom hc hs
    · -- The rest is drawn from the state after the operation.
      have hlater : s.time < time := by
        rw [Instant.lt_iff]
        omega
      obtain ⟨xs, hturn, hchained, hstart, hends⟩ := ih (hdrawn.sound hs hlater)
      have hlatest : SyntheticOperation.latestStart s.time (x :: xs) =
          SyntheticOperation.latestStart s'.time xs := by
        rw [SyntheticOperation.latestStart_cons, hdrawn.start, hdrawn.reached]
      have hsequence : (s.sequence random c (n + 1)).toList =
          .ok x :: (s'.sequence random c n).toList := by
        rw [sequence, hnext, LazyList.toList_cons]
      refine ⟨x :: xs, hdrawn.inTurn_cons hlater (hdrawn.reached ▸ hturn),
        hdrawn.chained_cons hchained, ?_, ?_⟩
      · rw [hlatest, List.length_cons, Int.natCast_add_one, Int.add_mul, Int.one_mul]
        rw [hdrawn.reached] at hstart ⊢
        omega
      · rw [hsequence, List.length_cons, SyntheticOperation.RunOut, hlatest]
        rcases hends with ⟨htoList, hlength⟩ | ⟨htoList, hlength, hout⟩
        · exact .inl ⟨congrArg (.ok x :: ·) htoList, congrArg (· + 1) hlength⟩
        · exact .inr ⟨congrArg (.ok x :: ·) htoList, Nat.succ_lt_succ hlength, hout⟩
    · refine ⟨[], .nil c s.time, .nil c s.lastUpdate, by simp [SyntheticOperation.latestStart],
        .inr ⟨?_, Nat.succ_pos n, jitter, hlow, hhigh, hlate⟩⟩
      rw [sequence, hnext]
      rfl

/-- As many operations are drawn as there is time for. -/
theorem SyntheticState.exists_sequence (hrandom : random.StaysInRange) (hc : c.Feasible) (n : Nat)
    (hs : s.Sound)
    (hroom : s.time.nanos + n * (c.interval.nanos + c.jitter.nanos) ≤ greatestNanos) :
    ∃ xs, (s.sequence random c n).toList = xs.map .ok ∧ xs.length = n ∧
      SyntheticOperation.InTurn c s.time xs := by
  obtain ⟨xs, hturn, -, hstart, ⟨htoList, hlength⟩ | ⟨-, hlength, jitter, -, hhigh, hlate⟩⟩ :=
    sequence_cases hrandom hc.drawable n hs
  · exact ⟨xs, htoList, hlength, hturn⟩
  · -- There is time for one operation more.
    obtain ⟨-, hinterval, hjitter, -⟩ := SyntheticConfig.of_validate hc.valid
    have hmore : ((xs.length + 1 : Nat) : Int) * (c.interval.nanos + c.jitter.nanos) ≤
        n * (c.interval.nanos + c.jitter.nanos) :=
      Int.mul_le_mul_of_nonneg_right (by omega) (by omega)
    rw [Int.natCast_add_one, Int.add_mul, Int.one_mul] at hmore
    omega

/-- Nothing has been drawn at the beginning. -/
theorem SyntheticState.sound_ofSeed (random : RandomSource γ) (seed : Nat) :
    (ofSeed random seed).Sound :=
  ⟨le_refl Instant.epoch, by simp [ofSeed]⟩

end Drawing

/-- The sequence of a feasible configuration has as many operations as the configuration says, in
turn. -/
theorem exists_syntheticSequence {γ : Type} {random : RandomSource γ} {c : SyntheticConfig}
    (hrandom : random.StaysInRange) (hc : c.Feasible) (seed : Nat) :
    ∃ xs, (syntheticSequence random c seed).toList = xs.map .ok ∧ xs.length = c.operationCount ∧
      SyntheticOperation.InTurn c .epoch xs :=
  SyntheticState.exists_sequence hrandom hc c.operationCount
    (SyntheticState.sound_ofSeed random seed)
    (by simpa [SyntheticState.ofSeed, Instant.epoch] using hc.times)

end WorkloadReplay
