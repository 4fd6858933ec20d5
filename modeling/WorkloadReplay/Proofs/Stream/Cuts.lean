import WorkloadReplay.Proofs.Stream.SoundParts
import WorkloadReplay.Proofs.Stream.Sorting

/-!
# Where a fault cuts a merge

While a merge goes on, its lanes carry what is still to come of all sequences before their faults
(`Lane.Carries`). What comes out is the stable merge of that, and it is cut where all operations of
some faulty sequence are out (`IsCut`): the fault of a sequence is found when the last operation
before it is taken, one operation ahead of its place. A sequence that begins with its fault ends the
merge before anything comes out. `merge_cases` puts both together.
-/

namespace WorkloadReplay

variable {P : Type}

/-! ## Cuts of merges -/

/-- The start of an operation of a merge. -/
abbrev ScheduledOperation.start (x : ScheduledOperation P) : Instant := x.operation.scheduledStart

/-- The first `m` operations of a merge include all that come from sequence `i`. -/
def IncludesAll (c : Nat → List (ScheduledOperation P)) (n m i : Nat) : Prop :=
  ((stableMerge (·.start) c n).take m).filter (·.1 = i) = (c i).map (i, ·)

/-- A merge is cut after `m` operations by the fault of sequence `i`: all operations of it are out,
those of no faulty sequence are out earlier, and those of no other one at the same place. -/
structure IsCut (c : Nat → List (ScheduledOperation P)) (d : Nat → Option ReplayError)
    (n m i : Nat) : Prop where
  lt : i < n
  includes : IncludesAll c n m i
  least : ∀ m' i', i' < n → (d i').isSome → IncludesAll c n m' i' → m ≤ m' ∧ (m' = m → i' = i)

/-- What a merge gives: everything, if no sequence is faulty, and otherwise what is before the cut,
and then the error of the sequence that the cut belongs to. -/
inductive Yields (c : Nat → List (ScheduledOperation P)) (d : Nat → Option ReplayError) (n : Nat) :
    List (Except ReplayError (ScheduledOperation P)) → Prop where
  | all (h : ∀ i < n, d i = none) :
    Yields c d n ((stableMerge (·.start) c n).map (.ok ·.2))
  | cut {m i : Nat} {e : ReplayError} (h : IsCut c d n m i) (hd : d i = some e) :
    Yields c d n
      (((stableMerge (·.start) c n).take m).map (.ok ·.2) ++ [.error e])

/-- The first operation that a merge gives is the first of all. -/
theorem Yields.head {c : Nat → List (ScheduledOperation P)} {d : Nat → Option ReplayError} {n : Nat}
    {x : ScheduledOperation P} {items : List (Except ReplayError (ScheduledOperation P))}
    (h : Yields c d n (.ok x :: items)) :
    ∃ i rest, stableMerge (·.start) c n = (i, x) :: rest := by
  generalize hitems : Except.ok x :: items = all at h
  cases hmerge : stableMerge (·.start) c n with
  | nil => cases h <;> simp [hmerge] at hitems
  | cons y rest =>
    have hy : x = y.2 := by
      cases h with
      | all =>
        rw [hmerge, List.map_cons] at hitems
        exact Except.ok.inj (List.cons.inj hitems).1
      | @cut m =>
        rw [hmerge] at hitems
        cases m with
        | zero => simp at hitems
        | succ m => exact Except.ok.inj (List.cons.inj hitems).1
    exact ⟨y.1, rest, by rw [hy]⟩

section Cutting

variable {c : Nat → List (ScheduledOperation P)} {d : Nat → Option ReplayError}
  {n m i k : Nat} {x : ScheduledOperation P} {l : List (ScheduledOperation P)}

/-- One operation more. -/
theorem includesAll_succ (hf : c k = x :: l)
    (hmerge : stableMerge (·.start) c n =
      (k, x) :: stableMerge (·.start) (Function.update c k l) n) :
    IncludesAll c n (m + 1) i ↔ IncludesAll (Function.update c k l) n m i := by
  unfold IncludesAll
  rw [hmerge, List.take_succ_cons]
  by_cases hi : k = i
  · subst hi
    rw [List.filter_cons_of_pos (by simp), hf, Function.update_self, List.map_cons]
    exact List.cons_inj_right _
  · rw [List.filter_cons_of_neg (by simpa using hi), Function.update_of_ne (Ne.symm hi)]

/-- Nothing includes all of a sequence only if nothing comes from it. -/
theorem includesAll_zero : IncludesAll c n 0 i ↔ c i = [] := by
  unfold IncludesAll
  rw [List.take_zero, List.filter_nil, eq_comm, List.map_eq_nil_iff]

/-- A cut of the rest is a cut one operation later. -/
theorem IsCut.succ (hf : c k = x :: l)
    (hmerge : stableMerge (·.start) c n =
      (k, x) :: stableMerge (·.start) (Function.update c k l) n)
    (hd : ∀ i < n, (d i).isSome → c i ≠ []) (h : IsCut (Function.update c k l) d n m i) :
    IsCut c d n (m + 1) i := by
  refine ⟨h.lt, (includesAll_succ hf hmerge).mpr h.includes, fun m' i' hi' hdi' hincl => ?_⟩
  cases m' with
  | zero => exact absurd (includesAll_zero.mp hincl) (hd i' hi' hdi')
  | succ m' =>
    obtain ⟨hle, heq⟩ := h.least m' i' hi' hdi' ((includesAll_succ hf hmerge).mp hincl)
    exact ⟨by omega, fun hm => heq (by omega)⟩

/-- The only operation of a sequence is out, and nothing of the other sequences is. -/
theorem isCut_one (hk : k < n) (hf : c k = [x])
    (hmerge : stableMerge (·.start) c n =
      (k, x) :: stableMerge (·.start) (Function.update c k []) n)
    (hd : ∀ i < n, (d i).isSome → c i ≠ []) : IsCut c d n 1 k := by
  have hzero : IncludesAll (Function.update c k []) n 0 k :=
    includesAll_zero.mpr (Function.update_self ..)
  refine ⟨hk, (includesAll_succ hf hmerge).mpr hzero, fun m' i' hi' hdi' hincl => ?_⟩
  cases m' with
  | zero => exact absurd (includesAll_zero.mp hincl) (hd i' hi' hdi')
  | succ m' =>
    refine ⟨by omega, fun hm => ?_⟩
    obtain rfl : m' = 0 := by omega
    have hnil := includesAll_zero.mp ((includesAll_succ hf hmerge).mp hincl)
    by_contra hne
    rw [Function.update_of_ne hne] at hnil
    exact hd i' hi' hdi' hnil

end Cutting

namespace Lane

/-- Lanes carry all that is still to come of `n` sequences: `c` before their faults, and `d` for
these. -/
structure Carries (n : Nat) (lanes : List (Lane P)) (c : Nat → List (ScheduledOperation P))
    (d : Nat → Option ReplayError) : Prop where
  ordered : Ordered lanes
  bound : ∀ a ∈ lanes, a.number < n
  content : ∀ a ∈ lanes, c a.number = ⟨a.head, a.source.tracked⟩ :: a.source.offered
  defect : ∀ a ∈ lanes, d a.number = a.source.defect?
  ended : ∀ k < n, k ∉ lanes.map number → c k = [] ∧ d k = none

/-- A sequence whose lane cannot be found gives an error. -/
theorem ofSource_eq_error {n : Nat} {s : Source P} {e : ReplayError} :
    ofSource n s = .error e ↔ s.pull = .error e := by
  unfold ofSource
  cases s.pull with
  | error e' => simp
  | ok found => cases found <;> simp

/-- A sequence without a lane is at its end. -/
theorem ofSource_eq_none {n : Nat} {s : Source P} :
    ofSource n s = .ok none ↔ s.pull = .ok none := by
  unfold ofSource
  cases s.pull with
  | error e => simp
  | ok found => cases found <;> simp

section Carrying

variable {lanes as : List (Lane P)} {a b : Lane P} {c : Nat → List (ScheduledOperation P)}
  {d : Nat → Option ReplayError} {n : Nat}

/-- From a faulty sequence something is still to come. -/
theorem Carries.ne_nil (h : Carries n lanes c d) {i : Nat} (hi : i < n) (hd : (d i).isSome) :
    c i ≠ [] := by
  by_cases hmem : i ∈ lanes.map number
  · obtain ⟨a, ha, rfl⟩ := List.mem_map.mp hmem
    rw [h.content a ha]
    exact List.cons_ne_nil _ _
  · rw [(h.ended i hi hmem).2] at hd
    simp at hd

/-- Nothing that is to come from a sequence comes before the operation of its lane. -/
theorem Carries.le_start (h : Carries n lanes c d) (ha : a ∈ lanes) {x : ScheduledOperation P}
    (hx : x ∈ c a.number) : a.head.scheduledStart ≤ x.start := by
  rw [h.content a ha] at hx
  rcases List.mem_cons.mp hx with rfl | hx
  · exact le_refl _
  · obtain ⟨op, hop, rfl⟩ := List.mem_map.mp hx
    have hlater := a.source.sound_spec.2.1 op hop
    rw [h.ordered.taken a ha] at hlater
    exact Option.some_le_some.mp hlater

/-- The merge of what is to come begins with the operation of the first lane. -/
theorem Carries.stableMerge_eq (h : Carries n (a :: as) c d) :
    stableMerge (·.start) c n = (a.number, ⟨a.head, a.source.tracked⟩) ::
      stableMerge (·.start) (Function.update c a.number a.source.offered) n := by
  have ha : a ∈ a :: as := List.mem_cons_self
  refine stableMerge_cons (h.bound a ha) (h.content a ha) (fun j hj y hy => ?_) fun j hj y hy => ?_
  · by_cases hmem : j ∈ (a :: as).map number
    · obtain ⟨b, hb, rfl⟩ := List.mem_map.mp hmem
      exact le_trans (h.ordered.head_le hb) (h.le_start hb hy)
    · rw [(h.ended j hj hmem).1] at hy
      simp at hy
  · by_cases hmem : j ∈ (a :: as).map number
    · obtain ⟨b, hb, rfl⟩ := List.mem_map.mp hmem
      have hb' : b ∈ as := (List.mem_cons.mp hb).resolve_left fun heq => by
        rw [heq] at hj
        exact lt_irrefl _ hj
      have hkey := key_lt_iff.mp ((List.pairwise_cons.mp h.ordered.sorted).1 b hb')
      have hlt : a.head.scheduledStart < b.head.scheduledStart :=
        hkey.resolve_right fun heq => absurd heq.2 (by simp only [not_lt]; omega)
      exact ne_of_gt (lt_of_lt_of_le hlt (h.le_start hb hy))
    · rw [(h.ended j (lt_trans hj (h.bound a ha)) hmem).1] at hy
      simp at hy

/-- Without the first lane, nothing more is to come from its sequence. -/
theorem Carries.tail (h : Carries n (a :: as) c d) :
    Carries n as (Function.update c a.number []) (Function.update d a.number none) := by
  have hnew : a.number ∉ as.map number := (List.nodup_cons.mp h.ordered.nodup).1
  have hne : ∀ b ∈ as, b.number ≠ a.number := fun b hb heq => hnew (heq ▸ List.mem_map_of_mem hb)
  refine ⟨h.ordered.tail, fun b hb => h.bound b (List.mem_cons_of_mem a hb), fun b hb => ?_,
    fun b hb => ?_, fun k hk hmem => ?_⟩
  · rw [Function.update_of_ne (hne b hb)]
    exact h.content b (List.mem_cons_of_mem a hb)
  · rw [Function.update_of_ne (hne b hb)]
    exact h.defect b (List.mem_cons_of_mem a hb)
  · by_cases hka : k = a.number
    · rw [hka, Function.update_self, Function.update_self]
      exact ⟨rfl, rfl⟩
    · rw [Function.update_of_ne hka, Function.update_of_ne hka]
      refine h.ended k hk ?_
      rw [List.map_cons, List.mem_cons, not_or]
      exact ⟨hka, hmem⟩

/-- With one sequence more, from which nothing is to come. -/
theorem Carries.grow (h : Carries n as c d) :
    Carries (n + 1) as (Function.update c n []) (Function.update d n none) := by
  have hne : ∀ b ∈ as, b.number ≠ n := fun b hb => (h.bound b hb).ne
  refine ⟨h.ordered, fun b hb => Nat.lt_succ_of_lt (h.bound b hb), fun b hb => ?_, fun b hb => ?_,
    fun k hk hmem => ?_⟩
  · rw [Function.update_of_ne (hne b hb)]
    exact h.content b hb
  · rw [Function.update_of_ne (hne b hb)]
    exact h.defect b hb
  · by_cases hkn : k = n
    · rw [hkn, Function.update_self, Function.update_self]
      exact ⟨rfl, rfl⟩
    · rw [Function.update_of_ne hkn, Function.update_of_ne hkn]
      exact h.ended k (by omega) hmem

/-- A lane is put among others, from whose sequence nothing was to come before. -/
theorem Carries.insert
    (h : Carries n as (Function.update c a.number []) (Function.update d a.number none))
    (hnew : a.number ∉ as.map number) (hlt : a.number < n)
    (hcontent : c a.number = ⟨a.head, a.source.tracked⟩ :: a.source.offered)
    (hdefect : d a.number = a.source.defect?)
    (htaken : a.source.lastStart = some a.head.scheduledStart)
    (hdep : a.head.dependencyTime ≤ a.head.scheduledStart) : Carries n (Lane.insert a as) c d := by
  have hne : ∀ b ∈ as, b.number ≠ a.number := fun b hb heq => hnew (heq ▸ List.mem_map_of_mem hb)
  refine ⟨h.ordered.insert hnew htaken hdep, fun b hb => ?_, fun b hb => ?_, fun b hb => ?_,
    fun k hk hmem => ?_⟩
  · rcases mem_insert.mp hb with rfl | hb
    · exact hlt
    · exact h.bound b hb
  · rcases mem_insert.mp hb with rfl | hb
    · exact hcontent
    · have hb' := h.content b hb
      rwa [Function.update_of_ne (hne b hb)] at hb'
  · rcases mem_insert.mp hb with rfl | hb
    · exact hdefect
    · have hb' := h.defect b hb
      rwa [Function.update_of_ne (hne b hb)] at hb'
  · rw [((insert_perm a as).map number).mem_iff, List.map_cons, List.mem_cons, not_or] at hmem
    have hk' := h.ended k hk hmem.2
    rwa [Function.update_of_ne hmem.1, Function.update_of_ne hmem.1] at hk'

/-- If the first lane's sequence is at its end, the others carry what is left. -/
theorem Carries.next_none (h : Carries n (a :: as) c d) (hnext : a.source.pull = .ok none) :
    Carries n as (Function.update c a.number a.source.offered) d := by
  have hdefect : d a.number = none :=
    (h.defect a List.mem_cons_self).trans (Source.defect?_of_pull_none hnext)
  have htail := h.tail
  rw [← hdefect, Function.update_eq_self] at htail
  rwa [Source.offered, (Source.sound_of_pull_none hnext).1]

/-- If the first lane moves on, the lanes carry what is left. -/
theorem Carries.next_some (h : Carries n (a :: as) c d) (hnext : a.next = .ok (some b)) :
    Carries n (Lane.insert b as) (Function.update c a.number a.source.offered) d := by
  have ha : a ∈ a :: as := List.mem_cons_self
  have hnew : a.number ∉ as.map number := (List.nodup_cons.mp h.ordered.nodup).1
  obtain ⟨hpull, hnumber⟩ := ofSource_eq_some hnext
  obtain ⟨-, -, htaken, hdep⟩ := next_eq_some (h.ordered.taken a ha) hnext
  have hdefect : d a.number = b.source.defect? :=
    (h.defect a ha).trans (Source.defect?_of_pull_some hpull)
  have hidem : Function.update (Function.update c a.number a.source.offered) a.number [] =
      Function.update c a.number [] := Function.update_idem ..
  have htail := h.tail
  rw [← hidem] at htail
  rw [← hnumber] at htail hnew hdefect ⊢
  refine htail.insert hnew ?_ ?_ hdefect htaken hdep
  · exact hnumber ▸ h.bound a ha
  · rw [Function.update_self]
    exact Source.offered_of_pull_some hpull

/-- What the merge gives after the operation of the first lane. -/
theorem Carries.yields_succ (h : Carries n (a :: as) c d)
    {items : List (Except ReplayError (ScheduledOperation P))}
    (hitems : Yields (Function.update c a.number a.source.offered) d n items) :
    Yields c d n (.ok ⟨a.head, a.source.tracked⟩ :: items) := by
  have hf := h.content a List.mem_cons_self
  cases hitems with
  | all hd =>
    have hall := Yields.all (c := c) hd
    rwa [h.stableMerge_eq, List.map_cons] at hall
  | @cut m i e hcut hd =>
    have hnext := Yields.cut (hcut.succ hf h.stableMerge_eq fun i hi hdi => h.ne_nil hi hdi) hd
    rwa [h.stableMerge_eq, List.take_succ_cons, List.map_cons, List.cons_append] at hnext

/-- What the merge of lanes gives. -/
theorem Carries.merge (h : Carries n lanes c d) : Yields c d n (Lane.merge lanes).toList := by
  induction lanes using Lane.merge.induct generalizing c with
  | case1 =>
    have hended : ∀ k < n, c k = [] ∧ d k = none := fun k hk => h.ended k hk (by simp)
    have hnil : stableMerge (·.start) c n = [] := by
      refine List.eq_nil_iff_forall_not_mem.mpr fun y hy => ?_
      obtain ⟨hn, hy⟩ := mem_stableMerge.mp hy
      rw [(hended _ hn).1] at hy
      exact List.not_mem_nil hy
    have hall := Yields.all (c := c) fun k hk => (hended k hk).2
    rw [hnil] at hall
    unfold Lane.merge
    exact hall
  | case2 a as ihas ihnext =>
    cases hnext : a.next with
    | error e =>
      rw [merge_of_next_error hnext]
      have hpull := ofSource_eq_error.mp hnext
      have hf := h.content a List.mem_cons_self
      have hmerge := h.stableMerge_eq
      rw [Source.offered, (Source.sound_of_pull_error hpull).1, List.map_nil] at hf hmerge
      have hcut := isCut_one (d := d) (h.bound a List.mem_cons_self) hf hmerge fun i hi hdi =>
        h.ne_nil hi hdi
      have hd := (h.defect a List.mem_cons_self).trans (Source.defect?_of_pull_error hpull)
      have hyields := Yields.cut hcut hd
      rwa [hmerge, List.take_succ_cons, List.take_zero] at hyields
    | ok next =>
      cases next with
      | none =>
        rw [merge_of_next_none hnext]
        exact h.yields_succ (ihas (h.next_none (ofSource_eq_none.mp hnext)))
      | some b =>
        rw [merge_of_next_some hnext]
        exact h.yields_succ (ihnext b hnext (h.next_some hnext))

/-- Where lanes are found for numbered sequences, none of these begins with a fault, and the lanes
carry what is to come from them. -/
theorem Carries.ofSources {ss : List (Source P)} (h : Carries n as c d)
    (hc : ∀ (i : Nat) (s : Source P), ss[i]? = some s →
      c (n + i) = s.offered ∧ d (n + i) = s.defect?)
    (hs : ofSources n ss as = .ok lanes) : Carries (n + ss.length) lanes c d ∧
      ∀ s ∈ ss, ∀ e, s.pull ≠ .error e := by
  induction ss generalizing n as with
  | nil =>
    obtain rfl := Except.ok.inj hs
    exact ⟨h, by simp⟩
  | cons s ss ih =>
    obtain ⟨hcontent, hdefect⟩ := hc 0 s rfl
    rw [Nat.add_zero] at hcontent hdefect
    have hrest : ∀ (i : Nat) (s : Source P), ss[i]? = some s →
        c (n + 1 + i) = s.offered ∧ d (n + 1 + i) = s.defect? := fun i s' hi => by
      rw [Nat.add_right_comm, Nat.add_assoc]
      exact hc (i + 1) s' hi
    have hlength : n + (s :: ss).length = n + 1 + ss.length := by
      rw [List.length_cons]
      omega
    rw [hlength, List.forall_mem_cons]
    unfold Lane.ofSources at hs
    split at hs
    · simp at hs
    · rename_i hnone
      have hpull := ofSource_eq_none.mp hnone
      have hgrow := h.grow
      rw [Source.offered, (Source.sound_of_pull_none hpull).1, List.map_nil] at hcontent
      rw [Source.defect?_of_pull_none hpull] at hdefect
      rw [← hcontent, ← hdefect, Function.update_eq_self, Function.update_eq_self] at hgrow
      obtain ⟨hcarries, hall⟩ := ih hgrow hrest hs
      exact ⟨hcarries, by simp [hpull], hall⟩
    · rename_i a ha
      obtain ⟨hpull, hnumber⟩ := ofSource_eq_some ha
      obtain ⟨tail, -, hsource, -, hdep⟩ := Source.pull_eq_some.mp hpull
      have hgrow := h.grow
      have hnew : n ∉ as.map number := not_mem_numbers h.bound
      rw [Source.offered_of_pull_some hpull] at hcontent
      rw [Source.defect?_of_pull_some hpull] at hdefect
      rw [← hnumber] at hcontent hdefect hnew
      have hinsert : Carries (n + 1) (Lane.insert a as) c d := by
        refine Carries.insert (hnumber ▸ hgrow) hnew (by omega) hcontent hdefect ?_ hdep
        rw [hsource]
      obtain ⟨hcarries, hall⟩ := ih hinsert hrest hs
      exact ⟨hcarries, by simp [hpull], hall⟩

end Carrying

/-- Where no lanes are found, the error is that of the first sequence that begins with a fault. -/
theorem ofSources_eq_error {n : Nat} {ss : List (Source P)} {as : List (Lane P)} {e : ReplayError}
    (hs : ofSources n ss as = .error e) :
    ∃ (i : Nat) (s : Source P), ss[i]? = some s ∧ s.pull = .error e ∧
      ∀ j < i, ∀ s' : Source P, ss[j]? = some s' → ∀ e', s'.pull ≠ .error e' := by
  induction ss generalizing n as with
  | nil => simp [ofSources] at hs
  | cons s ss ih =>
    -- The sequence is not the one, and so it is one of the others.
    have hlater : ∀ {as'}, (∀ e', s.pull ≠ .error e') → ofSources (n + 1) ss as' = .error e →
        ∃ (i : Nat) (s' : Source P), (s :: ss)[i]? = some s' ∧ s'.pull = .error e ∧
          ∀ j < i, ∀ s' : Source P, (s :: ss)[j]? = some s' → ∀ e', s'.pull ≠ .error e' := by
      intro as' hgood hothers
      obtain ⟨i, s', hi, hpull, hbefore⟩ := ih hothers
      refine ⟨i + 1, s', hi, hpull, fun j hj s'' hs'' => ?_⟩
      cases j with
      | zero => exact Option.some.inj hs'' ▸ hgood
      | succ j => exact hbefore j (by omega) s'' hs''
    unfold ofSources at hs
    split at hs
    · rename_i e' herror
      obtain rfl := Except.error.inj hs
      exact ⟨0, s, rfl, ofSource_eq_error.mp herror, by simp⟩
    · rename_i hnone
      refine hlater (fun e' he' => ?_) hs
      rw [ofSource_eq_none.mp hnone] at he'
      simp at he'
    · rename_i a ha
      refine hlater (fun e' he' => ?_) hs
      rw [(ofSource_eq_some ha).1] at he'
      simp at he'

/-- No lanes carry nothing of no sequences. -/
theorem carries_nil (c : Nat → List (ScheduledOperation P)) (d : Nat → Option ReplayError) :
    Carries 0 [] c d :=
  ⟨ordered_nil, by simp, by simp, by simp, by simp⟩

end Lane

/-! ## The merge of streams -/

/-- What the sequence with a number adds to the merge of streams before its first fault. -/
def offeredBy (streams : List (OperationStream P)) (k : Nat) : List (ScheduledOperation P) :=
  ((Source.ofStreams streams)[k]?).elim [] Source.offered

/-- The error for the first fault of the sequence with a number. -/
def defectOf? (streams : List (OperationStream P)) (k : Nat) : Option ReplayError :=
  ((Source.ofStreams streams)[k]?).bind Source.defect?

/-- Every stream has two sequences, the dependencies and then the other operations. -/
theorem Source.ofStreams_spec (streams : List (OperationStream P)) :
    (Source.ofStreams streams).length = 2 * streams.length ∧
    ∀ i, (Source.ofStreams streams)[2 * i]? = (streams[i]?).map
        (fun s => ⟨s.operationType ++ " dependencies", true, none, s.dependencies⟩) ∧
      (Source.ofStreams streams)[2 * i + 1]? = (streams[i]?).map
        (fun s => ⟨s.operationType ++ " operations", false, none, s.others⟩) := by
  induction streams with
  | nil => simp [Source.ofStreams]
  | cons s ss ih =>
    obtain ⟨hlength, hsources⟩ := ih
    refine ⟨?_, fun i => ?_⟩
    · rw [Source.ofStreams, List.length_cons, List.length_cons, hlength, List.length_cons]
      omega
    · cases i with
      | zero => exact ⟨rfl, rfl⟩
      | succ i => exact hsources i

/-- Nothing has been taken from the sequences of streams. -/
theorem Source.lastStart_of_mem_ofStreams {streams : List (OperationStream P)} {s : Source P}
    (h : s ∈ Source.ofStreams streams) : s.lastStart = none := by
  obtain ⟨_, -, rfl | rfl⟩ := mem_ofStreams.mp h <;> rfl

/-- Only sequences that there are have faults. -/
theorem lt_of_defectOf? {streams : List (OperationStream P)} {k : Nat}
    (h : (defectOf? streams k).isSome) : k < 2 * streams.length := by
  rw [← (Source.ofStreams_spec streams).1]
  by_contra hge
  unfold defectOf? at h
  rw [List.getElem?_eq_none (not_lt.mp hge)] at h
  simp at h

/-- A merge ends at once with the error of the first sequence that begins with a fault. If there is
none, it gives the stable merge of what comes before the faults of the sequences, up to its cut. -/
theorem merge_cases (streams : List (OperationStream P)) :
    (∃ k e, offeredBy streams k = [] ∧ defectOf? streams k = some e ∧
      (∀ j < k, offeredBy streams j = [] → defectOf? streams j = none) ∧
      (merge streams).toList = [.error e]) ∨
    (∀ k, offeredBy streams k = [] → defectOf? streams k = none) ∧
      Yields (offeredBy streams) (defectOf? streams) (2 * streams.length)
        (merge streams).toList := by
  have hsource : ∀ (i : Nat) (s : Source P), (Source.ofStreams streams)[i]? = some s →
      offeredBy streams i = s.offered ∧ defectOf? streams i = s.defect? := fun i s hi => by
    unfold offeredBy defectOf?
    rw [hi]
    exact ⟨rfl, rfl⟩
  -- A sequence that does not begin with a fault has something before its first one.
  have hgood : ∀ (i : Nat) (s : Source P), (Source.ofStreams streams)[i]? = some s →
      (∀ e, s.pull ≠ .error e) → offeredBy streams i = [] → defectOf? streams i = none := by
    intro i s hi hpull hnil
    obtain ⟨hoffered, hdefect⟩ := hsource i s hi
    rw [hoffered] at hnil
    rw [hdefect]
    exact Option.eq_none_iff_forall_ne_some.mpr fun e he =>
      hpull e (Source.pull_eq_error.mpr ⟨hnil, he⟩)
  unfold merge
  split
  · rename_i e herror
    obtain ⟨k, s, hk, hpull, hbefore⟩ := Lane.ofSources_eq_error herror
    obtain ⟨hoffered, hdefect⟩ := hsource k s hk
    obtain ⟨hnil, hsome⟩ := Source.pull_eq_error.mp hpull
    refine .inl ⟨k, e, hoffered.trans hnil, hdefect.trans hsome, fun j hj => ?_, rfl⟩
    have hlt : j < (Source.ofStreams streams).length :=
      lt_trans hj (List.getElem?_eq_some_iff.mp hk).1
    have hj' := List.getElem?_eq_getElem hlt
    exact hgood j _ hj' (hbefore j hj _ hj')
  · rename_i lanes hlanes
    obtain ⟨hcarries, hall⟩ := (Lane.carries_nil (offeredBy streams) (defectOf? streams)).ofSources
      (fun i s hi => by rw [Nat.zero_add]; exact hsource i s hi) hlanes
    rw [Nat.zero_add, (Source.ofStreams_spec streams).1] at hcarries
    refine .inr ⟨fun k hnil => ?_, hcarries.merge⟩
    cases hk : (Source.ofStreams streams)[k]? with
    | none =>
      unfold defectOf?
      rw [hk]
      rfl
    | some s => exact hgood k s hk (hall s (List.mem_of_getElem? hk)) hnil

/-- An error of a merge is that for the first fault of a sequence. -/
theorem defectOf?_of_mem_merge {streams : List (OperationStream P)} {e : ReplayError}
    (h : .error e ∈ (merge streams).toList) : ∃ k, defectOf? streams k = some e := by
  rcases merge_cases streams with ⟨k, e', -, hdefect, -, hmerge⟩ | ⟨-, hyields⟩
  · rw [hmerge, List.mem_singleton] at h
    exact ⟨k, hdefect.trans (congrArg some (Except.error.inj h).symm)⟩
  · generalize (merge streams).toList = items at h hyields
    cases hyields with
    | all =>
      obtain ⟨x, -, hx⟩ := List.mem_map.mp h
      simp at hx
    | @cut m i e' _ hdefect =>
      rcases List.mem_append.mp h with h | h
      · obtain ⟨x, -, hx⟩ := List.mem_map.mp h
        simp at hx
      · rw [List.mem_singleton] at h
        exact ⟨i, hdefect.trans (congrArg some (Except.error.inj h).symm)⟩

/-- An operation of a merge comes from before the first fault of a sequence. -/
theorem exists_offered_of_mem_merge {streams : List (OperationStream P)} {x : ScheduledOperation P}
    (h : .ok x ∈ (merge streams).toList) : ∃ s ∈ Source.ofStreams streams, x ∈ s.offered := by
  have hsource : ∀ y ∈ stableMerge (·.start) (offeredBy streams) (2 * streams.length),
      ∃ s ∈ Source.ofStreams streams, y.2 ∈ s.offered := fun y hy => by
    obtain ⟨-, hy⟩ := mem_stableMerge.mp hy
    unfold offeredBy at hy
    cases hs : (Source.ofStreams streams)[y.1]? with
    | none => simp [hs] at hy
    | some s =>
      rw [hs] at hy
      exact ⟨s, List.mem_of_getElem? hs, hy⟩
  rcases merge_cases streams with ⟨k, e, -, -, -, hmerge⟩ | ⟨-, hyields⟩
  · rw [hmerge, List.mem_singleton] at h
    simp at h
  · generalize (merge streams).toList = items at h hyields
    cases hyields with
    | all =>
      obtain ⟨y, hy, hx⟩ := List.mem_map.mp h
      exact Except.ok.inj hx ▸ hsource y hy
    | cut =>
      rcases List.mem_append.mp h with h | h
      · obtain ⟨y, hy, hx⟩ := List.mem_map.mp h
        exact Except.ok.inj hx ▸ hsource y (List.mem_of_mem_take hy)
      · simp at h

/-- A merge that begins with an operation has found no sequence that begins with a fault, and
nothing before the faults comes before that operation. -/
theorem merge_head {streams : List (OperationStream P)} {x : ScheduledOperation P}
    {items : List (Except ReplayError (ScheduledOperation P))}
    (h : (merge streams).toList = .ok x :: items) {s : Source P}
    (hs : s ∈ Source.ofStreams streams) :
    (∀ e, s.pull ≠ .error e) ∧ ∀ y ∈ s.offered, x.start ≤ y.start := by
  obtain ⟨k, hk⟩ := List.mem_iff_getElem?.mp hs
  have hoffered : offeredBy streams k = s.offered := by rw [offeredBy, hk]; rfl
  have hdefect : defectOf? streams k = s.defect? := by rw [defectOf?, hk]; rfl
  rcases merge_cases streams with ⟨j, e, -, -, -, hmerge⟩ | ⟨hgood, hyields⟩
  · rw [h] at hmerge
    simp at hmerge
  · refine ⟨fun e he => ?_, fun y hy => ?_⟩
    · obtain ⟨hnil, hsome⟩ := Source.pull_eq_error.mp he
      rw [← hdefect, hgood k (hoffered.trans hnil)] at hsome
      simp at hsome
    · rw [h] at hyields
      obtain ⟨i, rest, hmerge⟩ := hyields.head
      have hlt : k < 2 * streams.length :=
        (Source.ofStreams_spec streams).1 ▸ (List.getElem?_eq_some_iff.mp hk).1
      have hmem : (k, y) ∈ (i, x) :: rest := hmerge ▸ mem_stableMerge.mpr ⟨hlt, hoffered ▸ hy⟩
      have hsorted := @pairwise_stableMerge _ ScheduledOperation.start
        (offeredBy streams) (2 * streams.length)
      rw [hmerge, List.pairwise_cons] at hsorted
      rcases List.mem_cons.mp hmem with heq | hrest
      · rw [(Prod.mk.inj heq).2]
      · exact hsorted.1 _ hrest

end WorkloadReplay
