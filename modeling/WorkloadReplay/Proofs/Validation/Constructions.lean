import WorkloadReplay.Proofs.Stream.Faults
import WorkloadReplay.Validation.Workload

/-!
# Two constructions of the same streams

A validation of a workload goes through the streams of two constructions and compares the written
forms of their operations. `collect_eq_ok` says what one passage leaves: a form for each operation,
and no problem exactly if the sequence has no error and each of its operations is accepted.
`no_problem_iff` puts two passages together and says exactly when a validation finds nothing wrong.

What is compared are the forms alone, and of the second passage only they are kept. So a difference
between the constructions that leaves the forms as they are goes unnoticed: the second sequence may
end with an error, or have an operation among the dependencies of its stream that the first one has
not there (`unnoticed_difference`).
-/

namespace WorkloadReplay

variable {P : Type}

/-- The error with which a sequence ends. -/
def Schedule.fault? : Schedule P → Option ReplayError
  | .nil => none
  | .cons (.error e) _ => some e
  | .cons (.ok _) tail => fault? (tail ())

/-- A sequence does not end with an error exactly if it has none. -/
theorem Schedule.fault?_eq_none {s : Schedule P} : s.fault? = none ↔ s.ErrorFree := by
  unfold LazyList.ErrorFree
  induction s with
  | nil => simp [fault?]
  | cons item tail ih =>
    rw [LazyList.toList_cons, List.forall_mem_cons]
    cases item with
    | error e => simp [fault?, Except.isOk, Except.toBool]
    | ok x =>
      have hok : (Except.ok x : Except ReplayError (ScheduledOperation P)).isOk = true := rfl
      rw [and_iff_right hok]
      exact ih ()

namespace WorkloadValidation

variable {codec : PayloadCodec P} {interleave : Duration}

/-! ## Problems -/

/-- A problem leaves a trace, even if it is not listed itself. -/
theorem problems_addProblem_ne_nil (v : WorkloadValidation) (problem : String) :
    (v.addProblem problem).problems ≠ [] := by
  unfold addProblem
  split
  · simp
  · split
    · simp
    · intro hnil
      simp_all [maxProblems]

/-- A problem that there may be or not. -/
theorem problems_elim_eq_nil {v : WorkloadValidation} {problem : Option String} :
    (problem.elim v v.addProblem).problems = [] ↔ v.problems = [] ∧ problem = none := by
  cases problem with
  | none => simp
  | some text => simpa using problems_addProblem_ne_nil v text

/-- No problem has been found if none is listed. -/
theorem isSuccessful_iff {v : WorkloadValidation} : v.isSuccessful = true ↔ v.problems = [] :=
  List.isEmpty_iff

/-- An operation is near enough to what it is gated on if it has to wait for nothing, or starts no
later than the interleave allows. -/
theorem interleaveProblem?_eq_none (interleave : Duration) (index : Nat) (op : Operation P) :
    interleaveProblem? interleave index op = none ↔ (op.isGated = true →
      ∃ lag, op.scheduledStart.since? op.dependencyTime = some lag ∧ ¬ interleave < lag) := by
  unfold interleaveProblem?
  cases op.isGated with
  | false => simp
  | true => cases op.scheduledStart.since? op.dependencyTime <;> simp

/-! ## Forms -/

/-- The written form of an operation is the value that it is written as, with sorted fields. -/
theorem writtenForm_eq_ok {op : Operation P} {form : Json} (h : writtenForm codec op = .ok form) :
    ∃ value, op.toJson codec = .ok value ∧ form = value.sorted := by
  unfold writtenForm at h
  cases hvalue : op.toJson codec with
  | error e => simp [hvalue, bind, Except.bind] at h
  | ok value =>
    refine ⟨value, rfl, ?_⟩
    rw [hvalue] at h
    cases hdecoded : Operation.ofJson codec value with
    | error e => simp [hdecoded, bind, Except.bind] at h
    | ok decoded =>
      cases hagain : decoded.toJson codec with
      | error e => simp [hdecoded, hagain, bind, Except.bind] at h
      | ok again =>
        simp only [hdecoded, hagain, bind, Except.bind, pure, Except.pure] at h
        split at h
        · exact (Except.ok.inj h).symm
        · simp [throw, throwThe, MonadExceptOf.throw] at h

/-- It is a record, and so it differs from the null of an operation without a form. -/
theorem not_same_null {op : Operation P} {form : Json} (h : writtenForm codec op = .ok form) :
    form.same .null = false := by
  obtain ⟨value, hvalue, rfl⟩ := writtenForm_eq_ok h
  unfold Operation.toJson at hvalue
  cases hpayload : codec.encode op.payload with
  | error e => simp [hpayload, Except.map] at hvalue
  | ok payload =>
    rw [hpayload] at hvalue
    rw [← Except.ok.inj hvalue]
    rfl

/-- What is collected for an operation. -/
def collectedForm (codec : PayloadCodec P) (op : Operation P) : Json :=
  match writtenForm codec op with
  | .ok form => form
  | .error _ => .null

/-- An operation with which nothing is wrong: it is near enough to what it is gated on, and has a
written form that reading it and writing it again does not change. -/
structure Accepts (codec : PayloadCodec P) (interleave : Duration) (op : Operation P) : Prop where
  near : op.isGated = true →
    ∃ lag, op.scheduledStart.since? op.dependencyTime = some lag ∧ ¬ interleave < lag
  written : ∃ form, writtenForm codec op = .ok form

/-- Two operations are written as the same JSON, and in both cases reading and writing again makes
no difference to it. -/
def SameForm (codec : PayloadCodec P) (x y : ScheduledOperation P) : Prop :=
  ∃ a b, writtenForm codec x.operation = .ok a ∧ writtenForm codec y.operation = .ok b ∧
    a.same b = true

/-- What is collected for an operation with a form is the same as for another one exactly if they
have the same form. -/
theorem sameForm_iff {x y : ScheduledOperation P}
    (hx : ∃ form, writtenForm codec x.operation = .ok form) :
    (collectedForm codec x.operation).same (collectedForm codec y.operation) = true ↔
      SameForm codec x y := by
  obtain ⟨a, ha⟩ := hx
  unfold SameForm collectedForm
  rw [ha]
  cases hb : writtenForm codec y.operation with
  | error e => simp [not_same_null ha]
  | ok b => simp

/-! ## One passage -/

/-- A passage through a sequence breaks down where the sequence does. -/
theorem collect_eq_error {found : Array Json} {v : WorkloadValidation} {s : Schedule P}
    {b : Breakdown} (h : collect codec interleave found v s = .error b) :
    ∃ text, s.fault? = some (.panicked text) := by
  induction s generalizing found v with
  | nil => simp [collect] at h
  | cons item tail ih =>
    cases item with
    | error e =>
      cases e with
      | panicked text => exact ⟨text, rfl⟩
      | _ => simp [collect] at h
    | ok x =>
      unfold collect at h
      cases hform : writtenForm codec x.operation with
      | ok form =>
        rw [hform] at h
        exact ih () h
      | error reason =>
        rw [hform] at h
        exact ih () h

/-- A passage that comes to its end has collected a form for each operation. It adds no problem
exactly if the sequence has no error and all of its operations are accepted. -/
theorem collect_eq_ok {found found' : Array Json} {v v' : WorkloadValidation} {s : Schedule P}
    (h : collect codec interleave found v s = .ok (found', v')) :
    found'.toList = found.toList ++ s.operations.map (collectedForm codec ·.operation) ∧
      (∀ text, s.fault? ≠ some (.panicked text)) ∧
      (v'.problems = [] ↔ v.problems = [] ∧ s.fault? = none ∧
        ∀ x ∈ s.operations, Accepts codec interleave x.operation) := by
  induction s generalizing found v with
  | nil =>
    obtain ⟨rfl, rfl⟩ := Prod.mk.inj (Except.ok.inj h)
    simp [Schedule.operations, Schedule.fault?]
  | cons item tail ih =>
    cases item with
    | error e =>
      have hends : (found, v.addProblem e.message) = (found', v') ∧
          ∀ text, e ≠ .panicked text := by
        cases e <;> simp_all [collect]
      obtain ⟨hpair, hcalm⟩ := hends
      obtain ⟨rfl, rfl⟩ := Prod.mk.inj hpair
      refine ⟨by simp [Schedule.operations], fun text => ?_, ?_⟩
      · simpa [Schedule.fault?] using hcalm text
      · simp [Schedule.fault?, problems_addProblem_ne_nil]
    | ok x =>
      have hnear := interleaveProblem?_eq_none interleave found.size x.operation
      unfold collect at h
      cases hform : writtenForm codec x.operation with
      | ok form =>
        rw [hform] at h
        obtain ⟨hfound, hcalm, hproblems⟩ := ih () h
        refine ⟨?_, hcalm, ?_⟩
        · simp [hfound, Schedule.operations, collectedForm, hform]
        · rw [hproblems, problems_elim_eq_nil, hnear]
          simp only [Schedule.operations, Schedule.fault?, List.forall_mem_cons]
          constructor
          · rintro ⟨⟨hv, hlag⟩, hfault, hrest⟩
            exact ⟨hv, hfault, ⟨hlag, form, hform⟩, hrest⟩
          · rintro ⟨hv, hfault, hx, hrest⟩
            exact ⟨⟨hv, hx.near⟩, hfault, hrest⟩
      | error reason =>
        rw [hform] at h
        obtain ⟨hfound, hcalm, hproblems⟩ := ih () h
        refine ⟨?_, hcalm, ?_⟩
        · simp [hfound, Schedule.operations, collectedForm, hform]
        · rw [hproblems]
          simp only [Schedule.operations, List.forall_mem_cons]
          constructor
          · rintro ⟨hv, -⟩
            exact absurd hv (problems_addProblem_ne_nil _ _)
          · rintro ⟨-, -, hx, -⟩
            obtain ⟨form, hwritten⟩ := hx.written
            simp [hform] at hwritten

/-! ## The comparison -/

/-- Two lists of forms have no first difference and the same length if they are the same at every
place. -/
theorem firstDifference?_eq_none {i : Nat} {as bs : List Json} :
    firstDifference? i as bs = none ∧ as.length = bs.length ↔
      List.Forall₂ (fun a b => a.same b = true) as bs := by
  induction as generalizing i bs with
  | nil => cases bs <;> simp [firstDifference?]
  | cons a as ih =>
    cases bs with
    | nil => simp [firstDifference?]
    | cons b bs =>
      rw [List.forall₂_cons, ← ih (i := i + 1)]
      by_cases h : a.same b = true <;> simp [firstDifference?, h]

/-- Nothing is wrong with two constructions whose forms are the same at every place. -/
theorem differenceProblem?_eq_none {seed : Nat} {first second : Array Json} :
    differenceProblem? seed first second = none ↔
      List.Forall₂ (fun a b => a.same b = true) first.toList second.toList := by
  rw [← firstDifference?_eq_none (i := 0)]
  unfold differenceProblem?
  cases firstDifference? 0 first.toList second.toList with
  | some index => simp
  | none => by_cases h : first.size = second.size <;> simp [h]

/-- The sequence that a validation goes through. -/
def sampled (limits : Limits) (streams : List (OperationStream P)) : Schedule P :=
  limit (effectiveLimits limits) (merge streams)

/-- A construction that has streams collects the forms of what it samples. -/
theorem construct_eq_some {ω : Type} {w : Workload ω P} {seed : Nat} {limits : Limits} {s s' : ω}
    {found : Array Json} {v : WorkloadValidation} :
    construct codec w seed (effectiveLimits limits) interleave s = (.ok (some found, v), s') ↔
      ∃ streams, w.streams seed s = (.ok streams, s') ∧
        collect codec interleave #[] {} (sampled limits streams) = .ok (found, v) := by
  unfold construct
  rcases hw : w.streams seed s with ⟨e | streams, t⟩
  · cases e <;> simp
  · change ((collect codec interleave #[] {} (sampled limits streams)).map _, t) = _ ↔ _
    constructor
    · intro h
      cases hcollect : collect codec interleave #[] {} (sampled limits streams) with
      | error b => simp [hcollect, Except.map] at h
      | ok collected =>
        simp only [hcollect, Except.map, Prod.mk.injEq, Except.ok.injEq, Option.some.injEq] at h
        obtain ⟨⟨rfl, rfl⟩, rfl⟩ := h
        exact ⟨streams, rfl, hcollect⟩
    · rintro ⟨streams', hstreams, hcollect⟩
      obtain ⟨hbuilt, rfl⟩ := Prod.mk.inj hstreams
      obtain rfl := Except.ok.inj hbuilt
      rw [hcollect]
      rfl

/-- A construction without streams has a problem. -/
theorem problems_of_construct_eq_none {ω : Type} {w : Workload ω P} {seed : Nat} {limits : Limits}
    {s s' : ω} {v : WorkloadValidation}
    (h : construct codec w seed limits interleave s = (.ok (none, v), s')) : v.problems ≠ [] := by
  unfold construct at h
  rcases hw : w.streams seed s with ⟨e | streams, t⟩
  · rw [hw] at h
    cases e with
    | panicked text => simp at h
    | _ =>
      obtain ⟨hanswer, -⟩ := Prod.mk.inj h
      rw [← (Prod.mk.inj (Except.ok.inj hanswer)).2]
      exact problems_addProblem_ne_nil _ _
  · rw [hw] at h
    cases hcollect : collect codec interleave #[] {} (limit limits (merge streams)) <;>
      simp [hcollect, Except.map] at h

/-- A validation without a problem has gone through two constructions, and neither the first passage
nor the comparison has found anything. -/
theorem ofWorkload_successful_iff {ω : Type} {w : Workload ω P} {seed : Nat} {limits : Limits}
    {s : ω} :
    (∃ v, (ofWorkload codec w seed limits s).1 = .ok v ∧ v.isSuccessful = true) ↔
      ∃ first s₁ v second s₂ scratch,
        construct codec w seed (effectiveLimits limits) (w.maxInterleave s) s =
          (.ok (some first, v), s₁) ∧
        construct codec w seed (effectiveLimits limits) (w.maxInterleave s) s₁ =
          (.ok (some second, scratch), s₂) ∧
        v.problems = [] ∧ differenceProblem? seed first second = none := by
  constructor
  · rintro ⟨v', hanswer, hsuccess⟩
    rw [isSuccessful_iff] at hsuccess
    unfold ofWorkload at hanswer
    dsimp only at hanswer
    split at hanswer
    · simp at hanswer
    · rename_i v s₁ hfirst
      obtain rfl := Except.ok.inj hanswer
      exact absurd hsuccess (problems_of_construct_eq_none hfirst)
    · rename_i first v s₁ hfirst
      rcases hsecond : construct codec w seed (effectiveLimits limits) (w.maxInterleave s) s₁ with
        ⟨b | ⟨found, scratch⟩, s₂⟩
      · simp [hsecond, Except.map] at hanswer
      · simp only [hsecond, Except.map, Except.ok.injEq] at hanswer
        rw [← hanswer] at hsuccess
        cases found with
        | none =>
          -- The second construction has no streams, which is a problem of its own.
          exact absurd (List.append_eq_nil_iff.mp hsuccess).1 (problems_addProblem_ne_nil _ _)
        | some second =>
          obtain ⟨hv, hsame⟩ := problems_elim_eq_nil.mp hsuccess
          exact ⟨first, s₁, v, second, s₂, scratch, hfirst, hsecond, hv, hsame⟩
  · rintro ⟨first, s₁, v, second, s₂, scratch, hfirst, hsecond, hv, hsame⟩
    refine ⟨{ v with operationsChecked := first.size }, ?_, isSuccessful_iff.mpr hv⟩
    unfold ofWorkload
    simp [hfirst, hsecond, Except.map, compare, hsame]

/-- A problem does not change how many operations have been checked. -/
theorem operationsChecked_addProblem (v : WorkloadValidation) (problem : String) :
    (v.addProblem problem).operationsChecked = v.operationsChecked := by
  unfold addProblem
  split_ifs <;> rfl

/-- Nor does the comparison with a second construction. -/
theorem operationsChecked_compare (seed : Nat) (first : Array Json) (v : WorkloadValidation)
    (second : Option (Array Json) × WorkloadValidation) :
    (compare seed first v second).operationsChecked = v.operationsChecked := by
  obtain ⟨found, scratch⟩ := second
  cases found with
  | none => exact operationsChecked_addProblem v _
  | some found =>
    change ((differenceProblem? seed first found).elim v v.addProblem).operationsChecked = _
    cases differenceProblem? seed first found with
    | none => rfl
    | some problem => exact operationsChecked_addProblem v problem

/-- A validation counts the operations that it samples from the streams of the first
construction. -/
theorem operationsChecked_eq {ω : Type} {w : Workload ω P} {seed : Nat} {limits : Limits} {s s₁ : ω}
    {streams : List (OperationStream P)} {v : WorkloadValidation}
    (hstreams : w.streams seed s = (.ok streams, s₁))
    (h : (ofWorkload codec w seed limits s).1 = .ok v) :
    v.operationsChecked = (sampled limits streams).operations.length := by
  unfold ofWorkload at h
  dsimp only at h
  split at h
  · simp at h
  · rename_i scratch s' hfirst
    simp only [construct, hstreams] at hfirst
    cases hcollect : collect codec (w.maxInterleave s) #[] {}
      (limit (effectiveLimits limits) (merge streams)) <;>
        simp [hcollect, Except.map] at hfirst
  · rename_i first scratch s' hfirst
    obtain ⟨streams', hstreams', hcollect⟩ := construct_eq_some.mp hfirst
    obtain rfl := Except.ok.inj (Prod.mk.inj (hstreams.symm.trans hstreams')).1
    have hfound := congrArg List.length (collect_eq_ok hcollect).1
    cases hsecond : (construct codec w seed (effectiveLimits limits) (w.maxInterleave s) s').1 with
    | error b => simp [hsecond, Except.map] at h
    | ok second =>
      simp only [hsecond, Except.map, Except.ok.injEq] at h
      rw [← h, operationsChecked_compare]
      simpa using hfound

/-- A sequence that does not break down is gone through to its end. -/
theorem exists_collect (codec : PayloadCodec P) (interleave : Duration) {s : Schedule P}
    (h : ∀ text, s.fault? ≠ some (.panicked text)) :
    ∃ found v, collect codec interleave #[] {} s = .ok (found, v) := by
  cases hcollect : collect codec interleave #[] {} s with
  | error b =>
    obtain ⟨text, htext⟩ := collect_eq_error hcollect
    exact absurd htext (h text)
  | ok collected => exact ⟨collected.1, collected.2, rfl⟩

/-- Lists of forms that are collected are the same exactly if the operations have the same forms,
where all operations of the first list have one. -/
theorem forall₂_collectedForm_iff {xs ys : List (ScheduledOperation P)}
    (hxs : ∀ x ∈ xs, ∃ form, writtenForm codec x.operation = .ok form) :
    List.Forall₂ (fun a b => a.same b = true) (xs.map (collectedForm codec ·.operation))
        (ys.map (collectedForm codec ·.operation)) ↔
      List.Forall₂ (SameForm codec) xs ys := by
  rw [List.forall₂_map_left_iff, List.forall₂_map_right_iff]
  induction xs generalizing ys with
  | nil => cases ys <;> simp
  | cons x xs ih =>
    cases ys with
    | nil => simp
    | cons y ys =>
      rw [List.forall₂_cons, List.forall₂_cons, sameForm_iff (hxs x List.mem_cons_self),
        ih fun z hz => hxs z (List.mem_cons_of_mem _ hz)]

/-- A validation finds no problem exactly if both constructions have streams, the sequence of the
first one has no error and all of its operations are accepted, and that of the second one has
operations of the same forms at the same places. The second sequence may end with an error, as long
as it does not break down. -/
theorem no_problem_iff {ω : Type} (codec : PayloadCodec P) (w : Workload ω P) (seed : Nat)
    (limits : Limits) (s : ω) :
    (∃ v, (ofWorkload codec w seed limits s).1 = .ok v ∧ v.isSuccessful = true) ↔
      ∃ first s₁ second s₂, w.streams seed s = (.ok first, s₁) ∧
        w.streams seed s₁ = (.ok second, s₂) ∧
        (sampled limits first).ErrorFree ∧
        (∀ x ∈ (sampled limits first).operations,
          Accepts codec (w.maxInterleave s) x.operation) ∧
        (∀ text, (sampled limits second).fault? ≠ some (.panicked text)) ∧
        List.Forall₂ (SameForm codec) (sampled limits first).operations
          (sampled limits second).operations := by
  rw [ofWorkload_successful_iff]
  constructor
  · rintro ⟨found, s₁, v, found', s₂, scratch, hfirst, hsecond, hv, hsame⟩
    obtain ⟨first, hstreams, hcollect⟩ := construct_eq_some.mp hfirst
    obtain ⟨second, hstreams', hcollect'⟩ := construct_eq_some.mp hsecond
    obtain ⟨hfound, -, hproblems⟩ := collect_eq_ok hcollect
    obtain ⟨hfound', hcalm, -⟩ := collect_eq_ok hcollect'
    obtain ⟨-, hfault, haccepted⟩ := hproblems.mp hv
    rw [differenceProblem?_eq_none, hfound, hfound', List.nil_append, List.nil_append,
      forall₂_collectedForm_iff fun x hx => (haccepted x hx).written] at hsame
    exact ⟨first, s₁, second, s₂, hstreams, hstreams',
      Schedule.fault?_eq_none.mp hfault, haccepted, hcalm, hsame⟩
  · rintro ⟨first, s₁, second, s₂, hstreams, hstreams', hfree, haccepted, hcalm, hsame⟩
    have hfault := Schedule.fault?_eq_none.mpr hfree
    have hcalm' : ∀ text, (sampled limits first).fault? ≠ some (.panicked text) := by
      simp [hfault]
    obtain ⟨found, v, hcollect⟩ := exists_collect codec (w.maxInterleave s) hcalm'
    obtain ⟨found', scratch, hcollect'⟩ := exists_collect codec (w.maxInterleave s) hcalm
    obtain ⟨hfound, -, hproblems⟩ := collect_eq_ok hcollect
    obtain ⟨hfound', -, -⟩ := collect_eq_ok hcollect'
    refine ⟨found, s₁, v, found', s₂, scratch, construct_eq_some.mpr ⟨first, hstreams, hcollect⟩,
      construct_eq_some.mpr ⟨second, hstreams', hcollect'⟩,
      hproblems.mpr ⟨rfl, hfault, haccepted⟩, ?_⟩
    rw [differenceProblem?_eq_none, hfound, hfound', List.nil_append, List.nil_append,
      forall₂_collectedForm_iff fun x hx => (haccepted x hx).written]
    exact hsame

/-- A workload that builds other streams the second time: its operation is no longer among the
dependencies, and an error follows it. -/
def driftingWorkload : Workload Nat Json where
  fresh := 0
  init _ n := (.ok (), n)
  streams _ n := (.ok [if n = 0 then
      ⟨"put", .ofList [.ok (.independent "put" .epoch .null)], .nil⟩
    else
      ⟨"put", .nil, .ofList [.ok (.independent "put" .epoch .null),
        .error (.stream "gone")]⟩], n + 1)
  maxInterleave _ := Duration.zero
  keepsForValidation _ _ := true
  cleanup n := (.ok (), n)

/-- A validation finds no problem with it, although the two sequences are not the same: their
operations differ in whether they are tracked, and only the first sequence is free of errors. -/
theorem unnoticed_difference :
    ∃ first second, (driftingWorkload.streams 42 0).1 = .ok first ∧
      (driftingWorkload.streams 42 1).1 = .ok second ∧
      (∃ v, (ofWorkload .free driftingWorkload 42 .unbounded 0).1 = .ok v ∧
        v.isSuccessful = true) ∧
      (sampled .unbounded first).operations.map (·.tracked) = [true] ∧
      (sampled .unbounded second).operations.map (·.tracked) = [false] ∧
      ¬ (sampled .unbounded second).ErrorFree := by
  refine ⟨_, _, rfl, rfl, ?_, by decide +kernel, by decide +kernel, by decide +kernel⟩
  have hchecked : (ofWorkload .free driftingWorkload 42 .unbounded 0).1.toOption.map
      (·.isSuccessful) = some true := by
    decide +kernel
  generalize (ofWorkload .free driftingWorkload 42 .unbounded 0).1 = answer at hchecked ⊢
  cases answer with
  | error b => simp [Except.toOption] at hchecked
  | ok v => exact ⟨v, rfl, by simpa [Except.toOption] using hchecked⟩

end WorkloadValidation

end WorkloadReplay
