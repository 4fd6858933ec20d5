import WorkloadReplay.Proofs.Run.StartDelays

/-!
# The batches of a sequence

The windows divide a sequence into batches (`Schedule.batches`), and a run takes the batches off its
sequence one after another. `Run.Proceeds` lists what an event can do to the batch that the
scheduler holds. So at any moment the operations that a run has dispatched, with those that the
scheduler holds, are the batches that it has taken, and those that it holds are the rest of the last
one (`Run.Stands`).
-/

namespace WorkloadReplay

variable {P κ : Type}

/-! ## Batches -/

/-- The rest of a sequence after a batch is shorter. -/
theorem length_rest_of_nextBatch {window : Option Duration} {s : Schedule P} {b : Batch P}
    (h : nextBatch window s = some (.ok b)) : b.rest.length < s.length := by
  have hlength := congrArg List.length (nextBatch_toList h)
  rw [List.length_append, List.length_map, LazyList.length_toList,
    LazyList.length_toList] at hlength
  unfold Batch.operations at hlength
  rw [List.length_cons] at hlength
  omega

/-- The batches of a sequence, up to its first error. -/
def Schedule.batches (window : Option Duration) (s : Schedule P) : List (Batch P) :=
  match _ : nextBatch window s with
  | some (.ok b) => b :: Schedule.batches window b.rest
  | some (.error _) => []
  | none => []
termination_by s.length
decreasing_by exact length_rest_of_nextBatch ‹_›

/-- The first batch comes before those of the rest. -/
theorem Schedule.batches_of_nextBatch {window : Option Duration} {s : Schedule P} {b : Batch P}
    (h : nextBatch window s = some (.ok b)) :
    s.batches window = b :: Schedule.batches window b.rest := by
  rw [Schedule.batches]
  split <;> simp_all

/-- There are no batches if the first call gives none. -/
theorem Schedule.batches_eq_nil {window : Option Duration} {s : Schedule P}
    (h : ∀ b, nextBatch window s ≠ some (.ok b)) : s.batches window = [] := by
  rw [Schedule.batches]
  split
  · rename_i b hnext
    exact absurd hnext (h b)
  · rfl
  · rfl

/-- The operations of some batches in order, each with its batch. -/
def Batch.members (batches : List (Batch P)) : List (Batch P × ScheduledOperation P) :=
  batches.flatMap fun b => b.operations.map (b, ·)

/-- What every batch of a sequence keeps: without a window it is one operation, and with one all
operations of it start within the window of the first. -/
structure Batch.Keeps (window : Option Duration) (b : Batch P) : Prop where
  alone : window = none → b.others = []
  within : ∀ w, window = some w → ∀ x ∈ b.others,
    x.operation.scheduledStart < b.first.operation.scheduledStart.addOrGreatest w

/-- The operations that are taken off a sequence start before the limit. -/
theorem lt_of_mem_takeBefore {limit : Instant} {s : Schedule P} {x : ScheduledOperation P}
    (hx : x ∈ (takeBefore limit s).1) : x.operation.scheduledStart < limit := by
  induction s with
  | nil => exact absurd hx List.not_mem_nil
  | cons item tail ih =>
    cases item with
    | error e => exact absurd hx List.not_mem_nil
    | ok y =>
      unfold takeBefore at hx
      split_ifs at hx with hlt
      · rcases List.mem_cons.mp hx with rfl | hmem
        · exact hlt
        · exact ih () hmem
      · exact absurd hx List.not_mem_nil

/-- The next batch keeps to the window. -/
theorem keeps_of_nextBatch {window : Option Duration} {s : Schedule P} {b : Batch P}
    (h : nextBatch window s = some (.ok b)) : b.Keeps window := by
  unfold nextBatch at h
  split at h
  · simp at h
  · simp at h
  · split at h
    · obtain rfl := Except.ok.inj (Option.some.inj h)
      exact ⟨fun _ => rfl, fun w hw => by simp at hw⟩
    · rename_i w
      obtain rfl := Except.ok.inj (Option.some.inj h)
      refine ⟨fun hnone => by simp at hnone, fun w' hw x hx => ?_⟩
      obtain rfl := Option.some.inj hw
      exact lt_of_mem_takeBefore hx

/-- So do all batches of a sequence. -/
theorem keeps_of_mem_batches {window : Option Duration} {s : Schedule P} {b : Batch P}
    (hb : b ∈ s.batches window) : b.Keeps window := by
  induction s using Schedule.batches.induct window with
  | case1 s first hnext ih =>
    rw [Schedule.batches_of_nextBatch hnext] at hb
    rcases List.mem_cons.mp hb with rfl | hmem
    · exact keeps_of_nextBatch hnext
    · exact ih hmem
  | case2 s e hnext =>
    rw [Schedule.batches_eq_nil (by simp [hnext])] at hb
    exact absurd hb List.not_mem_nil
  | case3 s hnext =>
    rw [Schedule.batches_eq_nil (by simp [hnext])] at hb
    exact absurd hb List.not_mem_nil

namespace SchedulerPhase

/-- The scheduler sleeps until a batch is due. -/
def IsAsleep : SchedulerPhase P → Prop
  | .sleeping .. => True
  | _ => False

/-- Whether the scheduler goes on with the operations that it holds or stops: it takes up others
only when it looks for the next batch, and gives one away only when it has been admitted. -/
theorem GoesTo.held_cases {phase phase' : SchedulerPhase P} (h : phase.GoesTo phase') :
    phase'.held? = none ∨
      (phase'.held? = phase.held? ∧ (phase'.IsAsleep ↔ phase.IsAsleep)) ∨
      phase = .pulling ∨ (∃ first others, phase = .sleeping first others) ∨
      ∃ next batch, phase = .admitting next batch := by
  cases h with
  | opens h h' =>
    -- Nothing is held before the first batch.
    rcases h with rfl | rfl <;> cases phase' <;> simp_all [IsOpening, held?, IsAsleep]
  | sleeps => exact .inr (.inr (.inl rfl))
  | hurries => exact .inr (.inr (.inl rfl))
  | wakes => exact .inr (.inr (.inr (.inl ⟨_, _, rfl⟩)))
  | dispatches => exact .inr (.inr (.inr (.inr ⟨_, _, rfl⟩)))
  | stops => exact .inl rfl
  | breaks => exact .inl rfl
  | ends => exact .inl rfl
  | _ => exact .inr (.inl ⟨rfl, Iff.rfl⟩)

end SchedulerPhase

namespace Run

/-- What an event does to the batch that the scheduler holds, at what the clock says. -/
inductive Proceeds (setup : RunSetup κ) (r r' : Run P κ) (reading? : Option Instant) : Prop where
  /-- The scheduler dispatches no more. -/
  | stops (hover : r'.phase.held? = none) (hdispatched : r'.dispatched = r.dispatched)
  /-- The scheduler holds the same operations. -/
  | stays (hheld : r'.phase.held? = r.phase.held?)
      (hasleep : r'.phase.IsAsleep ↔ r.phase.IsAsleep) (hoperations : r'.operations = r.operations)
      (hdispatched : r'.dispatched = r.dispatched)
  /-- It takes the next batch, and sleeps unless scheduled starts are ignored. Of the handlers that
  have ended it has taken notice, and there is no error. -/
  | takes {b : Batch P} (hbatch : nextBatch setup.config.window r.operations = some (.ok b))
      (hphase : r.phase = .pulling) (hcalm : r.reap.log.hasErrors = false)
      (hphase' : r'.phase = if setup.config.ignoreScheduledStarts then .dispatching b.operations
        else .sleeping b.first b.others)
      (hoperations : r'.operations = b.rest) (hdispatched : r'.dispatched = r.dispatched)
  /-- It wakes up, for the batch is due. -/
  | wakes {first : ScheduledOperation P} {others : List (ScheduledOperation P)} {now : Instant}
      (hphase : r.phase = .sleeping first others)
      (hphase' : r'.phase = .dispatching (first :: others)) (hnow : reading? = some now)
      (hdue : first.operation.scheduledStart ≤ now)
      (hoperations : r'.operations = r.operations) (hdispatched : r'.dispatched = r.dispatched)
  | dispatches {next : ScheduledOperation P} {batch : List (ScheduledOperation P)}
      (hphase : r.phase = .admitting next batch) (h : Dispatches r r' next batch)

section Steps

variable {setup : RunSetup κ} {r r' : Run P κ} {reading? : Option Instant}

/-- Where the same operations are held and dispatched, the same are left in the sequence. -/
theorem operations_of_held {e : RunEvent} (hstep : r.step setup e = some r')
    (hheld : r'.phase.held? = r.phase.held?) (hne : r'.phase.held? ≠ none)
    (hdispatched : r'.dispatched = r.dispatched) : r'.operations = r.operations := by
  -- What has been dispatched, what is held and what is left make up the same sequence before and
  -- after the step.
  obtain ⟨held, hsome⟩ := Option.ne_none_iff_exists'.mp hne
  have hitinerary : r.itinerary? =
      some (r.dispatched.toList.map .ok ++ (held.map .ok ++ r.operations.toList)) := by
    rw [itinerary?, ← hheld, hsome, Option.map_some]
  cases advance_of_step hstep with
  | onward hsame =>
    rw [hitinerary, itinerary?, hsome, hdispatched, Option.map_some] at hsame
    have hrest := List.append_cancel_left (Option.some.inj hsame)
    exact LazyList.toList_injective (List.append_cancel_left hrest)
  | aside _ _ hoperations => exact hoperations
  | halt hover => exact absurd hover hne
  | exhaust _ hdraining => exact absurd (by rw [hdraining]; rfl) hne

/-- The next batch is taken off the sequence where nothing has failed. -/
theorem proceeds_pull (hphase : r.phase = .pulling) :
    Proceeds setup r (r.pull setup) reading? := by
  unfold pull
  split
  · exact .stops rfl rfl
  · rename_i batch hbatch
    dsimp only
    split
    · exact .stops rfl rfl
    · split_ifs <;> exact .stops rfl rfl
    · split_ifs with herrors hignored
      · exact .stops rfl rfl
      · refine .takes hbatch hphase (by simpa using herrors) ?_ rfl rfl
        rw [if_pos hignored]
        rfl
      · refine .takes hbatch hphase (by simpa using herrors) ?_ rfl rfl
        rw [if_neg hignored]
        rfl

/-- The scheduler wakes up when the clock says that the first operation is due. -/
theorem proceeds_wake {now : Instant} {first : ScheduledOperation P}
    {others : List (ScheduledOperation P)} (hphase : r.phase = .sleeping first others)
    (h : r.wake now first others = some r') : Proceeds setup r r' (some now) := by
  unfold wake at h
  split_ifs at h with herrors hdue
  · obtain rfl := Option.some.inj h
    exact .stops rfl rfl
  · obtain rfl := Option.some.inj h
    exact .wakes hphase rfl rfl hdue rfl rfl
  · split at h
    · obtain rfl := Option.some.inj h
      exact .stops rfl rfl
    · simp at h

/-- An admitted operation that is not dispatched ends the dispatching. -/
theorem proceeds_dispatch {next : ScheduledOperation P} {batch : List (ScheduledOperation P)}
    (h : r.dispatch next batch = some r') (hsame : r'.dispatched = r.dispatched) :
    Proceeds setup r r' reading? := by
  have hnot : r'.dispatched ≠ r.dispatched.push next := by
    intro heq
    have hsize := congrArg Array.size (hsame.symm.trans heq)
    rw [Array.size_push] at hsize
    omega
  unfold dispatch at h
  split at h
  · simp at h
  · obtain rfl := Option.some.inj h
    exact .stops rfl rfl
  · split at h
    · split at h
      · obtain rfl := Option.some.inj h
        exact .stops rfl rfl
      · obtain rfl := Option.some.inj h
        exact absurd rfl hnot
    · obtain rfl := Option.some.inj h
      exact absurd rfl hnot

/-- What an event does to the batch that the scheduler holds. -/
theorem proceeds_of_step {e : RunEvent} (hstep : r.step setup e = some r') :
    Proceeds setup r r' e.reading? := by
  rcases dispatched_cases hstep with hsame | ⟨next, batch, hphase, hd⟩
  swap
  · exact .dispatches hphase hd
  -- What the scheduler holds stays the same with most events, unless it stops.
  have hholds : r'.phase.held? = r.phase.held? → (r'.phase.IsAsleep ↔ r.phase.IsAsleep) →
      Proceeds setup r r' e.reading? := by
    intro hheld hasleep
    by_cases hover : r'.phase.held? = none
    · exact .stops hover hsame
    · exact .stays hheld hasleep (operations_of_held hstep hheld hover hsame) hsame
  by_cases he : ∃ now expired, e = .schedule now expired
  · obtain ⟨now, expired, rfl⟩ := he
    have hs : r.scheduleStep setup now expired = some r' := hstep
    rcases (goesTo_of_scheduleStep hs).held_cases with
      hover | ⟨hheld, hasleep⟩ | hphase | ⟨first, others, hphase⟩ | ⟨next, batch, hphase⟩
    · exact .stops hover hsame
    · exact hholds hheld hasleep
    · simp only [scheduleStep, hphase] at hs
      obtain rfl := Option.some.inj hs
      exact proceeds_pull hphase
    · simp only [scheduleStep, hphase] at hs
      exact proceeds_wake hphase hs
    · simp only [scheduleStep, hphase] at hs
      exact proceeds_dispatch hs hsame
  · rcases phase_of_step hstep fun now expired h => he ⟨now, expired, h⟩ with
      hphase | ⟨-, finish, hterminated⟩
    · exact hholds (by rw [hphase]) (by rw [hphase])
    · -- The time for draining has run out.
      exact .stops (by rw [hterminated]; rfl) hsame

end Steps

/-! ## The way through the batches -/

/-- A run is within a batch: it has dispatched all operations of the batches before it, and those of
the batch that it does not hold any more. -/
structure Within (window : Option Duration) (ops : Schedule P) (b : Batch P)
    (held : List (ScheduledOperation P)) (r : Run P κ) : Prop where
  place : ∃ earlier gone,
    ops.batches window = earlier ++ b :: Schedule.batches window r.operations ∧
    b.operations = gone ++ held ∧
    r.dispatched.toList = earlier.flatMap Batch.operations ++ gone

/-- A run that has not taken a batch yet. -/
structure Ahead (window : Option Duration) (ops : Schedule P) (held : List (ScheduledOperation P))
    (r : Run P κ) : Prop where
  held : held = []
  dispatched : r.dispatched = #[]
  batches : ops.batches window = Schedule.batches window r.operations

/-- Where a run that still dispatches stands in the batches of its sequence. The batch in which it
is has a property that is found out when the scheduler wakes up; until then all of it is held. -/
def Stands (window : Option Duration) (ops : Schedule P) (due : Batch P → Prop) (r : Run P κ) :
    Prop :=
  ∀ held, r.phase.held? = some held → Ahead window ops held r ∨
    ∃ b, Within window ops b held r ∧ (r.phase.IsAsleep ∧ b.operations = held ∨ due b)

section Stands

variable {setup : RunSetup κ} {window : Option Duration} {ops : Schedule P} {b : Batch P}
  {held : List (ScheduledOperation P)} {r r' : Run P κ} {due due' : Batch P → Prop}

/-- The batch in which a run is, is one of its sequence. -/
theorem Within.mem (h : Within window ops b held r) : b ∈ ops.batches window := by
  obtain ⟨earlier, gone, hbatches, -, -⟩ := h.place
  rw [hbatches]
  exact List.mem_append_right _ List.mem_cons_self

/-- The next operation of a batch is dispatched with the number of its place. -/
theorem Within.getElem?_members {next : ScheduledOperation P}
    {batch : List (ScheduledOperation P)} (h : Within window ops b (next :: batch) r) :
    (Batch.members (ops.batches window))[r.dispatched.size]? = some (b, next) := by
  obtain ⟨earlier, gone, hbatches, hoperations, hdispatched⟩ := h.place
  -- As many operations have been dispatched as come before this one.
  have hsize : r.dispatched.size =
      (Batch.members earlier ++ gone.map (b, ·)).length := by
    rw [← Array.length_toList, hdispatched, List.length_append, List.length_append, List.length_map]
    congr 1
    unfold Batch.members
    rw [List.length_flatMap, List.length_flatMap]
    simp
  have hmembers : Batch.members (ops.batches window) =
      (Batch.members earlier ++ gone.map (b, ·)) ++ (b, next) :: (batch.map (b, ·) ++
        Batch.members (Schedule.batches window r.operations)) := by
    unfold Batch.members
    rw [hbatches, List.flatMap_append, List.flatMap_cons, hoperations]
    simp
  rw [hmembers, hsize, List.getElem?_append_right (le_refl _), Nat.sub_self]
  rfl

/-- A run is within the batch that it has just taken. -/
theorem within_of_nextBatch (h : nextBatch window r.operations = some (.ok b))
    (hstands : Ahead window ops [] r ∨ ∃ b₀, Within window ops b₀ [] r)
    (hoperations : r'.operations = b.rest) (hdispatched : r'.dispatched = r.dispatched) :
    Within window ops b b.operations r' := by
  have hfirst := Schedule.batches_of_nextBatch h
  refine ⟨?_⟩
  rw [hoperations, hdispatched]
  rcases hstands with hahead | ⟨b₀, hwithin⟩
  · refine ⟨[], [], ?_, rfl, ?_⟩
    · rw [hahead.batches, hfirst]
      rfl
    · rw [hahead.dispatched]
      rfl
  · -- The batch before has been dispatched to its end.
    obtain ⟨earlier, gone, hbatches, hgone, hbefore⟩ := hwithin.place
    rw [List.append_nil] at hgone
    refine ⟨earlier ++ [b₀], [], ?_, rfl, ?_⟩
    · rw [hbatches, hfirst, List.append_assoc]
      rfl
    · rw [hbefore, List.flatMap_append, ← hgone, List.flatMap_singleton, List.append_nil]

/-- An operation that is dispatched is the next one of its batch. -/
theorem Within.dispatch {next : ScheduledOperation P} {batch : List (ScheduledOperation P)}
    (h : Within window ops b (next :: batch) r) (hd : Dispatches r r' next batch) :
    Within window ops b batch r' := by
  obtain ⟨earlier, gone, hbatches, hoperations, hdispatched⟩ := h.place
  refine ⟨earlier, gone ++ [next], ?_, ?_, ?_⟩
  · rw [hd.operations]
    exact hbatches
  · rw [hoperations, List.append_assoc]
    rfl
  · rw [hd.dispatched, Array.toList_push, hdispatched, List.append_assoc]

/-- A run begins ahead of its batches. -/
theorem stands_fresh (window : Option Duration) (ops : Schedule P) (due : Batch P → Prop)
    (completion : CompletionService) (metrics : MetricsPipeline κ) (log : ErrorLog) :
    Stands window ops due (fresh ops completion metrics log) := by
  intro held hheld
  exact .inl ⟨(Option.some.inj hheld).symm, rfl, rfl⟩

/-- Every event keeps a run on its way through the batches, if the property lasts and is found out
when the scheduler wakes up, or when it takes a batch for which it does not sleep. -/
theorem Stands.step (h : Stands setup.config.window ops due r) {e : RunEvent}
    (hstep : r.step setup e = some r') (hkept : ∀ b, due b → due' b)
    (hwakes : ∀ (b : Batch P) now, e.reading? = some now →
      b.first.operation.scheduledStart ≤ now → due' b)
    (hhurries : setup.config.ignoreScheduledStarts = true → ∀ b, due' b) :
    Stands setup.config.window ops due' r' := by
  intro held hheld
  cases proceeds_of_step hstep with
  | stops hover => simp [hover] at hheld
  | stays hsame hasleep hoperations hdispatched =>
    rcases h held (hsame ▸ hheld) with hahead | ⟨b, hwithin, hdue⟩
    · exact .inl ⟨hahead.held, hdispatched ▸ hahead.dispatched, hoperations ▸ hahead.batches⟩
    · refine .inr ⟨b, ⟨?_⟩, hdue.imp (And.imp_left hasleep.mpr) (hkept b)⟩
      rw [hoperations, hdispatched]
      exact hwithin.place
  | @takes b hbatch hphase hcalm hphase' hoperations hdispatched =>
    have hstands : Ahead setup.config.window ops [] r ∨
        ∃ b₀, Within setup.config.window ops b₀ [] r :=
      (h [] (by rw [hphase]; rfl)).imp_right fun ⟨b₀, hwithin, _⟩ => ⟨b₀, hwithin⟩
    have hwithin := within_of_nextBatch hbatch hstands hoperations hdispatched
    refine .inr ⟨b, ?_⟩
    rw [hphase'] at hheld ⊢
    split_ifs at hheld ⊢ with hignored
    · obtain rfl := Option.some.inj hheld
      exact ⟨hwithin, .inr (hhurries hignored b)⟩
    · obtain rfl := Option.some.inj hheld
      exact ⟨hwithin, .inl ⟨trivial, rfl⟩⟩
  | @wakes first others now hphase hphase' hnow hdue hoperations hdispatched =>
    rw [hphase'] at hheld
    obtain rfl := Option.some.inj hheld
    rcases h (first :: others) (by rw [hphase]; rfl) with hahead | ⟨b, hwithin, hfound⟩
    · exact absurd hahead.held (List.cons_ne_nil _ _)
    · refine .inr ⟨b, ⟨?_⟩, .inr ?_⟩
      · rw [hoperations, hdispatched]
        exact hwithin.place
      · rcases hfound with ⟨-, hwhole⟩ | hfound
        · -- All of the batch is held, and its first operation is due.
          obtain ⟨rfl, -⟩ := List.cons.inj hwhole
          exact hwakes b now hnow hdue
        · exact hkept b hfound
  | @dispatches next batch hphase hd =>
    rw [hd.phase] at hheld
    obtain rfl := Option.some.inj hheld
    rcases h (next :: batch) (by rw [hphase]; rfl) with hahead | ⟨b, hwithin, hfound⟩
    · exact absurd hahead.held (List.cons_ne_nil _ _)
    · refine .inr ⟨b, hwithin.dispatch hd, .inr (hkept b ?_)⟩
      exact hfound.resolve_left fun hasleep => by simp [hphase, SchedulerPhase.IsAsleep] at hasleep

end Stands

end Run

end WorkloadReplay
