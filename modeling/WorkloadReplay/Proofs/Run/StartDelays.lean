import WorkloadReplay.Proofs.Run.Dispatching
import WorkloadReplay.Proofs.Run.Recording

/-!
# What the check of a delay says about starts

A run checks how late an operation is before it asks for a permit for it. The handler reads the
clock again when it has a worker, and that reading is the start which the record shows. So the check
covers the waits before it, for a due time and at a gate, and not those after it, for a permit and
for a worker. A delay too long to be measured passes every check, too
(`DelayChecker.check_of_not_fits`).

`Run.checks` are the checks that the operations of a run have passed. Each record of a run comes
with one of them, made at a reading no later than the start in the record
(`Run.checked_before_start`). That start may be later than tolerated all the same, and no error says
so (`Run.started_late_unreported`).
-/

namespace WorkloadReplay

variable {P κ : Type}

/-! ## One check -/

namespace DelayChecker

variable {c : DelayChecker} {op : Operation P} {now : Instant}

/-- Where a delay that is not tolerated ends the run, an operation that passes its check is no later
than tolerated, if its delay can be measured. -/
theorem delay_le_of_check (hpolicy : c.policy = .terminate)
    (hpassed : ∀ e, c.check op now ≠ .breach e)
    (hfits : FitsNanos (now.nanos - op.scheduledStart.nanos)) :
    now.nanos - op.scheduledStart.nanos ≤ c.tolerated.nanos := by
  have hdelay : delay op now = ⟨now.nanos - op.scheduledStart.nanos, hfits⟩ := by
    unfold delay Instant.since? Duration.ofNanos?
    rw [dif_pos hfits, Option.getD_some]
  unfold check at hpassed
  simp only [hpolicy, hdelay] at hpassed
  by_contra hlate
  exact hpassed _ (if_neg hlate)

/-- An operation whose delay cannot be measured passes every check, however late it is. -/
theorem check_of_not_fits (htolerated : 0 ≤ c.tolerated.nanos)
    (hfits : ¬ FitsNanos (now.nanos - op.scheduledStart.nanos)) : c.check op now = .onTime := by
  have hdelay : delay op now = .zero := by
    unfold delay Instant.since? Duration.ofNanos?
    rw [dif_neg hfits, Option.getD_none]
  unfold check
  rw [hdelay]
  exact if_pos htolerated

end DelayChecker

/-- What the clock says to the scheduler or to a handler. -/
def RunEvent.reading? : RunEvent → Option Instant
  | .schedule now _ => some now
  | .execute _ now => some now
  | .expire now => some now
  | _ => none

/-- When the database call of a handler began. -/
def HandlerPhase.start? : HandlerPhase → Option Instant
  | .waiting => none
  | .executing start => some start
  | .submitting record => some record.actualStart

/-- A check that an operation has passed. -/
structure PassedCheck (P : Type) where
  /-- The number with which the operation is dispatched. -/
  number : Nat
  scheduled : ScheduledOperation P
  /-- What the clock said. -/
  time : Instant

namespace Run

/-! ## The checks of a run -/

/-- The check that an operation passes with an event. -/
def passed? (setup : RunSetup κ) (r : Run P κ) : RunEvent → Option (PassedCheck P)
  | .schedule now _ =>
    match r.phase with
    | .judging next _ =>
      match setup.config.delayChecker.check next.operation now with
      | .breach _ => none
      | _ => some ⟨r.dispatched.size, next, now⟩
    | _ => none
  | _ => none

/-- The checks that operations pass during some events, in order. -/
def checks (setup : RunSetup κ) : Run P κ → List RunEvent → List (PassedCheck P)
  | _, [] => []
  | r, e :: rest =>
    (r.passed? setup e).toList ++ (r.step setup e).elim [] fun r' => checks setup r' rest

section Steps

variable {setup : RunSetup κ} {r r' : Run P κ} {e : RunEvent}

/-- An operation that passes its check is not in breach, at what the clock says. -/
theorem passed?_eq_some {k : PassedCheck P} (h : r.passed? setup e = some k) :
    (∀ err, setup.config.delayChecker.check k.scheduled.operation k.time ≠ .breach err) ∧
      e.reading? = some k.time := by
  unfold passed? at h
  split at h
  · split at h
    · split at h
      · simp at h
      · rename_i hcheck
        obtain rfl := Option.some.inj h
        exact ⟨hcheck, rfl⟩
    · simp at h
  · simp at h

/-- An operation is due once it has passed its check. -/
theorem due?_of_step (hstep : r.step setup e = some r') {next : ScheduledOperation P}
    (hdue : r'.phase.due? = some next) : r.phase.due? = some next ∨
      ∃ now, r.passed? setup e = some ⟨r.dispatched.size, next, now⟩ := by
  obtain ⟨batch, hphase'⟩ := SchedulerPhase.due?_eq_some.mp hdue
  by_cases he : ∃ now expired, e = .schedule now expired
  · obtain ⟨now, expired, rfl⟩ := he
    have hgoes := goesTo_of_scheduleStep hstep
    rw [hphase'] at hgoes
    generalize hphase : r.phase = phase at hgoes
    cases hgoes with
    | opens _ hopening => exact absurd hopening (by simp [SchedulerPhase.IsOpening])
    | admits =>
      refine .inr ⟨now, ?_⟩
      simp only [step, scheduleStep, hphase] at hstep
      obtain rfl := Option.some.inj hstep
      unfold judge at hphase'
      unfold passed?
      simp only [hphase]
      split at hphase' <;> simp_all [goTo, fail]
  · rcases phase_of_step hstep fun now expired h => he ⟨now, expired, h⟩ with
      hsame | ⟨-, finish, hterminated⟩
    · exact .inl (hsame ▸ hdue)
    · rw [hphase'] at hterminated
      simp at hterminated

/-- An operation keeps the number with which it is dispatched. -/
theorem dispatched_kept (hstep : r.step setup e = some r') {n : Nat} {x : ScheduledOperation P}
    (hx : r.dispatched[n]? = some x) : r'.dispatched[n]? = some x := by
  rcases dispatched_cases hstep with hsame | ⟨next, batch, -, hd⟩
  · rwa [hsame]
  · have hlt := (Array.getElem?_eq_some_iff.mp hx).1
    rw [hd.dispatched, Array.getElem?_push_lt hlt, ← hx, Array.getElem?_eq_getElem hlt]

end Steps

/-! ## The beginnings of database calls -/

/-- The database calls that handlers have begun between two states, they have begun at what the
clock says in between. -/
def Continues (r r' : Run P κ) (reading? : Option Instant) : Prop :=
  ∀ y ∈ r'.handlers, ∀ start, y.phase.start? = some start → ∃ x ∈ r.handlers,
    x.number = y.number ∧ (x.phase.start? = some start ∨ reading? = some start)

section Calls

variable {setup : RunSetup κ} {r r' s : Run P κ} {e : RunEvent} {reading? : Option Instant}
  {number : Nat}

/-- Where handlers are left alone or taken away, nothing begins. -/
theorem Continues.of_subset (h : r'.handlers ⊆ r.handlers) : Continues r r' reading? :=
  fun y hy _ hstart => ⟨y, h hy, rfl, .inl hstart⟩

/-- A handler that ends begins nothing. -/
theorem continues_endHandler (hs : s.handlers = r.handlers) {result : Except ReplayError Unit} :
    Continues r (s.endHandler number result) reading? :=
  .of_subset fun _ hy => hs ▸ List.mem_of_mem_filter hy

/-- A handler that goes on keeps the start of its call, or begins its call now. -/
theorem continues_setPhase (hs : s.handlers = r.handlers) {x : Handler P}
    (hx : r.handler? number = some x) {phase : HandlerPhase}
    (hphase : ∀ start, phase.start? = some start →
      x.phase.start? = some start ∨ reading? = some start) :
    Continues r (s.setPhase number phase) reading? := by
  intro y hy start hstart
  obtain ⟨z, hz, rfl⟩ := List.mem_map.mp hy
  obtain ⟨hmem, hnumber⟩ := handler?_eq_some hx
  split_ifs at hstart ⊢ with hsame
  · exact ⟨x, hmem, hnumber.trans hsame.symm, hphase start hstart⟩
  · exact ⟨z, hs ▸ hz, rfl, .inl hstart⟩

/-- The look for the next batch leaves the handlers alone. -/
theorem handlers_pull (setup : RunSetup κ) (r : Run P κ) :
    (r.pull setup).handlers = r.handlers := by
  unfold pull
  split
  · rfl
  · split
    · rfl
    · dsimp only
      split_ifs <;> rfl
    · dsimp only
      split_ifs <;> rfl

/-- A handler that is brought to life waits. -/
theorem Continues.of_spawn {next : ScheduledOperation P}
    (h : r'.handlers = r.handlers ++ [⟨number, next, .waiting⟩]) : Continues r r' reading? := by
  intro y hy start hstart
  rw [h] at hy
  rcases List.mem_append.mp hy with hy | hy
  · exact ⟨y, hy, rfl, .inl hstart⟩
  · rw [List.mem_singleton.mp hy] at hstart
    simp [HandlerPhase.start?] at hstart

/-- The dispatching of an operation begins nothing, either. -/
theorem continues_dispatch {next : ScheduledOperation P} {batch : List (ScheduledOperation P)}
    (h : r.dispatch next batch = some r') : Continues r r' reading? := by
  unfold dispatch at h
  split at h
  · simp at h
  · obtain rfl := Option.some.inj h
    exact .of_subset (List.Subset.refl _)
  · split at h
    · split at h
      · obtain rfl := Option.some.inj h
        exact .of_subset (List.Subset.refl _)
      · obtain rfl := Option.some.inj h
        exact .of_spawn rfl
    · obtain rfl := Option.some.inj h
      exact .of_spawn rfl

/-- The scheduler begins no calls. -/
theorem continues_scheduleStep {now : Instant} {expired : Bool}
    (h : r.scheduleStep setup now expired = some r') : Continues r r' reading? := by
  have hpasses : Passes r r' → Continues r r' reading? := fun h =>
    .of_subset fun y hy => h.1.handlers ▸ hy
  unfold scheduleStep at h
  split at h
  case h_1 =>
    obtain rfl := Option.some.inj h
    exact hpasses (passes_begin r)
  case h_2 => exact hpasses (passes_awaitPeers h)
  case h_3 =>
    obtain rfl := Option.some.inj h
    exact .of_subset fun y hy => handlers_pull setup r ▸ hy
  case h_4 => exact hpasses (passes_wake h)
  case h_5 batch _ =>
    obtain rfl := Option.some.inj h
    exact hpasses (passes_choose r batch)
  case h_6 => exact hpasses (passes_gate h)
  case h_7 next batch _ =>
    obtain rfl := Option.some.inj h
    exact hpasses (passes_judge r now next batch)
  case h_8 => exact continues_dispatch h
  case h_9 =>
    refine .of_subset ?_
    unfold drain at h
    split at h
    · obtain rfl := Option.some.inj h
      exact List.Subset.refl _
    · simp at h
    · obtain rfl := Option.some.inj h
      exact List.Subset.refl _
  all_goals simp at h

/-- A handler that gets a worker begins its call now. -/
theorem continues_startCall {now : Instant} (h : r.startCall number now = some r') :
    Continues r r' (some now) := by
  unfold startCall at h
  split at h
  · rename_i hhandler
    split at h
    · obtain rfl := Option.some.inj h
      exact continues_setPhase rfl hhandler fun _ hstart => .inr hstart
    · simp at h
    · obtain rfl := Option.some.inj h
      exact continues_endHandler rfl
  · simp at h

/-- The record of a call that comes back takes over its start. -/
theorem continues_finishCall {answer : CallAnswer} {elapsed : Duration}
    (h : r.finishCall number answer elapsed = some r') : Continues r r' reading? := by
  unfold finishCall at h
  split at h
  · rename_i hhandler
    dsimp only at h
    split at h
    · obtain rfl := Option.some.inj h
      exact continues_endHandler rfl
    · split_ifs at h
      · obtain rfl := Option.some.inj h
        exact continues_setPhase rfl hhandler fun _ hstart => .inl hstart
      · obtain rfl := Option.some.inj h
        exact continues_endHandler rfl
  · simp at h

/-- A handler that sends its record begins nothing. -/
theorem continues_sendRecord (h : r.sendRecord number = some r') : Continues r r' reading? := by
  unfold sendRecord at h
  split at h
  · rename_i n scheduled record _
    split at h
    · simp at h
    · obtain rfl := Option.some.inj h
      exact continues_endHandler rfl
    · rename_i metrics _
      obtain rfl := Option.some.inj h
      obtain ⟨result, -, hsame, -⟩ :=
        settleHandler_tally r ⟨n, scheduled, .submitting record⟩ metrics record
      refine .of_subset fun y hy => ?_
      rw [hsame.handlers] at hy
      exact List.mem_of_mem_filter hy
  · simp at h

/-- A database call that a handler has begun was begun before an event, or begins with it. -/
theorem continues_of_step (hstep : r.step setup e = some r') :
    Continues r r' e.reading? := by
  have hcompletion : ∀ answer : Except ReplayError CompletionService,
      Continues r (r.withCompletion answer) none := by
    intro answer
    refine .of_subset ?_
    cases answer <;> exact List.Subset.refl _
  cases e with
  | schedule now expired => exact continues_scheduleStep hstep
  | execute number now => exact continues_startCall hstep
  | answer number answer elapsed => exact continues_finishCall hstep
  | submit number => exact continues_sendRecord hstep
  | consume =>
    obtain ⟨consumed, -, rfl⟩ := Option.map_eq_some_iff.mp hstep
    exact .of_subset (List.Subset.refl _)
  | expire now =>
    simp only [step, expireDrain] at hstep
    split at hstep
    · obtain rfl := Option.some.inj hstep
      refine .of_subset ?_
      split_ifs
      · exact List.Subset.refl _
      · exact List.nil_subset _
    · simp at hstep
  | peerClaims =>
    obtain rfl := Option.some.inj hstep
    exact hcompletion _
  | peerInitiated slot time =>
    simp only [step] at hstep
    split_ifs at hstep
    obtain rfl := Option.some.inj hstep
    exact hcompletion _
  | peerCompleted slot time =>
    simp only [step] at hstep
    split_ifs at hstep
    obtain rfl := Option.some.inj hstep
    exact hcompletion _
  | completionShutdown =>
    obtain rfl := Option.some.inj hstep
    exact .of_subset (List.Subset.refl _)
  | report source message =>
    obtain rfl := Option.some.inj hstep
    exact .of_subset (List.Subset.refl _)

/-- Something that holds of the numbers of handlers and the starts of their calls, and of the
records of those that have ended. -/
structure Begun (holds : Nat → Instant → Prop) (endings : List Ending) (r : Run P κ) : Prop where
  starts : ∀ x ∈ r.handlers, ∀ start, x.phase.start? = some start → holds x.number start
  records : ∀ d ∈ endings, ∀ record, d.record = some record →
    holds d.number record.actualStart

/-- It holds after an event if it lasts, and if it holds of the calls that begin now. -/
theorem Begun.step {holds holds' : Nat → Instant → Prop} {endings : List Ending}
    (h : Begun holds endings r) (hstep : r.step setup e = some r')
    (hkept : ∀ n start, holds n start → holds' n start)
    (hnew : ∀ x ∈ r.handlers, ∀ start, e.reading? = some start → holds' x.number start) :
    Begun holds' (endings ++ (r.ending? setup e).toList) r' where
  starts y hy start hstart := by
    obtain ⟨x, hx, hnumber, hbefore | hnow⟩ := continues_of_step hstep y hy start hstart
    · exact hnumber ▸ hkept _ _ (h.starts x hx start hbefore)
    · exact hnumber ▸ hnew x hx start hnow
  records d hd record hrecord := by
    rcases List.mem_append.mp hd with hd | hd
    · exact hkept _ _ (h.records d hd record hrecord)
    · have htally := tally_of_step hstep
      rw [Option.mem_toList.mp hd] at htally
      cases htally with
      | fail => simp at hrecord
      | settle hx hsubmitting =>
        -- The record that is accepted shows the start of the handler's call.
        obtain rfl := Option.some.inj hrecord
        exact hkept _ _ (h.starts _ (handler?_eq_some hx).1 _ (by rw [hsubmitting]; rfl))

end Calls

/-! ## Checks come before starts -/

/-- The dispatched operation of a number has passed one of some checks by an instant. -/
def HasPassed (passed : List (PassedCheck P)) (r : Run P κ) (number : Nat) (start : Instant) :
    Prop :=
  ∃ check ∈ passed, check.number = number ∧ r.dispatched[number]? = some check.scheduled ∧
    check.time ≤ start

/-- The checks that the operations of a run have passed, and what has come after them. -/
structure Judged (setup : RunSetup κ) (passed : List (PassedCheck P)) (endings : List Ending)
    (r : Run P κ) : Prop where
  verdicts : ∀ check ∈ passed, ∀ err,
    setup.config.delayChecker.check check.scheduled.operation check.time ≠ .breach err
  /-- An operation that is due will be dispatched with the next number. -/
  due : ∀ next, r.phase.due? = some next →
    ∃ check ∈ passed, check.number = r.dispatched.size ∧ check.scheduled = next
  dispatched : ∀ (n : Nat) x, r.dispatched[n]? = some x →
    ∃ check ∈ passed, check.number = n ∧ check.scheduled = x
  starts : ∀ x ∈ r.handlers, ∀ start, x.phase.start? = some start →
    HasPassed passed r x.number start
  records : ∀ d ∈ endings, ∀ record, d.record = some record →
    HasPassed passed r d.number record.actualStart

section Keeping

variable {setup : RunSetup κ} {r r' : Run P κ} {e : RunEvent} {passed : List (PassedCheck P)}
  {endings : List Ending}

/-- An operation that has passed a check has done so after any event, too. -/
theorem HasPassed.step {n : Nat} {start : Instant} (h : HasPassed passed r n start)
    (hstep : r.step setup e = some r') (more : List (PassedCheck P)) :
    HasPassed (passed ++ more) r' n start := by
  obtain ⟨check, hcheck, hnumber, hscheduled, htime⟩ := h
  exact ⟨check, List.mem_append_left _ hcheck, hnumber, dispatched_kept hstep hscheduled, htime⟩

/-- A run begins without checks. -/
theorem judged_fresh (setup : RunSetup κ) (operations : Schedule P)
    (completion : CompletionService) (metrics : MetricsPipeline κ) (log : ErrorLog) :
    Judged setup [] [] (fresh operations completion metrics log) where
  verdicts := by simp
  due next h := by simp [fresh, SchedulerPhase.due?] at h
  dispatched n x h := by simp [fresh] at h
  starts x hx := absurd hx List.not_mem_nil
  records d hd := absurd hd List.not_mem_nil

/-- A call that begins is one of an operation that has passed its check, if the clock does not say
that it comes before the checks. -/
theorem Judged.begun_step (h : Judged setup passed endings r) {left : List Nat}
    (haccounts : Accounts endings left r)
    (hclock : ∀ time, e.reading? = some time → ∀ check ∈ passed, check.time ≤ time)
    (hstep : r.step setup e = some r') :
    Begun (HasPassed (passed ++ (r.passed? setup e).toList) r')
      (endings ++ (r.ending? setup e).toList) r' := by
  have hbegun : Begun (HasPassed passed r) endings r := ⟨h.starts, h.records⟩
  refine hbegun.step hstep (fun n start hpassed => hpassed.step hstep _) ?_
  intro x hx start hnow
  -- The call begins now, and its operation has been dispatched.
  obtain ⟨hscheduled, -⟩ := haccounts.handlers x hx
  obtain ⟨check, hcheck, hfor, hsame⟩ := h.dispatched _ _ hscheduled
  have hpassed : HasPassed passed r x.number start :=
    ⟨check, hcheck, hfor, hsame ▸ hscheduled, hclock start hnow check hcheck⟩
  exact hpassed.step hstep _

/-- Every event keeps it so, if the clock does not say that it comes before the checks. -/
theorem Judged.step (h : Judged setup passed endings r) {left : List Nat}
    (haccounts : Accounts endings left r)
    (hclock : ∀ time, e.reading? = some time → ∀ check ∈ passed, check.time ≤ time)
    (hstep : r.step setup e = some r') :
    Judged setup (passed ++ (r.passed? setup e).toList)
      (endings ++ (r.ending? setup e).toList) r' where
  verdicts check hcheck := by
    rcases List.mem_append.mp hcheck with hcheck | hcheck
    · exact h.verdicts check hcheck
    · exact (passed?_eq_some (Option.mem_toList.mp hcheck)).1
  due next hnext := by
    -- What is due is not dispatched with the same event.
    have hsame : r'.dispatched = r.dispatched := by
      rcases dispatched_cases hstep with hsame | ⟨_, _, -, hd⟩
      · exact hsame
      · rw [hd.phase] at hnext
        simp [SchedulerPhase.due?] at hnext
    rw [hsame]
    rcases due?_of_step hstep hnext with hdue | ⟨now, hpassed⟩
    · obtain ⟨check, hcheck, hfor⟩ := h.due next hdue
      exact ⟨check, List.mem_append_left _ hcheck, hfor⟩
    · refine ⟨_, List.mem_append_right _ (Option.mem_toList.mpr hpassed), rfl, rfl⟩
  dispatched n x hx := by
    have hold : r.dispatched[n]? = some x →
        ∃ check ∈ passed ++ (r.passed? setup e).toList, check.number = n ∧ check.scheduled = x := by
      intro hx
      obtain ⟨check, hcheck, hfor⟩ := h.dispatched n x hx
      exact ⟨check, List.mem_append_left _ hcheck, hfor⟩
    rcases dispatched_cases hstep with hsame | ⟨next, batch, hphase, hd⟩
    · exact hold (hsame ▸ hx)
    · rw [hd.dispatched, Array.getElem?_push] at hx
      split_ifs at hx with hn
      · obtain ⟨check, hcheck, hnumber, hscheduled⟩ := h.due next (by rw [hphase]; rfl)
        exact ⟨check, List.mem_append_left _ hcheck, hnumber.trans hn.symm,
          hscheduled.trans (Option.some.inj hx)⟩
      · exact hold hx
  starts := (h.begun_step haccounts hclock hstep).starts
  records := (h.begun_step haccounts hclock hstep).records

/-- Any events keep it so, if the clock does not go back. -/
theorem Judged.steps (h : Judged setup passed endings r) (haccounted : Accounted setup endings r)
    {events : List RunEvent} (hs : r.steps setup events = some r')
    (hordered : (events.filterMap RunEvent.reading?).Pairwise (· ≤ ·))
    (hclock : ∀ time ∈ events.filterMap RunEvent.reading?, ∀ check ∈ passed, check.time ≤ time) :
    Judged setup (passed ++ r.checks setup events) (endings ++ r.endings setup events) r' := by
  induction events generalizing r passed endings with
  | nil =>
    obtain rfl := Option.some.inj hs
    simpa [checks, Run.endings] using h
  | cons e rest ih =>
    obtain ⟨s, hstep, hrest⟩ := Option.bind_eq_some_iff.mp hs
    obtain ⟨left, haccounts⟩ := haccounted.exists_accounts
    have hnext := h.step haccounts (fun time htime => hclock time
      (List.mem_filterMap.mpr ⟨e, List.mem_cons_self, htime⟩)) hstep
    have hlater := ih hnext (haccounted.tally (tally_of_step hstep)) hrest
      (List.Pairwise.sublist ((List.sublist_cons_self e rest).filterMap _) hordered) ?_
    · rw [List.append_assoc, List.append_assoc] at hlater
      rw [checks, Run.endings, hstep]
      exact hlater
    · intro time htime check hcheck
      rcases List.mem_append.mp hcheck with hcheck | hcheck
      · have hmem := ((List.sublist_cons_self e rest).filterMap RunEvent.reading?).subset htime
        exact hclock time hmem check hcheck
      · -- The check that has just been passed was made at the first of the readings.
        have hreading := (passed?_eq_some (Option.mem_toList.mp hcheck)).2
        rw [List.filterMap_cons_some hreading] at hordered
        exact (List.pairwise_cons.mp hordered).1 time htime

end Keeping

/-- Where a delay that is not tolerated ends the run and the clock does not go back, each record of
a run, whatever else happens in it, is one of an operation that has passed a check, at a reading no
later than the start in the record. At that reading the operation was no later than tolerated, if
its delay can be measured. So the start is late by no more than the tolerated delay and the time for
which the operation has waited, after the check, for its permit and for a worker. -/
theorem checked_before_start {setup : RunSetup κ}
    (hpolicy : setup.config.effectivePolicy = .terminate) {operations : Schedule P}
    {completion : CompletionService} {metrics : MetricsPipeline κ} {log : ErrorLog}
    {events : List RunEvent} {r : Run P κ}
    (hordered : (events.filterMap RunEvent.reading?).Pairwise (· ≤ ·))
    (hs : (fresh operations completion metrics log).steps setup events = some r) :
    ∀ record ∈ (fresh operations completion metrics log).records setup events,
      ∃ check ∈ (fresh operations completion metrics log).checks setup events,
        r.dispatched[check.number]? = some check.scheduled ∧
        record.Describes check.scheduled.operation ∧
        check.time ≤ record.actualStart ∧
        (FitsNanos (check.time.nanos - record.scheduledStart.nanos) →
          check.time.nanos - record.scheduledStart.nanos ≤
            setup.config.toleratedDelay.nanos) := by
  intro record hrecord
  have haccounted := accounted_fresh setup operations completion metrics log
  have hjudged := (judged_fresh setup operations completion metrics log).steps haccounted hs
    hordered (by simp)
  obtain ⟨left, haccounts⟩ := (haccounted.steps hs).exists_accounts
  rw [List.nil_append] at haccounts hjudged
  rw [List.nil_append] at hjudged
  obtain ⟨d, hd, hrecord⟩ := List.mem_filterMap.mp hrecord
  obtain ⟨check, hcheck, hnumber, hscheduled, htime⟩ := hjudged.records d hd record hrecord
  obtain ⟨x, hx, hdescribes⟩ := haccounts.records d hd record hrecord
  obtain rfl : check.scheduled = x := Option.some.inj (hscheduled.symm.trans hx)
  refine ⟨check, hcheck, hnumber ▸ hscheduled, hdescribes, htime, fun hfits => ?_⟩
  rw [hdescribes.2] at hfits ⊢
  exact DelayChecker.delay_le_of_check hpolicy (hjudged.verdicts check hcheck) hfits

/-- One worker, and starts that count. -/
def soleWorker : RunSetup Unit :=
  { soloSetup with config := {} }

/-- The beginning of a run of two operations that are due together. -/
def twinRun : Run Unit Unit :=
  fresh (.ofList (["first", "second"].map fun name =>
      .ok ⟨.independent name soloSetup.start (), false⟩)) (.ofPeers [])
    ⟨2, true, [], .receiving, Collector.fresh {} () false, false, none⟩ ErrorLog.empty

/-- Two tenths of a second after the start. -/
def lateStart : Instant := ⟨200000012, by decide⟩

/-- Both operations are dispatched at once. The call of the first one takes a while, and the second
one gets the worker after that. -/
def oneAfterOther : List RunEvent :=
  List.replicate 14 (.schedule soloSetup.start false) ++
    [.execute 0 soloSetup.start, .answer 0 (.returned (.ok .null)) Duration.zero,
      .execute 1 lateStart, .submit 0, .answer 1 (.returned (.ok .null)) Duration.zero,
      .submit 1] ++
    List.replicate 2 (.schedule lateStart false)

/-- The second operation has passed its check in time. -/
theorem checked_before_start_twins :
    ∃ record ∈ twinRun.records soleWorker oneAfterOther, record.operationType = "second" ∧
      ∃ check ∈ twinRun.checks soleWorker oneAfterOther,
        record.Describes check.scheduled.operation ∧ check.time ≤ record.actualStart ∧
        check.time.nanos - record.scheduledStart.nanos ≤
          soleWorker.config.toleratedDelay.nanos := by
  have hordered : (oneAfterOther.filterMap RunEvent.reading?).Pairwise (· ≤ ·) := by decide
  obtain ⟨r, hr⟩ := Option.isSome_iff_exists.mp
    (show (twinRun.steps soleWorker oneAfterOther).isSome = true by decide +kernel)
  have hrecord : ∃ record ∈ twinRun.records soleWorker oneAfterOther,
      record.operationType = "second" ∧ record.scheduledStart = soloSetup.start := by
    decide +kernel
  have htimes : ∀ check ∈ twinRun.checks soleWorker oneAfterOther,
      check.time = soloSetup.start := by
    decide +kernel
  obtain ⟨record, hmem, htype, hscheduled⟩ := hrecord
  obtain ⟨check, hcheck, -, hdescribes, hbefore, hintime⟩ :=
    checked_before_start rfl hordered hr record hmem
  refine ⟨record, hmem, htype, check, hcheck, hdescribes, hbefore, hintime ?_⟩
  rw [htimes check hcheck, hscheduled]
  decide

/-- It starts later than tolerated all the same: the run ends with no error reported, although one
of its records has a start delay of twice what is tolerated. -/
theorem started_late_unreported : ∃ r, twinRun.steps soleWorker oneAfterOther = some r ∧
    soleWorker.config.effectivePolicy = .terminate ∧
    (oneAfterOther.filterMap RunEvent.reading?).Pairwise (· ≤ ·) ∧
    r.phase.runnerState = .terminated ∧ r.completed = 2 ∧ r.log.entries = [] ∧
    ∃ record ∈ twinRun.records soleWorker oneAfterOther,
      ¬ record.actualStart.nanos - record.scheduledStart.nanos ≤
        soleWorker.config.toleratedDelay.nanos := by
  have hrun : (twinRun.steps soleWorker oneAfterOther).map (fun r =>
      decide (r.phase.runnerState = .terminated ∧ r.completed = 2 ∧ r.log.entries = [])) =
        some true := by
    decide +kernel
  have hrecord : ∃ record ∈ twinRun.records soleWorker oneAfterOther,
      ¬ record.actualStart.nanos - record.scheduledStart.nanos ≤
        soleWorker.config.toleratedDelay.nanos := by
    decide +kernel
  obtain ⟨r, hr, hfacts⟩ := Option.map_eq_some_iff.mp hrun
  obtain ⟨hphase, hcompleted, hlog⟩ := of_decide_eq_true hfacts
  exact ⟨r, hr, rfl, by decide, hphase, hcompleted, hlog, hrecord⟩

end Run

end WorkloadReplay
