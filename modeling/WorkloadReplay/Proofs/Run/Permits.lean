import WorkloadReplay.Proofs.Run.Refusals

/-!
# Permits

The pools of a run are made when the run proper begins. From then on a permit to be alive is free or
belongs to a handler, and a permit to be executed is free or belongs to a handler whose operation
the database is executing: `Run.Conserves` says that no step before the end of draining changes
these sums, on whatever path a handler ends or an operation is given up, and `Run.Balanced` says
what the sums are. Handlers are told apart by their numbers, which follow the order of their
dispatch (`Run.Numbered`).
-/

namespace WorkloadReplay

variable {P κ : Type}

/-- The pools of a configuration have a permit for each operation that may be alive or executed, one
at least. -/
theorem RunnerConfig.free_of_flowControl {c : RunnerConfig} {flow : FlowControl}
    (h : c.flowControl = .ok flow) :
    flow.inFlight.free = max 1 c.maxInFlight ∧ flow.workers.free = max 1 c.threadCount := by
  have hpool : ∀ count pool, PermitPool.ofCount count = .ok pool → pool.free = max 1 count := by
    intro count pool hcount
    unfold PermitPool.ofCount at hcount
    split_ifs at hcount
    obtain rfl := Except.ok.inj hcount
    exact Nat.max_comm count 1
  unfold RunnerConfig.flowControl FlowControl.ofCounts at h
  cases hinFlight : PermitPool.ofCount c.maxInFlight with
  | error text => simp [hinFlight, bind, Except.bind] at h
  | ok inFlight =>
    cases hworkers : PermitPool.ofCount c.threadCount with
    | error text => simp [hinFlight, hworkers, bind, Except.bind] at h
    | ok workers =>
      rw [hinFlight, hworkers] at h
      obtain rfl := Except.ok.inj h
      exact ⟨hpool _ _ hinFlight, hpool _ _ hworkers⟩

/-- A permit that is acquired was free. -/
theorem PermitPool.free_of_request {p p' : PermitPool} (h : p.request = .acquired p') :
    p'.free + 1 = p.free := by
  unfold PermitPool.request at h
  split_ifs at h
  split at h
  · simp at h
  · rename_i n hfree
    obtain rfl := PermitRequest.acquired.inj h
    exact hfree.symm

namespace Run

/-! ## Handlers and their numbers -/

section Handlers

variable {r : Run P κ} {x : Handler P}

/-- Where numbers do not repeat, a handler and those with other numbers are all. -/
theorem cons_filter_perm {l : List (Handler P)} (hnodup : (l.map (·.number)).Nodup) (hx : x ∈ l) :
    (x :: l.filter (·.number ≠ x.number)).Perm l := by
  induction l with
  | nil => exact absurd hx List.not_mem_nil
  | cons y rest ih =>
    rw [List.map_cons, List.nodup_cons] at hnodup
    obtain ⟨hnot, hrest⟩ := hnodup
    by_cases hnumber : y.number = x.number
    · -- The first one has the number, and so it is the handler itself.
      have hfirst : y = x := by
        rcases List.mem_cons.mp hx with heq | hmem
        · exact heq.symm
        · exact absurd (hnumber ▸ List.mem_map_of_mem hmem) hnot
      have hothers : rest.filter (·.number ≠ x.number) = rest := by
        refine List.filter_eq_self.mpr fun z hz => ?_
        have hne : z.number ≠ x.number := by
          intro heq
          exact hnot (hnumber ▸ heq ▸ List.mem_map_of_mem hz)
        simpa using hne
      rw [List.filter_cons_of_neg (by simpa using hnumber), hothers, hfirst]
    · have hmem : x ∈ rest :=
        (List.mem_cons.mp hx).resolve_left fun heq => hnumber (heq ▸ rfl)
      rw [List.filter_cons_of_pos (by simpa using hnumber)]
      exact (List.Perm.swap y x _).trans ((ih hrest hmem).cons y)

/-- The handlers alive are in the order of their dispatch, and each has a number of its own. -/
def Numbered (r : Run P κ) : Prop :=
  (r.handlers.map (·.number)).Sublist (List.range r.dispatched.size)

/-- So no number repeats. -/
theorem Numbered.nodup (h : r.Numbered) : (r.handlers.map (·.number)).Nodup :=
  List.nodup_range.sublist h

/-- A handler that goes on takes its own place among the others. -/
theorem handlers_setPhase_perm (hnodup : (r.handlers.map (·.number)).Nodup)
    (hx : r.handler? x.number = some x) (phase : HandlerPhase) :
    ({ x with phase := phase } :: r.handlers.filter (·.number ≠ x.number)).Perm
      (r.setPhase x.number phase).handlers := by
  have hperm := (cons_filter_perm hnodup (handler?_eq_some hx).1).map fun h =>
    if h.number = x.number then { h with phase := phase } else h
  have hothers : (r.handlers.filter (·.number ≠ x.number)).map (fun h =>
      if h.number = x.number then { h with phase := phase } else h) =
      r.handlers.filter (·.number ≠ x.number) := by
    refine (List.map_congr_left (g := id) fun h hh => if_neg ?_).trans (List.map_id _)
    simpa using List.of_mem_filter hh
  rw [List.map_cons, if_pos rfl, hothers] at hperm
  exact hperm

/-- The numbers after an event: some of those before, or one more, of the operation that has been
dispatched. -/
theorem numbers_of_tally {setup : RunSetup κ} {r' : Run P κ} {d : Option Ending}
    (ht : Tally setup r r' d) :
    (r'.dispatched = r.dispatched ∧
      (r'.handlers.map (·.number)).Sublist (r.handlers.map (·.number))) ∨
    (r'.dispatched.size = r.dispatched.size + 1 ∧
      r'.handlers.map (·.number) = r.handlers.map (·.number) ++ [r.dispatched.size]) := by
  cases ht with
  | same hs => exact .inl ⟨hs.dispatched, by rw [hs.handlers]⟩
  | consume hconsume hs => exact .inl ⟨hs.dispatched, by rw [hs.handlers]⟩
  | reap hs => exact .inl ⟨hs.dispatched, by rw [hs.handlers]; exact List.Sublist.refl _⟩
  | spawn hs =>
    refine .inr ⟨by rw [hs.dispatched]; exact Array.size_push _, ?_⟩
    rw [hs.handlers]
    exact List.map_append
  | move hx hrecord hs =>
    refine .inl ⟨hs.dispatched, ?_⟩
    rw [hs.handlers, numbers_setPhase]
  | fail hx hs =>
    refine .inl ⟨hs.dispatched, ?_⟩
    rw [hs.handlers]
    exact List.filter_sublist.map _
  | settle hx hrecord hoffer hs =>
    refine .inl ⟨hs.dispatched, ?_⟩
    rw [hs.handlers]
    exact List.filter_sublist.map _
  | finish hs => exact .inl ⟨hs.dispatched, by rw [hs.handlers]; exact List.Sublist.refl _⟩
  | abandon hs => exact .inl ⟨hs.dispatched, by rw [hs.handlers]; exact List.nil_sublist _⟩

/-- Fewer handlers are numbered as before. -/
theorem Numbered.of_sublist {r' : Run P κ} (h : r.Numbered)
    (hdispatched : r'.dispatched = r.dispatched)
    (hsublist : (r'.handlers.map (·.number)).Sublist (r.handlers.map (·.number))) :
    r'.Numbered := by
  unfold Numbered
  rw [hdispatched]
  exact hsublist.trans h

/-- Every event keeps the handlers numbered. -/
theorem Numbered.step {setup : RunSetup κ} {r' : Run P κ} (h : r.Numbered) {e : RunEvent}
    (hs : r.step setup e = some r') : r'.Numbered := by
  rcases numbers_of_tally (tally_of_step hs) with ⟨hdispatched, hsublist⟩ | ⟨hsize, hnumbers⟩
  · exact h.of_sublist hdispatched hsublist
  · unfold Numbered
    rw [hsize, hnumbers, List.range_succ]
    exact h.append_right _

end Handlers

/-! ## Conservation -/

/-- A step after which there are as many permits as before: as many to be alive, free or with
handlers, and as many to be executed, free or with handlers whose operations are being executed. -/
structure Conserves (r r' : Run P κ) : Prop where
  alive : r'.flow.inFlight.free + r'.handlers.length = r.flow.inFlight.free + r.handlers.length
  executing : r'.flow.workers.free + r'.handlers.countP Handler.isExecuting =
    r.flow.workers.free + r.handlers.countP Handler.isExecuting
  orphans : r'.orphanedCalls = r.orphanedCalls

section Steps

variable {setup : RunSetup κ} {r r' : Run P κ}

/-- A step that has nothing to do with permits. -/
theorem Conserves.of_eq (halive : r'.flow.inFlight.free = r.flow.inFlight.free)
    (hworkers : r'.flow.workers.free = r.flow.workers.free) (hhandlers : r'.handlers = r.handlers)
    (horphans : r'.orphanedCalls = r.orphanedCalls) : Conserves r r' where
  alive := by rw [halive, hhandlers]
  executing := by rw [hworkers, hhandlers]
  orphans := horphans

/-- The look for the next batch has nothing to do with permits. -/
theorem conserves_pull (r : Run P κ) : Conserves r (r.pull setup) := by
  unfold pull
  split
  · exact .of_eq rfl rfl rfl rfl
  · split
    · exact .of_eq rfl rfl rfl rfl
    · dsimp only
      split_ifs <;> exact .of_eq rfl rfl rfl rfl
    · dsimp only
      split_ifs <;> exact .of_eq rfl rfl rfl rfl

/-- An operation that gets its handler has a permit that was free. -/
theorem conserves_spawn {pool : PermitPool} (hpool : r.flow.inFlight.request = .acquired pool)
    (next : ScheduledOperation P) (hflow : r'.flow = { r.flow with inFlight := pool })
    (hhandlers : r'.handlers = r.handlers ++ [⟨r.dispatched.size, next, .waiting⟩])
    (horphans : r'.orphanedCalls = r.orphanedCalls) : Conserves r r' where
  alive := by
    have hfree := PermitPool.free_of_request hpool
    rw [hflow, hhandlers, List.length_append, List.length_singleton]
    dsimp only
    omega
  executing := by
    have hwaiting : Handler.isExecuting ⟨r.dispatched.size, next, .waiting⟩ = false := rfl
    rw [hflow, hhandlers, List.countP_append, List.countP_singleton, hwaiting]
    rfl
  orphans := horphans

/-- An operation that is given up once it has its permit gives it back. -/
theorem conserves_dispatch {next : ScheduledOperation P} {batch : List (ScheduledOperation P)}
    (h : r.dispatch next batch = some r') : Conserves r r' := by
  unfold dispatch at h
  split at h
  · simp at h
  · obtain rfl := Option.some.inj h
    exact .of_eq rfl rfl rfl rfl
  · rename_i pool hpool
    split at h
    · split at h
      · obtain rfl := Option.some.inj h
        exact .of_eq rfl rfl rfl rfl
      · obtain rfl := Option.some.inj h
        exact conserves_spawn hpool next rfl rfl rfl
    · obtain rfl := Option.some.inj h
      exact conserves_spawn hpool next rfl rfl rfl

/-- Nothing that the scheduler does once the run proper has begun changes how many permits there
are. -/
theorem conserves_scheduleStep (hbegun : r.HasBegun) {now : Instant} {expired : Bool}
    (h : r.scheduleStep setup now expired = some r') : Conserves r r' := by
  unfold scheduleStep at h
  unfold HasBegun at hbegun
  split at h
  -- The pools are made in the phases before the run proper, and only the dispatching of an
  -- operation asks for a permit after that.
  case h_1 hphase => simp [hphase] at hbegun
  case h_2 hphase => simp [hphase] at hbegun
  case h_3 =>
    obtain rfl := Option.some.inj h
    exact conserves_pull r
  case h_4 first others hphase =>
    unfold wake at h
    split_ifs at h
    · exact Option.some.inj h ▸ .of_eq rfl rfl rfl rfl
    · exact Option.some.inj h ▸ .of_eq rfl rfl rfl rfl
    · split at h
      · exact Option.some.inj h ▸ .of_eq rfl rfl rfl rfl
      · simp at h
  case h_5 batch hphase =>
    obtain rfl := Option.some.inj h
    unfold choose
    split
    · exact .of_eq rfl rfl rfl rfl
    · split_ifs <;> exact .of_eq rfl rfl rfl rfl
  case h_6 next batch hphase =>
    obtain ⟨reached, -, rfl⟩ := Option.map_eq_some_iff.mp h
    split_ifs <;> exact .of_eq rfl rfl rfl rfl
  case h_7 next batch hphase =>
    obtain rfl := Option.some.inj h
    unfold judge
    split <;> exact .of_eq rfl rfl rfl rfl
  case h_8 => exact conserves_dispatch h
  case h_9 =>
    unfold drain at h
    split at h
    · exact Option.some.inj h ▸ .of_eq rfl rfl rfl rfl
    · simp at h
    · exact Option.some.inj h ▸ .of_eq rfl rfl rfl rfl
  all_goals simp at h

/-- A handler that goes on may get a worker or give it back. -/
theorem conserves_setPhase (hnodup : (r.handlers.map (·.number)).Nodup) {x : Handler P}
    (hx : r.handler? x.number = some x) (phase : HandlerPhase)
    (halive : r'.flow.inFlight.free = r.flow.inFlight.free)
    (hworkers : r'.flow.workers.free + (if ({ x with phase := phase } : Handler P).isExecuting
      then 1 else 0) = r.flow.workers.free + if x.isExecuting then 1 else 0)
    (hhandlers : r'.handlers = (r.setPhase x.number phase).handlers)
    (horphans : r'.orphanedCalls = r.orphanedCalls) : Conserves r r' where
  alive := by
    rw [halive, hhandlers]
    unfold setPhase
    rw [List.length_map]
  executing := by
    -- All other handlers count before and after.
    have hbefore := (cons_filter_perm hnodup (handler?_eq_some hx).1).countP_eq Handler.isExecuting
    have hafter := (handlers_setPhase_perm hnodup hx phase).countP_eq Handler.isExecuting
    rw [List.countP_cons] at hbefore hafter
    rw [hhandlers, ← hbefore, ← hafter]
    omega
  orphans := horphans

/-- A handler that ends gives its permit to be alive back, and its worker if it has one. -/
theorem conserves_endHandler (hnodup : (r.handlers.map (·.number)).Nodup) {x : Handler P}
    (hx : r.handler? x.number = some x)
    (halive : r'.flow.inFlight.free = r.flow.inFlight.free + 1)
    (hworkers : r'.flow.workers.free = r.flow.workers.free + if x.isExecuting then 1 else 0)
    (hhandlers : r'.handlers = r.handlers.filter (·.number ≠ x.number))
    (horphans : r'.orphanedCalls = r.orphanedCalls) : Conserves r r' where
  alive := by
    have hlength := (cons_filter_perm hnodup (handler?_eq_some hx).1).length_eq
    rw [List.length_cons] at hlength
    rw [halive, hhandlers]
    omega
  executing := by
    have hcount := (cons_filter_perm hnodup (handler?_eq_some hx).1).countP_eq Handler.isExecuting
    rw [List.countP_cons] at hcount
    rw [hworkers, hhandlers]
    omega
  orphans := horphans

/-- A handler that waits gets a worker that was free, or ends. -/
theorem conserves_startCall (hnodup : (r.handlers.map (·.number)).Nodup) {number : Nat}
    {now : Instant} (h : r.startCall number now = some r') : Conserves r r' := by
  unfold startCall at h
  split at h
  · rename_i n scheduled hhandler
    obtain ⟨rfl, hx⟩ := handler?_number hhandler
    split at h
    · rename_i pool hpool
      obtain rfl := Option.some.inj h
      have hfree := PermitPool.free_of_request hpool
      exact conserves_setPhase hnodup hx (.executing now) rfl hfree rfl rfl
    · simp at h
    · obtain rfl := Option.some.inj h
      exact conserves_endHandler hnodup hx rfl rfl rfl rfl
  · simp at h

/-- A handler whose call comes back gives its worker back, also if it ends. -/
theorem conserves_finishCall (hnodup : (r.handlers.map (·.number)).Nodup) {number : Nat}
    {answer : CallAnswer} {elapsed : Duration}
    (h : r.finishCall number answer elapsed = some r') : Conserves r r' := by
  unfold finishCall at h
  split at h
  · rename_i n scheduled start hhandler
    obtain ⟨rfl, hx⟩ := handler?_number hhandler
    dsimp only at h
    split at h
    · obtain rfl := Option.some.inj h
      exact conserves_endHandler hnodup hx rfl rfl rfl rfl
    · split_ifs at h
      · obtain rfl := Option.some.inj h
        exact conserves_setPhase hnodup hx (.submitting _) rfl rfl rfl rfl
      · obtain rfl := Option.some.inj h
        exact conserves_endHandler hnodup hx rfl rfl rfl rfl
  · simp at h

/-- A handler that sends its record ends, and has no worker any more. -/
theorem conserves_sendRecord (hnodup : (r.handlers.map (·.number)).Nodup) {number : Nat}
    (h : r.sendRecord number = some r') : Conserves r r' := by
  unfold sendRecord at h
  split at h
  · rename_i n scheduled record hhandler
    obtain ⟨rfl, hx⟩ := handler?_number hhandler
    split at h
    · simp at h
    · obtain rfl := Option.some.inj h
      exact conserves_endHandler hnodup hx rfl rfl rfl rfl
    · obtain rfl := Option.some.inj h
      unfold settleHandler
      dsimp only
      split
      · split <;> exact conserves_endHandler hnodup hx rfl rfl rfl rfl
      · exact conserves_endHandler hnodup hx rfl rfl rfl rfl
  · simp at h

/-- No event changes how many permits there are once the run proper has begun, before the time for
draining is over. -/
theorem conserves_of_step (hbegun : r.HasBegun) (hnodup : (r.handlers.map (·.number)).Nodup)
    {e : RunEvent} (hnot : ∀ now, e ≠ .expire now) (hs : r.step setup e = some r') :
    Conserves r r' := by
  have hservice : ∀ answer : Except ReplayError CompletionService,
      Conserves r (r.withCompletion answer) := by
    intro answer
    cases answer <;> exact .of_eq rfl rfl rfl rfl
  cases e with
  | schedule now expired => exact conserves_scheduleStep hbegun hs
  | execute number now => exact conserves_startCall hnodup hs
  | answer number answer elapsed => exact conserves_finishCall hnodup hs
  | submit number => exact conserves_sendRecord hnodup hs
  | consume =>
    obtain ⟨consumed, -, rfl⟩ := Option.map_eq_some_iff.mp hs
    exact .of_eq rfl rfl rfl rfl
  | expire now => exact absurd rfl (hnot now)
  | peerClaims => exact Option.some.inj hs ▸ hservice _
  | peerInitiated k time =>
    simp only [step] at hs
    split_ifs at hs
    exact Option.some.inj hs ▸ hservice _
  | peerCompleted k time =>
    simp only [step] at hs
    split_ifs at hs
    exact Option.some.inj hs ▸ hservice _
  | completionShutdown => exact Option.some.inj hs ▸ .of_eq rfl rfl rfl rfl
  | report source message => exact Option.some.inj hs ▸ .of_eq rfl rfl rfl rfl

/-- Only a handler that asks for a worker takes one, apart from what the scheduler does. -/
theorem workers_le_of_step {e : RunEvent} (hschedule : ∀ now expired, e ≠ .schedule now expired)
    (hexpire : ∀ now, e ≠ .expire now) (hexecute : ∀ number now, e ≠ .execute number now)
    (hs : r.step setup e = some r') : r.flow.workers.free ≤ r'.flow.workers.free := by
  have hservice : ∀ answer : Except ReplayError CompletionService,
      r.flow.workers.free ≤ (r.withCompletion answer).flow.workers.free := by
    intro answer
    cases answer <;> exact Nat.le_refl _
  cases e with
  | schedule now expired => exact absurd rfl (hschedule now expired)
  | execute number now => exact absurd rfl (hexecute number now)
  | expire now => exact absurd rfl (hexpire now)
  | answer number answer elapsed =>
    simp only [step, finishCall] at hs
    split at hs
    · split at hs
      · exact Option.some.inj hs ▸ Nat.le_succ _
      · split_ifs at hs <;> exact Option.some.inj hs ▸ Nat.le_succ _
    · simp at hs
  | submit number =>
    simp only [step, sendRecord, settleHandler] at hs
    split at hs
    · split at hs
      · simp at hs
      · exact Option.some.inj hs ▸ Nat.le_refl _
      · obtain rfl := Option.some.inj hs
        split
        · split <;> exact Nat.le_refl _
        · exact Nat.le_refl _
    · simp at hs
  | consume =>
    obtain ⟨consumed, -, rfl⟩ := Option.map_eq_some_iff.mp hs
    exact Nat.le_refl _
  | peerClaims => exact Option.some.inj hs ▸ hservice _
  | peerInitiated k time =>
    simp only [step] at hs
    split_ifs at hs
    exact Option.some.inj hs ▸ hservice _
  | peerCompleted k time =>
    simp only [step] at hs
    split_ifs at hs
    exact Option.some.inj hs ▸ hservice _
  | completionShutdown => exact Option.some.inj hs ▸ Nat.le_refl _
  | report source message => exact Option.some.inj hs ▸ Nat.le_refl _

end Steps

/-! ## Balance -/

/-- The permits of a run whose pools were made as `flow`. -/
structure Balanced (flow : FlowControl) (r : Run P κ) : Prop where
  begun : r.HasBegun
  numbered : r.Numbered
  alive : r.flow.inFlight.free + r.handlers.length = flow.inFlight.free
  executing : r.flow.workers.free + r.handlers.countP Handler.isExecuting = flow.workers.free

/-- A run without pools: it has not begun, or it broke down when its pools were to be made. -/
structure Unpooled (setup : RunSetup κ) (r : Run P κ) : Prop where
  handlers : r.handlers = []
  orphans : r.orphanedCalls = 0
  phase : ¬ r.HasBegun ∨
    (∃ text, setup.config.flowControl = .error text) ∧ ∃ text, r.phase = .broken text

/-- A run whose pools have been made and whose calls all have their handlers. -/
def Pooled (setup : RunSetup κ) (r : Run P κ) : Prop :=
  ∃ flow, setup.config.flowControl = .ok flow ∧ r.Balanced flow ∧ r.orphanedCalls = 0

section Balance

variable {setup : RunSetup κ} {r r' : Run P κ} {flow : FlowControl}

/-- Before the time for draining is over, every event keeps the permits balanced. -/
theorem Balanced.step (h : r.Balanced flow) {e : RunEvent} (hnot : ∀ now, e ≠ .expire now)
    (hs : r.step setup e = some r') : r'.Balanced flow := by
  have hconserves := conserves_of_step h.begun h.numbered.nodup hnot hs
  exact ⟨hasBegun_of_step h.begun hs, h.numbered.step hs, hconserves.alive.trans h.alive,
    hconserves.executing.trans h.executing⟩

/-- The beginning of the run proper makes the pools. -/
theorem pools_launch (hhandlers : r.handlers = []) (horphans : r.orphanedCalls = 0) :
    (r.launch setup).Unpooled setup ∨ (r.launch setup).Pooled setup := by
  unfold launch
  split
  · rename_i text hflow
    exact .inl ⟨hhandlers, horphans, .inr ⟨⟨text, hflow⟩, text, rfl⟩⟩
  · rename_i flow hflow
    refine .inr ⟨flow, hflow, ⟨trivial, ?_, ?_, ?_⟩, horphans⟩
    · simp [Numbered, hhandlers]
    · simp [hhandlers]
    · simp [hhandlers]

/-- The seeds of the tracker have nothing to do with calls. -/
theorem orphanedCalls_seed (r : Run P κ) (start : Instant) (t : CompletionTracker) :
    (r.seed start t).orphanedCalls = r.orphanedCalls := by
  unfold seed
  split
  · rfl
  · split
    · rfl
    · dsimp only
      split
      · rfl
      · split <;> rfl

/-- The first step of a run makes the pools or leaves it without. -/
theorem Unpooled.begin (h : r.Unpooled setup) :
    (r.begin setup).Unpooled setup ∨ (r.begin setup).Pooled setup := by
  have hhandlers : (r.begin setup).handlers = [] := (passes_begin r).1.handlers.trans h.handlers
  rcases begin_cases setup r with ⟨-, hlaunch⟩ | ⟨hpeers, hphase⟩
  · rw [hlaunch]
    exact pools_launch h.handlers h.orphans
  · refine .inl ⟨hhandlers, ?_, .inl ?_⟩
    · unfold Run.begin
      rw [if_neg hpeers]
      split
      · exact h.orphans
      · exact (orphanedCalls_seed _ _ _).trans h.orphans
    · unfold HasBegun
      rcases hphase with hwaits | ⟨e, hrefused⟩
      · simp [hwaits]
      · simp [hrefused]

/-- An event of a run without pools makes them or leaves it without. -/
theorem Unpooled.step (h : r.Unpooled setup) {e : RunEvent} (hs : r.step setup e = some r') :
    r'.Unpooled setup ∨ r'.Pooled setup := by
  have hnone : ∀ number, r.handler? number = none := by
    intro number
    unfold Run.handler?
    rw [h.handlers, List.find?_nil]
  have hservice : ∀ answer : Except ReplayError CompletionService,
      (r.withCompletion answer).Unpooled setup := by
    intro answer
    cases answer <;> exact ⟨h.handlers, h.orphans, h.phase⟩
  cases e with
  | schedule now expired =>
    simp only [Run.step, scheduleStep] at hs
    have hphase := h.phase
    unfold HasBegun at hphase
    split at hs
    case h_1 =>
      obtain rfl := Option.some.inj hs
      exact h.begin
    case h_2 hwaits =>
      obtain ⟨reached, -, rfl⟩ := Option.map_eq_some_iff.mp hs
      split_ifs
      · exact pools_launch h.handlers h.orphans
      · exact .inl ⟨h.handlers, h.orphans, .inl not_false⟩
    all_goals simp_all
  | execute number now => simp [Run.step, startCall, hnone] at hs
  | answer number answer elapsed => simp [Run.step, finishCall, hnone] at hs
  | submit number => simp [Run.step, sendRecord, hnone] at hs
  | consume =>
    obtain ⟨consumed, -, rfl⟩ := Option.map_eq_some_iff.mp hs
    exact .inl ⟨h.handlers, h.orphans, h.phase⟩
  | expire now =>
    have hphase := h.phase
    unfold HasBegun at hphase
    simp only [Run.step, expireDrain] at hs
    split at hs <;> simp_all
  | peerClaims => exact .inl (Option.some.inj hs ▸ hservice _)
  | peerInitiated k time =>
    simp only [Run.step] at hs
    split_ifs at hs
    exact .inl (Option.some.inj hs ▸ hservice _)
  | peerCompleted k time =>
    simp only [Run.step] at hs
    split_ifs at hs
    exact .inl (Option.some.inj hs ▸ hservice _)
  | completionShutdown =>
    obtain rfl := Option.some.inj hs
    exact .inl ⟨h.handlers, h.orphans, h.phase⟩
  | report source message =>
    obtain rfl := Option.some.inj hs
    exact .inl ⟨h.handlers, h.orphans, h.phase⟩

end Balance

end Run

end WorkloadReplay
