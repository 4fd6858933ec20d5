import WorkloadReplay.Proofs.Run.Fates

/-!
# Runs that cannot begin

A run is refused if this peer finds no slot or cannot report its start, or if the other peers are
not ready in time. Until then there are no handlers and no records, and nothing but the refusal is
reported (`refusal_of_steps`): either nothing is, for a start before which no time is left, or the
error with which the run is refused.
-/

namespace WorkloadReplay

namespace Run

variable {P κ : Type} {setup : RunSetup κ} {r r' : Run P κ}

/-- The scheduler is past the beginning of the run. -/
def HasBegun (r : Run P κ) : Prop :=
  match r.phase with
  | .idle => False
  | .awaitingPeers => False
  | .refused _ => False
  | _ => True

/-- Nothing has been dispatched, and the metrics pipeline has nothing to do. -/
structure Untouched (r : Run P κ) : Prop where
  handlers : r.handlers = []
  queue : r.metrics.queue = []
  receiving : r.metrics.phase = .receiving

/-- A run that has not begun has reported nothing, but for the error with which it is refused. -/
structure Hesitates (r : Run P κ) : Prop where
  untouched : r.Untouched
  waiting : r.phase = .idle ∨ r.phase = .awaitingPeers → r.log.entries = []
  refused : ∀ e, r.phase = .refused e → r.log.entries = [] ∨ r.log.entries = [e.asReported]

/-! ## What the scheduler does -/

/-- The beginning of the run proper. -/
theorem hasBegun_launch (r : Run P κ) : (r.launch setup).HasBegun := by
  unfold launch
  split <;> trivial

/-- A run is refused with an error that is reported before. -/
theorem hesitates_refuse (h : r.Untouched) (hlog : r.log.entries = []) (e : ReplayError) :
    ((r.fail e).goTo (.refused e)).Hesitates where
  untouched := ⟨h.handlers, h.queue, h.receiving⟩
  waiting hwaiting := by simp [goTo] at hwaiting
  refused e' he' := by
    obtain rfl := SchedulerPhase.refused.inj he'
    right
    calc ((r.fail e).goTo (.refused e)).log.entries = r.log.entries ++ [e.asReported] := rfl
      _ = [e.asReported] := by rw [hlog, List.nil_append]

/-- A run moves on to a phase with nothing reported. -/
theorem hesitates_goTo (h : r.Untouched) (hlog : r.log.entries = []) (phase : SchedulerPhase P) :
    (r.goTo phase).Hesitates where
  untouched := ⟨h.handlers, h.queue, h.receiving⟩
  waiting _ := hlog
  refused _ _ := .inl hlog

/-- The seeds of the tracker are reported, or the run is refused. -/
theorem hesitates_seed (h : r.Untouched) (hlog : r.log.entries = []) (start : Instant)
    (t : CompletionTracker) : (r.seed start t).Hesitates := by
  have hrefuse : ∀ completion e,
      ((fail { r with completion := completion } e).goTo (.refused e)).Hesitates := by
    intro completion e
    exact hesitates_refuse (r := { r with completion := completion })
      ⟨h.handlers, h.queue, h.receiving⟩ hlog e
  unfold seed
  split
  · exact hesitates_goTo h hlog _
  · split
    · exact hrefuse _ _
    · dsimp only
      split
      · exact ⟨⟨h.handlers, h.queue, h.receiving⟩, fun _ => hlog, fun _ _ => .inl hlog⟩
      · split
        · exact hrefuse _ _
        · exact ⟨⟨h.handlers, h.queue, h.receiving⟩, fun _ => hlog, fun _ _ => .inl hlog⟩

/-- The first step of a run begins it, or waits for the other peers, or the run is refused. -/
theorem begin_hesitates (h : r.Untouched) (hlog : r.log.entries = []) :
    (r.begin setup).HasBegun ∨ (r.begin setup).Hesitates := by
  unfold begin
  split
  · exact .inl (hasBegun_launch r)
  · split
    · exact .inr (hesitates_refuse h hlog _)
    · rename_i slot completion hclaim
      exact .inr (hesitates_seed (r := { r with completion := completion })
        ⟨h.handlers, h.queue, h.receiving⟩ hlog _ _)

/-- After the wait for the other peers the run begins, or it is refused. -/
theorem awaitPeers_hesitates (h : r.Untouched) (hlog : r.log.entries = []) {expired : Bool}
    (hr : r.awaitPeers setup expired = some r') : r'.HasBegun ∨ r'.Hesitates := by
  obtain ⟨reached, -, rfl⟩ := Option.map_eq_some_iff.mp hr
  dsimp only
  split
  · exact .inl (hasBegun_launch r)
  · exact .inr (hesitates_refuse h hlog _)

/-- A step of a scheduler that is not past the beginning. -/
theorem Hesitates.scheduleStep (h : r.Hesitates) (hnot : ¬ r.HasBegun) {now : Instant}
    {expired : Bool} (hr : r.scheduleStep setup now expired = some r') :
    r'.HasBegun ∨ r'.Hesitates := by
  unfold Run.scheduleStep at hr
  unfold HasBegun at hnot
  split at hr
  case h_1 hphase =>
    obtain rfl := Option.some.inj hr
    exact begin_hesitates h.untouched (h.waiting (.inl hphase))
  case h_2 hphase => exact awaitPeers_hesitates h.untouched (h.waiting (.inr hphase)) hr
  all_goals simp_all

/-! ## All events -/

/-- Where there are no handlers, nothing happens to them. -/
theorem Untouched.handler? (h : r.Untouched) (number : Nat) : r.handler? number = none := by
  unfold Run.handler?
  rw [h.handlers, List.find?_nil]

/-- The metrics pipeline has nothing to consume. -/
theorem Untouched.consume (h : r.Untouched) (sink : Sink κ) : r.metrics.consume sink = none := by
  unfold MetricsPipeline.consume
  rw [h.receiving, h.queue]

/-- Other peers have nothing to do with it. -/
theorem Hesitates.withCompletion (h : r.Hesitates) (answer : Except ReplayError CompletionService) :
    (r.withCompletion answer).Hesitates := by
  obtain ⟨⟨hhandlers, hqueue, hreceiving⟩, hwaiting, hrefused⟩ := h
  cases answer <;> exact ⟨⟨hhandlers, hqueue, hreceiving⟩, hwaiting, hrefused⟩

/-- An event of a run that has not begun: it begins, or nothing but its refusal is reported. -/
theorem Hesitates.step (h : r.Hesitates) (hnot : ¬ r.HasBegun) {e : RunEvent}
    (hquiet : ∀ source message, e ≠ .report source message) (hr : r.step setup e = some r') :
    r'.HasBegun ∨ r'.Hesitates := by
  cases e with
  | schedule now expired => exact h.scheduleStep hnot hr
  | execute number now => simp [Run.step, startCall, h.untouched.handler?] at hr
  | answer number answer elapsed => simp [Run.step, finishCall, h.untouched.handler?] at hr
  | submit number => simp [Run.step, sendRecord, h.untouched.handler?] at hr
  | consume => simp [Run.step, consumeStep, h.untouched.consume] at hr
  | expire now =>
    -- The time for draining is over only for a run that drains.
    have hdraining : r.phase ≠ .draining := fun hphase => hnot (by simp [HasBegun, hphase])
    simp [Run.step, expireDrain] at hr
  | peerClaims => exact Option.some.inj hr ▸ .inr (h.withCompletion _)
  | peerInitiated slot time =>
    simp only [Run.step] at hr
    split_ifs at hr
    exact Option.some.inj hr ▸ .inr (h.withCompletion _)
  | peerCompleted slot time =>
    simp only [Run.step] at hr
    split_ifs at hr
    exact Option.some.inj hr ▸ .inr (h.withCompletion _)
  | completionShutdown =>
    obtain rfl := Option.some.inj hr
    exact .inr ⟨⟨h.untouched.handlers, h.untouched.queue, h.untouched.receiving⟩, h.waiting,
      h.refused⟩
  | report source message => exact absurd rfl (hquiet source message)

/-- A run that has begun has begun for good. -/
theorem hasBegun_of_step (hbegun : r.HasBegun) {e : RunEvent} (hr : r.step setup e = some r') :
    r'.HasBegun := by
  have hgoes := goesTo_of_step hr
  unfold HasBegun at hbegun ⊢
  generalize r.phase = phase at hbegun hgoes
  generalize r'.phase = phase' at hgoes ⊢
  rcases hgoes with rfl | hgoes
  · exact hbegun
  · cases hgoes with
    | opens hphase => rcases hphase with rfl | rfl <;> exact hbegun.elim
    | _ => trivial

/-- A run to which nobody else reports an error begins, or nothing but its refusal is reported. -/
theorem hesitates_of_steps (h : r.HasBegun ∨ r.Hesitates) {events : List RunEvent}
    (hquiet : ∀ source message, .report source message ∉ events)
    (hr : r.steps setup events = some r') : r'.HasBegun ∨ r'.Hesitates := by
  induction events generalizing r with
  | nil =>
    obtain rfl := Option.some.inj hr
    exact h
  | cons e rest ih =>
    obtain ⟨r₁, hstep, hrest⟩ := Option.bind_eq_some_iff.mp hr
    refine ih ?_ (fun source message hmem => hquiet source message (List.mem_cons_of_mem _ hmem))
      hrest
    by_cases hbegun : r.HasBegun
    · exact .inl (hasBegun_of_step hbegun hstep)
    · refine (h.resolve_left hbegun).step hbegun (fun source message he => ?_) hstep
      exact hquiet source message (he ▸ List.mem_cons_self)

/-- All that is reported in a run that is refused is the error with which it is refused, unless
nothing is reported at all. -/
theorem refusal_of_steps {operations : Schedule P} {completion : CompletionService}
    {config : MetricsConfig} {sink : κ} {active : Bool} {metrics : MetricsPipeline κ}
    (hmetrics : MetricsPipeline.fresh config sink active = .ok metrics) {events : List RunEvent}
    (hquiet : ∀ source message, .report source message ∉ events)
    (hr : (Run.fresh operations completion metrics .empty).steps setup events = some r)
    {e : ReplayError} (hrefused : r.phase = .refused e) :
    r.log.entries = [] ∨ r.log.entries = [e.asReported] := by
  have hfresh : (Run.fresh operations completion metrics .empty).Hesitates := by
    simp only [MetricsPipeline.fresh] at hmetrics
    split at hmetrics
    · simp at hmetrics
    · obtain rfl := Except.ok.inj hmetrics
      exact ⟨⟨rfl, rfl, rfl⟩, fun _ => rfl, fun _ _ => .inl rfl⟩
  obtain hbegun | hhesitates := hesitates_of_steps (.inr hfresh) hquiet hr
  · simp [HasBegun, hrefused] at hbegun
  · exact hhesitates.refused e hrefused

end Run

end WorkloadReplay
