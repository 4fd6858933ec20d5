import WorkloadReplay.Run.Simulation

/-!
# Simulated runs are runs

A simulation only picks events: whatever it does to its run, some events do, one after another
(`Simulation.Leads`). What happens outside the run is only what is due, so that a simulation for
which nothing is due goes through events of the scheduler, the handlers and the metrics pipeline
alone (`simulate_steps`). What holds of all events holds of all simulations.
-/

namespace WorkloadReplay

variable {σ P κ : Type}

/-- Something that happens outside a run: another peer or another component does it. -/
def RunEvent.IsOutside : RunEvent → Prop
  | .peerClaims => True
  | .peerInitiated .. => True
  | .peerCompleted .. => True
  | .completionShutdown => True
  | .report .. => True
  | _ => False

/-- Events after other events. -/
theorem Run.steps_append (setup : RunSetup κ) (r : Run P κ) (events more : List RunEvent) :
    r.steps setup (events ++ more) =
      (r.steps setup events).bind fun r' => r'.steps setup more := by
  induction events generalizing r with
  | nil => rfl
  | cons e rest ih =>
    rw [List.cons_append, steps, steps, Option.bind_assoc]
    exact congrArg _ (funext ih)

namespace Simulation

variable {c : Scene σ P κ} {s t u : Simulation σ P κ}

/-- A simulation goes on to another one through events of its run; of what is outside the run, only
what is due happens. -/
structure Leads (c : Scene σ P κ) (s t : Simulation σ P κ) : Prop where
  steps : ∃ events, s.run.steps c.setup events = some t.run ∧
    ∀ e ∈ events, e.IsOutside → e ∈ s.due.map (·.2)
  due : t.due ⊆ s.due

/-- Nothing happens in the run. -/
theorem Leads.of_run (hrun : t.run = s.run) (hdue : t.due ⊆ s.due) : Leads c s t :=
  ⟨⟨[], congrArg some hrun.symm, by simp⟩, hdue⟩

/-- Nothing happens at all. -/
theorem Leads.refl (s : Simulation σ P κ) : Leads c s s := .of_run rfl (List.Subset.refl _)

/-- One way after another. -/
theorem Leads.trans (h : Leads c s t) (h' : Leads c t u) : Leads c s u := by
  obtain ⟨⟨events, hsteps, houtside⟩, hdue⟩ := h
  obtain ⟨⟨events', hsteps', houtside'⟩, hdue'⟩ := h'
  refine ⟨⟨events ++ events', ?_, fun e he hout => ?_⟩, fun x hx => hdue (hdue' hx)⟩
  · rw [Run.steps_append, hsteps]
    exact hsteps'
  · rcases List.mem_append.mp he with he | he
    · exact houtside e he hout
    · exact List.map_subset _ hdue (houtside' e he hout)

/-- One event happens, of the run or due. -/
theorem leads_after? {e : RunEvent} (h : s.after? c e = some t)
    (he : e.IsOutside → e ∈ s.due.map (·.2)) : Leads c s t := by
  obtain ⟨r, hr, rfl⟩ := Option.map_eq_some_iff.mp h
  refine ⟨⟨[e], ?_, fun e' he' => ?_⟩, List.Subset.refl _⟩
  · rw [Run.steps, hr]
    rfl
  · exact List.mem_singleton.mp he' ▸ he

/-- The scheduler goes on. -/
theorem leads_scheduler? (h : s.scheduler? c = some t) : Leads c s t := by
  obtain ⟨u, hu, rfl⟩ := Option.map_eq_some_iff.mp h
  have hleads := leads_after? hu (by simp [RunEvent.IsOutside])
  split
  · exact hleads
  · exact hleads.trans (.of_run rfl (List.Subset.refl _))

/-- The consumer of the metrics pipeline goes on. -/
theorem leads_consumeAll (fuel : Nat) (s : Simulation σ P κ) : Leads c s (consumeAll c fuel s) := by
  induction fuel generalizing s with
  | zero => exact .refl s
  | succ fuel ih =>
    unfold consumeAll
    split
    · exact .refl s
    · rename_i t ht
      exact (leads_after? ht (by simp [RunEvent.IsOutside])).trans (ih t)

/-- A call of the database leaves the run to its events. -/
theorem leads_callDatabase (x : Handler P) (s : Simulation σ P κ) :
    Leads c s (callDatabase c x s) := by
  unfold callDatabase
  dsimp only
  split <;> exact .of_run rfl (List.Subset.refl _)

/-- A handler goes on. -/
theorem leads_handler? {x : Handler P} (h : s.handler? c x = some t) : Leads c s t := by
  unfold handler? at h
  split at h
  · obtain ⟨u, hu, rfl⟩ := Option.map_eq_some_iff.mp h
    exact (leads_after? hu (by simp [RunEvent.IsOutside])).trans (leads_callDatabase x u)
  · split at h
    · simp at h
    · obtain ⟨u, hu, rfl⟩ := Option.map_eq_some_iff.mp h
      exact (leads_after? hu (by simp [RunEvent.IsOutside])).trans
        (.of_run rfl (List.Subset.refl _))
  · obtain ⟨u, hu, rfl⟩ := Option.map_eq_some_iff.mp h
    exact (leads_after? hu (by simp [RunEvent.IsOutside])).trans (leads_consumeAll _ u)

/-- The first handler that can goes on. -/
theorem leads_anyHandler? (h : s.anyHandler? c = some t) : Leads c s t := by
  obtain ⟨x, -, hx⟩ := List.exists_of_findSome?_eq_some h
  exact leads_handler? hx

/-- All handlers go on. -/
theorem leads_settleHandlers (fuel : Nat) (s : Simulation σ P κ) :
    Leads c s (settleHandlers c fuel s) := by
  induction fuel generalizing s with
  | zero => exact .refl s
  | succ fuel ih =>
    unfold settleHandlers
    split
    · exact .refl s
    · rename_i t ht
      exact (leads_anyHandler? ht).trans (ih t)

/-- The time for draining may be over. -/
theorem leads_lapse (s : Simulation σ P κ) : Leads c s (s.lapse c) := by
  unfold lapse
  split
  · split
    · cases hexpire : s.after? c (.expire (s.now c)) with
      | none => exact .refl s
      | some t => exact leads_after? hexpire (by simp [RunEvent.IsOutside])
    · exact .refl s
  · exact .refl s

/-- A moment comes, and with it what is due. -/
theorem leads_arrive (time : Nat) (s : Simulation σ P κ) : Leads c s (s.arrive c time) := by
  have hwaits : Leads c s { s with elapsed := max s.elapsed time } :=
    .of_run rfl (List.Subset.refl _)
  unfold arrive
  dsimp only
  split
  · rename_i moment e rest hdue
    have hrest : rest ⊆ s.due := hdue ▸ List.subset_cons_self _ _
    split
    · cases hafter : after? c { s with elapsed := max s.elapsed time, due := rest } e with
      | none => exact .of_run rfl hrest
      | some t =>
        obtain ⟨r, hr, rfl⟩ := Option.map_eq_some_iff.mp hafter
        refine ⟨⟨[e], ?_, fun e' he' _ => ?_⟩, hrest⟩
        · rw [Run.steps, hr]
          rfl
        · rw [List.mem_singleton.mp he', hdue]
          exact List.mem_map_of_mem List.mem_cons_self
    · exact hwaits.trans (leads_lapse _)
  · exact hwaits.trans (leads_lapse _)

/-- The next thing that happens. -/
theorem leads_turn (h : s.turn c = some t) : Leads c s t := by
  unfold turn at h
  split at h
  · rename_i u hu
    exact Option.some.inj h ▸ leads_scheduler? hu
  · split at h
    · obtain ⟨time, -, rfl⟩ := Option.map_eq_some_iff.mp h
      exact leads_arrive time s
    · rename_i u hu
      have hleads := leads_anyHandler? hu
      split at h
      · exact Option.some.inj h ▸ hleads
      · exact Option.some.inj h ▸ hleads.trans (leads_settleHandlers _ u)

/-- One thing after another. -/
theorem leads_play (fuel : Nat) (s : Simulation σ P κ) : Leads c s (s.play c fuel) := by
  induction fuel generalizing s with
  | zero => exact .refl s
  | succ fuel ih =>
    unfold play
    split
    · exact .refl s
    · split
      · exact .refl s
      · rename_i t ht
        exact (leads_turn ht).trans (ih t)

/-- A simulation for which nothing is due outside its run leads it through events of its own. -/
theorem simulate_steps (c : Scene σ P κ) (run : Run P κ) (database : σ) :
    ∃ events, run.steps c.setup events = some (simulate c run database []).run ∧
      ∀ e ∈ events, ¬ e.IsOutside := by
  obtain ⟨⟨events, hsteps, houtside⟩, -⟩ := leads_play (c := c) patience (fresh run database [])
  refine ⟨events, hsteps, fun e he hout => ?_⟩
  have hdue := houtside e he hout
  simp [fresh] at hdue

end Simulation

end WorkloadReplay
