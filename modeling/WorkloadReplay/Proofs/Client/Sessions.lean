import WorkloadReplay.Client.Modes

/-!
# The steps of a session

How steps of a session are put together, for proofs about them: `bind_run` is a step after another
one, and `bind_eq_ok` takes a session that has come to its end apart into its steps.

Nearly all steps are `Orderly`: they add to the error log and take nothing back, and if they fail,
their error does not carry the results of a replay. There is one lemma for each step of an
execution, up to its run and from there to its end.
-/

namespace WorkloadReplay

namespace Client

variable {δ ω P α β : Type}

/-! ## Steps in a row -/

/-- A step after another one. -/
theorem bind_run (x : ClientM δ ω P α) (f : α → ClientM δ ω P β) (s : ClientState δ ω P) :
    (x >>= f) s = match x s with
      | (.ok a, t) => f a t
      | (.error stop, t) => (.error stop, t) := by
  change (StateT.bind x (ExceptT.bindCont f)) s = _
  unfold StateT.bind
  change (ExceptT.bindCont f (x s).1) (x s).2 = _
  rcases x s with ⟨answer | answer, t⟩ <;> rfl

/-- After a look at the state. -/
theorem bind_get (f : ClientState δ ω P → ClientM δ ω P β) (s : ClientState δ ω P) :
    (get >>= f) s = f s s := rfl

/-- After a change of the state. -/
theorem bind_modify (g : ClientState δ ω P → ClientState δ ω P) (f : PUnit → ClientM δ ω P β)
    (s : ClientState δ ω P) : (modify g >>= f) s = f ⟨⟩ (g s) := rfl

/-- After the state is replaced. -/
theorem bind_set (s' : ClientState δ ω P) (f : PUnit → ClientM δ ω P β) (s : ClientState δ ω P) :
    (set s' >>= f) s = f ⟨⟩ s' := rfl

/-- Two steps that have come to their end: so has the first one, and then the second. -/
theorem bind_eq_ok {x : ClientM δ ω P α} {f : α → ClientM δ ω P β} {s u : ClientState δ ω P}
    {b : β} (h : (x >>= f) s = (.ok b, u)) :
    ∃ a t, x s = (.ok a, t) ∧ f a t = (.ok b, u) := by
  rw [bind_run] at h
  split at h
  · rename_i a t hx
    exact ⟨a, t, hx, h⟩
  · rename_i stop t hx
    have hstop : (.error stop : Except ClientStop β) = .ok b := congrArg Prod.fst h
    simp at hstop

/-- An answer that does not stop the session is the answer. -/
theorem orStop_eq_ok {answer : Except ClientError α} {a : α} {s t : ClientState δ ω P}
    (h : orStop answer s = (.ok a, t)) : answer = .ok a ∧ t = s := by
  cases answer with
  | ok b =>
    obtain ⟨hb, rfl⟩ := Prod.mk.inj h
    exact ⟨congrArg _ (Except.ok.inj hb), rfl⟩
  | error e =>
    have hanswer : (Except.error (.failed e) : Except ClientStop α) = .ok a := congrArg Prod.fst h
    simp at hanswer

/-- An answer of a replay that does not stop the session is the answer. -/
theorem orStopReplay_eq_ok {answer : Except ReplayError α} {a : α} {s t : ClientState δ ω P}
    (h : orStopReplay answer s = (.ok a, t)) : answer = .ok a ∧ t = s := by
  cases answer with
  | ok b =>
    obtain ⟨hb, rfl⟩ := Prod.mk.inj h
    exact ⟨congrArg _ (Except.ok.inj hb), rfl⟩
  | error e =>
    have hstops : ∃ stop, (Except.error stop : Except ClientStop α) = .ok a := by
      cases e <;> exact ⟨_, congrArg Prod.fst h⟩
    obtain ⟨stop, hstop⟩ := hstops
    simp at hstop

/-- An error of a kind comes from an error. -/
theorem eq_error_of_mapError {ε ε' : Type} {kind : ε → ε'} {answer : Except ε α} {e : ε'}
    (h : answer.mapError kind = .error e) : ∃ x, answer = .error x ∧ e = kind x := by
  cases answer with
  | ok a =>
    have hok : (.ok a : Except ε' α) = .error e := h
    simp at hok
  | error x => exact ⟨x, rfl, (Except.error.inj h).symm⟩

/-! ## Orderly steps -/

/-- A step that only adds to the error log, and whose errors carry no results. -/
structure Orderly (x : ClientM δ ω P α) : Prop where
  log : ∀ s, s.log.entries <+: (x s).2.log.entries
  errors : ∀ s e, (x s).1 = .error (.failed e) → e.partialReport? = none

/-- A step that leaves the error log alone and does not fail. -/
theorem orderly_of_ok {x : ClientM δ ω P α}
    (h : ∀ s, ∃ a t, x s = (.ok a, t) ∧ s.log.entries <+: t.log.entries) : Orderly x where
  log s := by
    obtain ⟨a, t, hx, hlog⟩ := h s
    rw [hx]
    exact hlog
  errors s e he := by
    obtain ⟨a, t, hx, -⟩ := h s
    rw [hx] at he
    simp at he

/-- Nothing to do. -/
theorem orderly_pure (a : α) : Orderly (pure a : ClientM δ ω P α) :=
  orderly_of_ok fun s => ⟨a, s, rfl, List.prefix_refl _⟩

/-- Orderly steps in a row are orderly. -/
theorem Orderly.bind {x : ClientM δ ω P α} {f : α → ClientM δ ω P β} (hx : Orderly x)
    (hf : ∀ a, Orderly (f a)) : Orderly (x >>= f) where
  log s := by
    have hlog := hx.log s
    rw [bind_run]
    split
    · rename_i a t heq
      rw [heq] at hlog
      exact hlog.trans ((hf a).log t)
    · rename_i stop t heq
      rw [heq] at hlog
      exact hlog
  errors s e he := by
    rw [bind_run] at he
    split at he
    · rename_i a t heq
      exact (hf a).errors t e he
    · rename_i stop t heq
      refine hx.errors s e ?_
      rw [heq]
      exact congrArg _ (Except.error.inj he)

/-- The state is looked at. -/
theorem orderly_get : Orderly (get : ClientM δ ω P (ClientState δ ω P)) :=
  orderly_of_ok fun s => ⟨s, s, rfl, List.prefix_refl _⟩

/-- The state changes, but for its error log. -/
theorem orderly_modify {f : ClientState δ ω P → ClientState δ ω P}
    (h : ∀ s, (f s).log = s.log) : Orderly (modify f : ClientM δ ω P PUnit) :=
  orderly_of_ok fun s => ⟨(), f s, rfl, h s ▸ List.prefix_refl _⟩

/-- An event is put into the trace. -/
theorem orderly_note (e : ClientEvent) : Orderly (note e : ClientM δ ω P Unit) :=
  orderly_modify fun _ => rfl

/-- The session stops with an error that carries no results. -/
theorem orderly_stopWith {e : ClientError} (h : e.partialReport? = none) :
    Orderly (stopWith e : ClientM δ ω P α) where
  log _ := List.prefix_refl _
  errors s e' he := by
    have hstop : (.error (.failed e) : Except ClientStop α) = .error (.failed e') := he
    obtain rfl := ClientStop.failed.inj (Except.error.inj hstop)
    exact h

/-- The session stops because something has broken down. -/
theorem orderly_breakDown (b : Breakdown) : Orderly (breakDown b : ClientM δ ω P α) where
  log _ := List.prefix_refl _
  errors s e he := by
    have hstop : (.error (.broken b) : Except ClientStop α) = .error (.failed e) := he
    simp at hstop

/-- The session stops if an answer is an error. -/
theorem orderly_orStop {answer : Except ClientError α}
    (h : ∀ e, answer = .error e → e.partialReport? = none) :
    Orderly (orStop answer : ClientM δ ω P α) := by
  cases answer with
  | ok a => exact orderly_pure a
  | error e => exact orderly_stopWith (h e rfl)

/-- The session stops if the answer of a replay is an error. -/
theorem orderly_orStopReplay (answer : Except ReplayError α) :
    Orderly (orStopReplay answer : ClientM δ ω P α) := by
  unfold orStopReplay
  split
  · exact orderly_pure _
  · exact orderly_breakDown _
  · exact orderly_stopWith rfl

/-- The session stops if a file cannot be written. -/
theorem orderly_writeFile (path text : String) {refusal : ClientError}
    (h : refusal.partialReport? = none) :
    Orderly (writeFile path text refusal : ClientM δ ω P Unit) := by
  refine orderly_get.bind fun st => ?_
  split
  · exact orderly_modify fun _ => rfl
  · exact orderly_stopWith h

/-- The session stops if a disk answers with an error. -/
theorem orderly_orStop_disk {kind : String → ClientError}
    (h : ∀ text, (kind text).partialReport? = none) (answer : Except String Unit) :
    Orderly (orStop (answer.mapError kind) : ClientM δ ω P Unit) := by
  refine orderly_orStop fun e he => ?_
  obtain ⟨text, -, rfl⟩ := eq_error_of_mapError he
  exact h text

/-- The session stops if a file cannot be saved. -/
theorem orderly_saveFile (path text : String) {refusal : String → ClientError}
    (h : ∀ text, (refusal text).partialReport? = none) :
    Orderly (saveFile path text refusal : ClientM δ ω P Unit) := by
  refine orderly_get.bind fun st => (orderly_writeFile _ _ rfl).bind fun _ => ?_
  refine (orderly_orStop_disk h _).bind fun _ => ?_
  exact orderly_get.bind fun st => orderly_orStop_disk (fun _ => rfl) _

/-! ## Failures and reports that are noted -/

/-- The events of an answer: its failure, if it is an error. -/
def failure : Except ClientError α → List ClientEvent
  | .ok _ => []
  | .error e => [.failed e]

/-- A failure that does not stop the session is all that is added to the trace. -/
theorem noteFailure_run (answer : Except ClientError Unit) (s : ClientState δ ω P) :
    noteFailure answer s = (.ok answer, { s with trace := s.trace ++ failure answer }) := by
  cases answer with
  | ok u =>
    rw [failure, List.append_nil]
    rfl
  | error e => rfl

/-- Events are put into the trace one after another. -/
theorem noteAll_run {γ : Type} (f : γ → ClientEvent) (l : List γ) (s : ClientState δ ω P) :
    (forIn l PUnit.unit fun a _ => do
      note (f a)
      pure (ForInStep.yield PUnit.unit) : ClientM δ ω P PUnit) s =
        (.ok PUnit.unit, { s with trace := s.trace ++ l.map f }) := by
  induction l generalizing s with
  | nil =>
    rw [List.map_nil, List.append_nil]
    rfl
  | cons a rest ih =>
    have hrest := ih { s with trace := s.trace ++ [f a] }
    rw [List.append_assoc] at hrest
    rw [List.forIn_cons, bind_run]
    exact hrest

end Client

end WorkloadReplay
