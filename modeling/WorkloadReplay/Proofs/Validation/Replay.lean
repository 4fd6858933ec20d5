import WorkloadReplay.Proofs.Stream.Lanes
import WorkloadReplay.Proofs.Validation.Params
import WorkloadReplay.Validation.Database

/-!
# Recording results and giving them again

A database is a state machine: the operations that it executes one after another, from one state,
have one list of results (`Database.Gives`). A recording that succeeds has executed just the
operations that are kept, up to its size, and has written each with its result
(`recordSchedule_eq_ok`). A validation that executes the same operations from the same state finds
the same results, and counts each of them as passed (`ofParams_of_gives`).
-/

namespace WorkloadReplay

variable {σ P : Type} {codec : PayloadCodec P} {db : Database σ P}

/-- A database that executes the operations of some parameters one after another gives the expected
results, and comes from one state to another. -/
inductive Database.Gives (db : Database σ P) : σ → List (ValidationParam P) → σ → Prop
  | nil (s : σ) : Gives db s [] s
  | cons {param : ValidationParam P} {params : List (ValidationParam P)} {s t u : σ}
    (h : db.execute param.operation s = (.returned (.ok param.expected), t))
    (hrest : Gives db t params u) : Gives db s (param :: params) u

/-- The operations of a sequence that are kept, in order. -/
def Schedule.kept (keeps : Operation P → Bool) (s : Schedule P) : List (Operation P) :=
  (s.operations.map (·.operation)).filter keeps

theorem Schedule.kept_cons_of_keeps {keeps : Operation P → Bool} {s : ScheduledOperation P}
    (h : keeps s.operation = true) (rest : Unit → Schedule P) :
    Schedule.kept keeps (.cons (.ok s) rest) = s.operation :: Schedule.kept keeps (rest ()) := by
  simp [kept, operations, h]

theorem Schedule.kept_cons_of_skips {keeps : Operation P → Bool} {s : ScheduledOperation P}
    (h : keeps s.operation = false) (rest : Unit → Schedule P) :
    Schedule.kept keeps (.cons (.ok s) rest) = Schedule.kept keeps (rest ()) := by
  simp [kept, operations, h]

/-- A call with a result has returned it. -/
theorem CallOutcome.eq_returned {outcome : CallOutcome} {result : Json}
    (h : outcome.answer = .ok (.ok result)) : outcome = .returned (.ok result) := by
  cases outcome with
  | returned answer => rw [Except.ok.inj h]
  | panicked text => simp [answer] at h
  | stuck => simp [answer] at h

namespace ParamsFile

variable {write : String → String → Except String Unit} {keeps : Operation P → Bool} {size : Nat}
  {r r' : Recording σ}

/-- A file of its full size takes no more records, whatever comes next. -/
theorem eq_of_recordSchedule_full {schedule : Schedule P} (hfull : size ≤ r.file.written)
    (h : recordSchedule codec db write keeps size r schedule = (.ok (.ok ()), r')) : r' = r := by
  cases schedule with
  | nil => exact (Prod.mk.inj h).2.symm
  | cons item rest =>
    rcases item with e | s
    · cases e with
      | panicked text => simp [recordSchedule] at h
      | _ =>
        rw [recordSchedule, if_pos hfull] at h
        · exact (Prod.mk.inj h).2.symm
        · simp
    · rw [recordSchedule, if_pos hfull] at h
      exact (Prod.mk.inj h).2.symm

/-- An operation that is not kept is passed over; one that is kept is executed and written with its
result. Then the recording goes on. -/
theorem recordSchedule_cons_eq_ok {s : ScheduledOperation P} {rest : Unit → Schedule P}
    (hroom : ¬ size ≤ r.file.written)
    (h : recordSchedule codec db write keeps size r (.cons (.ok s) rest) = (.ok (.ok ()), r')) :
    (keeps s.operation = false ∧
      recordSchedule codec db write keeps size r (rest ()) = (.ok (.ok ()), r')) ∨
    (keeps s.operation = true ∧ ∃ result database file,
      db.execute s.operation r.database = (.returned (.ok result), database) ∧
      r.file.write codec ⟨s.operation, result⟩ = .ok file ∧
      recordSchedule codec db write keeps size ⟨file, database⟩ (rest ()) =
        (.ok (.ok ()), r')) := by
  rw [recordSchedule, if_neg hroom] at h
  cases hkeeps : keeps s.operation with
  | false =>
    rw [hkeeps] at h
    exact .inl ⟨rfl, h⟩
  | true =>
    rw [hkeeps, if_pos rfl] at h
    refine .inr ⟨rfl, ?_⟩
    rcases hexecute : db.execute s.operation r.database with ⟨outcome, database⟩
    rw [hexecute] at h
    dsimp only at h
    split at h
    · simp at h
    · simp at h
    · rename_i result hanswer
      split at h
      · simp at h
      · rename_i file hwrite
        split at h
        · simp at h
        · exact ⟨result, database, file, by rw [CallOutcome.eq_returned hanswer], hwrite, h⟩

/-- A recording that succeeds has executed the operations that are kept, one after another, and has
written each with its result, until the file has its size or there are no more of them. -/
theorem recordSchedule_eq_ok {schedule : Schedule P}
    (h : recordSchedule codec db write keeps size r schedule = (.ok (.ok ()), r')) :
    ∃ params, db.Gives r.database params r'.database ∧
      params.map (·.operation) = (schedule.kept keeps).take (size - r.file.written) ∧
      params.foldlM (fun file param => file.write codec param) r.file = .ok r'.file := by
  induction schedule generalizing r with
  | nil =>
    obtain ⟨-, rfl⟩ := Prod.mk.inj h
    exact ⟨[], .nil _, by simp [Schedule.kept, Schedule.operations], rfl⟩
  | cons item rest ih =>
    by_cases hfull : size ≤ r.file.written
    · have hnone : size - r.file.written = 0 := by omega
      rw [eq_of_recordSchedule_full hfull h, hnone]
      exact ⟨[], .nil _, rfl, rfl⟩
    · rcases item with e | s
      · cases e <;> simp [recordSchedule, hfull] at h
      · obtain ⟨hskips, hrest⟩ | ⟨hkeeps, result, database, file, hexecute, hwrite, hrest⟩ :=
          recordSchedule_cons_eq_ok hfull h
        · rw [Schedule.kept_cons_of_skips hskips]
          exact ih () hrest
        · obtain ⟨params, hgives, hoperations, hfile⟩ := ih () hrest
          obtain ⟨fields, -, rfl⟩ := write_eq_ok hwrite
          refine ⟨⟨s.operation, result⟩ :: params, .cons hexecute hgives, ?_, ?_⟩
          · have hmore : size - r.file.written = size - (r.file.written + 1) + 1 := by omega
            rw [Schedule.kept_cons_of_keeps hkeeps, hmore, List.take_succ_cons, List.map_cons,
              hoperations]
          · rw [List.foldlM_cons, hwrite]
            exact hfile

end ParamsFile

namespace DatabaseValidation

/-- A validation of a database that gives the expected results finds that all of them have passed,
also where they have been written and read back. -/
theorem ofParams_of_gives {s t : σ} {params params' : List (ValidationParam P)}
    (h : db.Gives s params t) (hsame : List.Forall₂ ValidationParam.Same params params')
    (v : DatabaseValidation) :
    ofParams db v params' s = (.ok { v with passed := v.passed + params.length }, t) := by
  induction h generalizing v params' with
  | nil s =>
    cases hsame
    rfl
  | @cons param params s t u hexecute hrest ih =>
    cases hsame with
    | @cons _ param' _ params' hparam hparams =>
      have hadd : v.add param' (.ok param.expected) = { v with passed := v.passed + 1 } :=
        if_pos hparam.expected
      rw [ofParams, hparam.operation, hexecute]
      dsimp only [CallOutcome.answer]
      rw [hadd, ih hparams, List.length_cons]
      dsimp only
      rw [Nat.add_assoc, Nat.add_comm 1]

end DatabaseValidation

end WorkloadReplay
