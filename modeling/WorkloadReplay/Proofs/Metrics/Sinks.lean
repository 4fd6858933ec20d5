import WorkloadReplay.Proofs.Metrics.Callers

/-!
# What a sink is offered

The consumer of a pipeline hands every record to the sink, before the marker and after it, until a
write fails. `MetricsCalls.run_logs` says what that comes to at the end: either all records have
been written, in the order in which they arrived, and the sink has been flushed, or a write failed
and was the last call of the sink (`LogCourse`). The results are those of all records in any case.

What a sink is offered is not seen in the state of an arbitrary sink, so the calls are noted beside
it (`Sink.noting`). A run with the note, and a run with no sink, differ from a run with the sink in
the collector only, and what callers do does not depend on that (`MetricsCalls.step_onto`). The
invariant that a run keeps is `MetricsPipeline.Logs`, which sets the calls so far against the
records that have been taken up.
-/

namespace WorkloadReplay

/-! ## Another collector in the place of one -/

namespace MetricsPipeline

variable {κ κ' : Type}

/-- Whether a message is queued does not depend on the collector. -/
theorem offer_onto (p : MetricsPipeline κ) (c : Collector κ') (m : Message) :
    (p.onto c).offer m = match p.offer m with
      | .queued p' => .queued (p'.onto c)
      | .full => .full
      | .refused => .refused := by
  have hclosed : (p.onto c).isClosed = p.isClosed := rfl
  unfold offer
  rw [hclosed]
  by_cases hopen : p.isClosed = true
  · simp [hopen]
  · by_cases hroom : p.queue.length < p.capacity <;> simp [hopen, hroom, onto]

/-- Nor does the beginning of a shutdown. -/
theorem begin?_onto (p : MetricsPipeline κ) (c : Collector κ') :
    (p.onto c).begin? = p.begin?.map (·.onto c) := by
  by_cases hbegun : p.shutdownBegun = true <;> simp [begin?, onto, hbegun]

/-- Nor does its end. -/
theorem join?_onto (p : MetricsPipeline κ) (c : Collector κ') :
    (p.onto c).join? = p.join?.map fun (answer, p') => (answer, p'.onto c) := by
  obtain ⟨capacity, accepting, queue, phase, collector, begun, snapshot⟩ := p
  cases phase <;> rfl

end MetricsPipeline

namespace MetricsCalls

variable {κ κ' : Type}

/-- The calls of a pipeline with another collector, and with other reports. -/
def onto (c : MetricsCalls κ) (collector : Collector κ') (reports : List String) :
    MetricsCalls κ' :=
  ⟨c.pipeline.onto collector, c.submissions, c.shutdowns, reports⟩

/-- What callers do does not depend on the collector. -/
theorem step_onto {s : Sink κ} {c : MetricsCalls κ} {a : Action} (ha : a ≠ .consume) (s' : Sink κ')
    (collector : Collector κ') (reports : List String) :
    (c.onto collector reports).step s' a = (c.step s a).map (·.onto collector reports) := by
  cases a with
  | consume => exact absurd rfl ha
  | callSubmit r => rfl
  | callShutdown => rfl
  | ask i =>
    simp only [step, stepAsk, onto]
    split <;> rfl
  | send i =>
    simp only [step, stepSend, onto, MetricsPipeline.offer_onto]
    split
    · cases c.pipeline.offer _ <;> rfl
    · rfl
  | begin j =>
    simp only [step, stepBegin, onto, MetricsPipeline.begin?_onto]
    split
    · by_cases hlock : c.shutdowns.any ShutdownPhase.holdsLock = true
      · rw [if_pos hlock, if_pos hlock, Option.map_none]
      · rw [if_neg hlock, if_neg hlock]
        cases c.pipeline.begin? <;> rfl
    · rfl
  | stopAccepting j =>
    simp only [step, onto]
    split <;> rfl
  | mark j =>
    simp only [step, stepMark, onto, MetricsPipeline.offer_onto]
    split
    · cases c.pipeline.offer _ <;> rfl
    · rfl
  | join j =>
    simp only [step, onto, MetricsPipeline.join?_onto]
    split
    · cases c.pipeline.join? <;> rfl
    · rfl

/-- The record that an action puts into the queue. -/
def arrival? (c : MetricsCalls κ) : Action → Option MetricsRecord
  | .send i =>
    match c.submissions[i]? with
    | some ⟨r, .admitted⟩ =>
      match c.pipeline.offer (.record r) with
      | .queued _ => some r
      | _ => none
    | _ => none
  | _ => none

/-- What callers do leaves the consumer where it is. A record that arrives is the last one in the
queue, which is open then. -/
theorem queued_of_step {s : Sink κ} {c c' : MetricsCalls κ} {a : Action} (ha : a ≠ .consume)
    (h : c.step s a = some c') : c'.pipeline.phase = c.pipeline.phase ∧
      c'.pipeline.queued = c.pipeline.queued ++ (c.arrival? a).toList ∧
      (c.pipeline.isClosed = true → c.arrival? a = none) := by
  -- Most of what callers do does not touch the queue.
  have hsame {c₁ : MetricsCalls κ} (hc : c' = c₁)
      (hphase : c₁.pipeline.phase = c.pipeline.phase)
      (hqueue : c₁.pipeline.queue = c.pipeline.queue) (hnone : c.arrival? a = none) :
      c'.pipeline.phase = c.pipeline.phase ∧
        c'.pipeline.queued = c.pipeline.queued ++ (c.arrival? a).toList ∧
        (c.pipeline.isClosed = true → c.arrival? a = none) := by
    rw [hc, hnone, MetricsPipeline.queued, hqueue]
    exact ⟨hphase, (List.append_nil _).symm, fun _ => rfl⟩
  cases a with
  | consume => exact absurd rfl ha
  | callSubmit r => exact hsame (Option.some.inj h).symm rfl rfl rfl
  | callShutdown => exact hsame (Option.some.inj h).symm rfl rfl rfl
  | ask i =>
    simp only [step, stepAsk] at h
    split at h
    · exact hsame (Option.some.inj h).symm rfl rfl rfl
    · simp at h
  | send i =>
    simp only [step, stepSend] at h
    split at h
    · rename_i r hi
      split at h
      · rename_i p hoffer
        obtain rfl := Option.some.inj h
        obtain ⟨hopen, rfl⟩ := MetricsPipeline.offer_eq_queued hoffer
        have harrival : c.arrival? (.send i) = some r := by simp [arrival?, hi, hoffer]
        refine ⟨rfl, ?_, fun hclosed => by simp [hopen] at hclosed⟩
        rw [harrival]
        simp [MetricsPipeline.queued, setSubmission, Message.record?]
      · simp at h
      · rename_i hoffer
        exact hsame (Option.some.inj h).symm rfl rfl (by simp [arrival?, hi, hoffer])
    · simp at h
  | begin j =>
    simp only [step, stepBegin] at h
    split at h
    · split at h
      · simp at h
      · split at h
        · exact hsame (Option.some.inj h).symm rfl rfl rfl
        · rename_i p hbegin
          obtain rfl := MetricsPipeline.begin?_eq_some hbegin
          exact hsame (Option.some.inj h).symm rfl rfl rfl
    · simp at h
  | stopAccepting j =>
    simp only [step] at h
    split at h
    · exact hsame (Option.some.inj h).symm rfl rfl rfl
    · simp at h
  | mark j =>
    simp only [step, stepMark] at h
    split at h
    · split at h
      · rename_i p hoffer
        obtain rfl := Option.some.inj h
        obtain ⟨-, rfl⟩ := MetricsPipeline.offer_eq_queued hoffer
        refine ⟨rfl, ?_, fun _ => rfl⟩
        simp [MetricsPipeline.queued, setShutdown, arrival?, Message.record?]
      · simp at h
      · exact hsame (Option.some.inj h).symm rfl rfl rfl
    · simp at h
  | join j =>
    simp only [step] at h
    split at h
    · obtain ⟨⟨answer, p⟩, hjoin, rfl⟩ := Option.map_eq_some_iff.mp h
      rcases MetricsPipeline.join?_eq_some hjoin with ⟨results, -, -, rfl⟩ | ⟨-, rfl, -⟩
      · exact hsame rfl rfl rfl rfl
      · exact hsame rfl rfl rfl rfl
    · simp at h

/-- The records that some actions put into the queue, in order of their arrival. -/
def arrivals (s : Sink κ) : MetricsCalls κ → List Action → List MetricsRecord
  | _, [] => []
  | c, a :: rest =>
    match c.step s a with
    | some c' => (c.arrival? a).toList ++ arrivals s c' rest
    | none => []

end MetricsCalls

/-! ## What a sink is offered -/

/-- A call of a sink, with its answer. -/
inductive SinkCall where
  | write (r : MetricsRecord) (answer : SinkAnswer)
  | flush (answer : SinkAnswer)
  deriving DecidableEq

/-- The answer of a call. -/
def SinkCall.answer : SinkCall → SinkAnswer
  | write _ answer => answer
  | flush answer => answer

/-- The same sink, with a note of all its calls. -/
def Sink.noting {κ : Type} (s : Sink κ) : Sink (κ × List SinkCall) where
  write r k := ((s.write r k.1).1, (s.write r k.1).2, k.2 ++ [.write r (s.write r k.1).1])
  flush k := ((s.flush k.1).1, (s.flush k.1).2, k.2 ++ [.flush (s.flush k.1).1])

/-- The calls by which records have been written. -/
def writtenCalls (records : List MetricsRecord) : List SinkCall := records.map (.write · .done)

/-- What a sink has been offered of the records that were taken up: all of them, or all up to the
first one whose write failed, which has been reported and put the sink out of use. -/
inductive Offered : List MetricsRecord → List SinkCall → Bool → List String → Prop
  | inUse (taken : List MetricsRecord) : Offered taken (writtenCalls taken) true []
  | disabled (before : List MetricsRecord) (r : MetricsRecord) (after : List MetricsRecord)
      (text : String) : Offered (before ++ r :: after)
        (writtenCalls before ++ [.write r (.failed text)]) false ["results log disabled: " ++ text]

/-- How a log of all records may go: they are all written, and then flushed with or without success,
or a write fails, and that is all that the sink is offered. A failure is reported. -/
inductive LogCourse : List MetricsRecord → List SinkCall → List String → Prop
  | flushed (records : List MetricsRecord) :
      LogCourse records (writtenCalls records ++ [.flush .done]) []
  | unflushed (records : List MetricsRecord) (text : String) :
      LogCourse records (writtenCalls records ++ [.flush (.failed text)])
        ["flushing results log failed: " ++ text]
  | disabled (before : List MetricsRecord) (r : MetricsRecord) (after : List MetricsRecord)
      (text : String) : LogCourse (before ++ r :: after)
        (writtenCalls before ++ [.write r (.failed text)]) ["results log disabled: " ++ text]

/-- The last call has broken down with a text. -/
def BreaksDown (calls : List SinkCall) (text : String) : Prop :=
  ∃ before last, calls = before ++ [last] ∧ last.answer = .panicked text

namespace Collector

variable {κ : Type} {c : Collector κ} {taken : List MetricsRecord} {calls : List SinkCall}
  {reports : List String}

/-- The collector with a note of the calls of its sink. -/
def noted (c : Collector κ) (calls : List SinkCall) : Collector (κ × List SinkCall) :=
  ⟨c.results, (c.sink, calls), c.active⟩

/-- A record that is taken up is offered to the sink if that is in use. -/
theorem take_noted (s : Sink κ) (r : MetricsRecord) (h : Offered taken calls c.active reports) :
    (∃ c' report calls', c.take s r = .on c' report ∧ c'.results = c.results.add r ∧
      (c.noted calls).take s.noting r = .on (c'.noted calls') report ∧
      Offered (taken ++ [r]) calls' c'.active (reports ++ report.toList)) ∨
    ∃ text k calls', c.take s r = .broken text k ∧
      (c.noted calls).take s.noting r = .broken text (k, calls') ∧ BreaksDown calls' text := by
  obtain ⟨results, sink, active⟩ := c
  cases h with
  | inUse =>
    have hwritten : writtenCalls (taken ++ [r]) = writtenCalls taken ++ [.write r .done] := by
      simp [writtenCalls]
    rcases hwrite : s.write r sink with ⟨_ | text | text, k⟩
    · refine .inl ⟨⟨results.add r, k, true⟩, none, writtenCalls (taken ++ [r]), ?_, rfl, ?_,
        .inUse _⟩
      · simp [take, hwrite]
      · simp [take, noted, Sink.noting, hwrite, hwritten]
    · refine .inl ⟨⟨results.add r, k, false⟩, some ("results log disabled: " ++ text), _, ?_, rfl,
        ?_, .disabled taken r [] text⟩
      · simp [take, hwrite]
      · simp [take, noted, Sink.noting, hwrite]
    · refine .inr ⟨text, k, _, ?_, ?_, writtenCalls taken, .write r (.panicked text), rfl, rfl⟩
      · simp [take, hwrite]
      · simp [take, noted, Sink.noting, hwrite]
  | disabled before r' after text =>
    have hoffered := Offered.disabled before r' (after ++ [r]) text
    refine .inl ⟨⟨results.add r, sink, false⟩, none, _, rfl, rfl, rfl, ?_⟩
    rw [List.append_assoc, List.cons_append]
    exact hoffered

/-- At the end the sink is flushed if it is in use. -/
theorem finish_noted (s : Sink κ) (h : Offered taken calls c.active reports) :
    (∃ c' report calls', c.finish s = .on c' report ∧ c'.results = c.results ∧
      (c.noted calls).finish s.noting = .on (c'.noted calls') report ∧
      LogCourse taken calls' (reports ++ report.toList)) ∨
    ∃ text k calls', c.finish s = .broken text k ∧
      (c.noted calls).finish s.noting = .broken text (k, calls') ∧ BreaksDown calls' text := by
  obtain ⟨results, sink, active⟩ := c
  cases h with
  | inUse =>
    rcases hflush : s.flush sink with ⟨_ | text | text, k⟩
    · refine .inl ⟨⟨results, k, true⟩, none, _, ?_, rfl, ?_, .flushed taken⟩
      · simp [finish, hflush]
      · simp [finish, noted, Sink.noting, hflush]
    · refine .inl ⟨⟨results, k, true⟩, some ("flushing results log failed: " ++ text), _, ?_, rfl,
        ?_, .unflushed taken text⟩
      · simp [finish, hflush]
      · simp [finish, noted, Sink.noting, hflush]
    · refine .inr ⟨text, k, _, ?_, ?_, writtenCalls taken, .flush (.panicked text), rfl, rfl⟩
      · simp [finish, hflush]
      · simp [finish, noted, Sink.noting, hflush]
  | disabled before r after text =>
    exact .inl ⟨⟨results, sink, false⟩, none, _, rfl, rfl, rfl, .disabled before r after text⟩

end Collector

namespace MetricsPipeline

variable {κ : Type} {config : MetricsConfig} {p p' : MetricsPipeline κ}
  {sent : List MetricsRecord} {calls : List SinkCall} {reports : List String}

/-- The pipeline with a note of the calls of its sink. -/
def noted (p : MetricsPipeline κ) (calls : List SinkCall) : MetricsPipeline (κ × List SinkCall) :=
  p.onto (p.collector.noted calls)

/-- The pipeline without a sink, as far as the consumer knows. -/
def unlogged (p : MetricsPipeline κ) (k : κ) : MetricsPipeline κ :=
  p.onto ⟨p.collector.results, k, false⟩

/-- How a log goes along with a pipeline into whose queue some records have come. -/
inductive Logs (config : MetricsConfig) (p : MetricsPipeline κ) (sent : List MetricsRecord)
    (calls : List SinkCall) (reports : List String) : Prop
  | going (isOpen : p.IsOpen) (taken : List MetricsRecord)
      (collected : p.collector.results = .ofRecords config taken)
      (arrived : taken ++ p.queued = sent)
      (offered : Offered taken calls p.collector.active reports)
  | ended (phase : p.phase = .finished (Aggregate.ofRecords config sent).snapshot)
      (course : LogCourse sent calls reports)
  | broken (text : String) (phase : p.phase = .broken text) (breakdown : BreaksDown calls text)

/-- A pipeline that nothing has been sent through has offered nothing. -/
theorem logs_fresh {sink : κ} (h : fresh config sink true = .ok p) : p.Logs config [] [] [] ∧
    fresh config (sink, []) true = .ok (p.noted []) ∧
    fresh config sink false = .ok (p.unlogged sink) := by
  simp only [fresh] at h ⊢
  split at h
  · simp at h
  · rename_i hroom
    obtain rfl := Except.ok.inj h
    rw [if_neg hroom, if_neg hroom]
    exact ⟨.going (.inl rfl) [] rfl rfl (.inUse []), rfl, rfl⟩

/-- Before the end of the consumer, the sink has been offered what has been taken up. -/
theorem Logs.of_isOpen (h : p.Logs config sent calls reports) (hopen : p.IsOpen) :
    ∃ taken, p.collector.results = .ofRecords config taken ∧ taken ++ p.queued = sent ∧
      Offered taken calls p.collector.active reports := by
  cases h with
  | going _ taken hcollected harrived hoffered => exact ⟨taken, hcollected, harrived, hoffered⟩
  | ended hended _ => exact absurd hended (hopen.ne_finished _)
  | broken text hbroken _ => exact absurd hbroken (hopen.ne_broken text)

/-- At the end of the consumer, the log has come to its end, too. -/
theorem Logs.of_finished (h : p.Logs config sent calls reports) {results : ResultsSnapshot}
    (hphase : p.phase = .finished results) :
    LogCourse sent calls reports ∧ results = (Aggregate.ofRecords config sent).snapshot := by
  cases h with
  | going hopen => exact absurd hphase (hopen.ne_finished results)
  | ended hended hcourse =>
    exact ⟨hcourse, ConsumerPhase.finished.inj (hphase.symm.trans hended)⟩
  | broken text hbroken => simp [hbroken] at hphase

/-- Only the sink breaks the consumer down. -/
theorem Logs.of_broken (h : p.Logs config sent calls reports) {text : String}
    (hphase : p.phase = .broken text) : BreaksDown calls text := by
  cases h with
  | going hopen => exact absurd hphase (hopen.ne_broken text)
  | ended hended => simp [hended] at hphase
  | broken text' hbroken hlast =>
    exact ConsumerPhase.broken.inj (hphase.symm.trans hbroken) ▸ hlast

/-- A step of the consumer is noted, and the log goes on or comes to its end. -/
theorem Logs.consume (h : p.Logs config sent calls reports) {s : Sink κ} {report : Option String}
    (hconsume : p.consume s = some (p', report)) :
    ∃ calls', (p.noted calls).consume s.noting = some (p'.noted calls', report) ∧
      p'.Logs config sent calls' (reports ++ report.toList) := by
  obtain ⟨hopen, hcases⟩ := consume_onto (hconsume ▸ Option.some_ne_none _)
  obtain ⟨taken, hcollected, harrived, hoffered⟩ := h.of_isOpen hopen
  rcases hcases with ⟨r, rest, hqueue, honto⟩ | ⟨queue, phase, hphase, hqueue, honto⟩ |
    ⟨hqueue, honto⟩
  · -- A record is taken up, unless the sink breaks down.
    have hown := (honto s p.collector).symm.trans hconsume
    have hnoted := honto s.noting (p.collector.noted calls)
    rcases Collector.take_noted s r hoffered with
      ⟨c, said, calls', htake, hresults, hcalls, hoffered'⟩ |
      ⟨text, k, calls', htake, hcalls, hlast⟩
    · rw [htake] at hown
      rw [hcalls] at hnoted
      obtain ⟨rfl, rfl⟩ := Prod.mk.inj (Option.some.inj hown)
      refine ⟨calls', hnoted, .going hopen (taken ++ [r]) ?_ ?_ hoffered'⟩
      · rw [Aggregate.ofRecords_append_singleton, ← hcollected]
        exact hresults
      · have hfirst : p.queued = r :: rest.filterMap Message.record? := by rw [queued, hqueue]; rfl
        rw [← harrived, hfirst, List.append_assoc]
        rfl
    · rw [htake] at hown
      rw [hcalls] at hnoted
      obtain ⟨rfl, rfl⟩ := Prod.mk.inj (Option.some.inj hown)
      exact ⟨calls', hnoted, .broken text rfl hlast⟩
  · -- A marker is taken out of the queue, or the queue is closed.
    have hown := (honto s p.collector).symm.trans hconsume
    obtain ⟨rfl, rfl⟩ := Prod.mk.inj (Option.some.inj hown)
    refine ⟨calls, honto s.noting _, .going hphase taken hcollected ?_ ?_⟩
    · rw [← harrived, ← hqueue]
      rfl
    · rw [Option.toList_none, List.append_nil]
      exact hoffered
  · -- The sink is flushed.
    have hall : taken = sent := by rw [← harrived, queued, hqueue]; exact (List.append_nil _).symm
    have hown := (honto s p.collector).symm.trans hconsume
    have hnoted := honto s.noting (p.collector.noted calls)
    rcases Collector.finish_noted s hoffered with
      ⟨c, said, calls', hfinish, hresults, hcalls, hcourse⟩ |
      ⟨text, k, calls', hfinish, hcalls, hlast⟩
    · rw [conclude_of_on hopen hfinish] at hown
      rw [conclude_of_on hopen hcalls] at hnoted
      obtain ⟨rfl, rfl⟩ := Prod.mk.inj (Option.some.inj hown)
      refine ⟨calls', hnoted, .ended ?_ (hall ▸ hcourse)⟩
      rw [← hall, ← hcollected, ← hresults]
      rfl
    · rw [conclude_of_broken hfinish] at hown
      rw [conclude_of_broken hcalls] at hnoted
      obtain ⟨rfl, rfl⟩ := Prod.mk.inj (Option.some.inj hown)
      exact ⟨calls', hnoted, .broken text rfl hlast⟩

/-- What callers do is no step of the log, but a record may arrive before the end. -/
theorem Logs.frame (h : p.Logs config sent calls reports) (hphase : p'.phase = p.phase)
    (hcollector : p'.collector = p.collector) {arrived : List MetricsRecord}
    (hqueued : p'.queued = p.queued ++ arrived) (hclosed : p.isClosed = true → arrived = []) :
    p'.Logs config (sent ++ arrived) calls reports := by
  cases h with
  | going hopen taken hcollected harrived hoffered =>
    refine .going (by unfold IsOpen; rw [hphase]; exact hopen) taken (hcollector ▸ hcollected) ?_
      (hcollector ▸ hoffered)
    rw [hqueued, ← List.append_assoc, harrived]
  | ended hended hcourse =>
    rw [hclosed (by simp [isClosed, hended]), List.append_nil]
    exact .ended (hphase.trans hended) hcourse
  | broken text hbroken hlast => exact .broken text (hphase.trans hbroken) hlast

/-- Without a sink the consumer takes the same steps, unless the sink breaks down, and reports
nothing. -/
theorem consume_unlogged {s : Sink κ} {report : Option String}
    (hconsume : p.consume s = some (p', report)) (hwhole : ¬ p'.IsBroken) (k : κ) :
    (p.unlogged k).consume s = some (p'.unlogged k, none) := by
  obtain ⟨hopen, hcases⟩ := consume_onto (hconsume ▸ Option.some_ne_none _)
  rcases hcases with ⟨r, rest, -, honto⟩ | ⟨queue, phase, -, -, honto⟩ | ⟨-, honto⟩
  · have hown := (honto s p.collector).symm.trans hconsume
    rcases Collector.take_cases s r p.collector with ⟨c, said, htake, hresults⟩ | ⟨text, k', htake⟩
    · rw [htake] at hown
      obtain ⟨rfl, rfl⟩ := Prod.mk.inj (Option.some.inj hown)
      have hsame : ({ p with queue := rest }.onto c).unlogged k =
          { p with queue := rest }.onto ⟨p.collector.results.add r, k, false⟩ := by
        rw [← hresults]
        rfl
      exact (honto s _).trans (congrArg (fun p => some (p, none)) hsame.symm)
    · rw [htake] at hown
      obtain ⟨rfl, rfl⟩ := Prod.mk.inj (Option.some.inj hown)
      exact absurd ⟨text, rfl⟩ hwhole
  · have hown := (honto s p.collector).symm.trans hconsume
    obtain ⟨rfl, rfl⟩ := Prod.mk.inj (Option.some.inj hown)
    exact honto s _
  · have hown := (honto s p.collector).symm.trans hconsume
    rcases Collector.finish_cases s p.collector with
      ⟨c, said, hfinish, hresults⟩ | ⟨text, k', hfinish⟩
    · rw [conclude_of_on hopen hfinish, hresults] at hown
      obtain ⟨rfl, rfl⟩ := Prod.mk.inj (Option.some.inj hown)
      have hsame : ({ p with phase := .finished p.collector.results.snapshot }.onto c).unlogged k =
          { p with phase := .finished p.collector.results.snapshot }.onto
            ⟨p.collector.results, k, false⟩ := by
        rw [← hresults]
        rfl
      rw [unlogged, honto s, conclude_of_on hopen rfl, hsame]
    · rw [conclude_of_broken hfinish] at hown
      obtain ⟨rfl, rfl⟩ := Prod.mk.inj (Option.some.inj hown)
      exact absurd ⟨text, rfl⟩ hwhole

end MetricsPipeline

namespace MetricsCalls

variable {κ : Type} {config : MetricsConfig} {s : Sink κ} {c c' : MetricsCalls κ} {a : Action}
  {sent : List MetricsRecord} {calls : List SinkCall}

/-- The same with a note of the calls of the sink. -/
def noted (c : MetricsCalls κ) (calls : List SinkCall) : MetricsCalls (κ × List SinkCall) :=
  c.onto (c.pipeline.collector.noted calls) c.reports

/-- The same without a sink and its reports. -/
def unlogged (c : MetricsCalls κ) (k : κ) : MetricsCalls κ :=
  c.onto ⟨c.pipeline.collector.results, k, false⟩ []

/-- What callers do does not touch the collector, nor the reports. -/
theorem collector_of_step (ha : a ≠ .consume) (h : c.step s a = some c') :
    c'.pipeline.collector = c.pipeline.collector ∧ c'.reports = c.reports := by
  have hown := step_onto (c := c) (s := s) ha s c.pipeline.collector c.reports
  rw [h, Option.map_some] at hown
  have hsame : c' = c'.onto c.pipeline.collector c.reports := Option.some.inj (h.symm.trans hown)
  exact ⟨congrArg (·.pipeline.collector) hsame, congrArg (·.reports) hsame⟩

/-- Every step is noted, and the log goes along. -/
theorem step_noted (h : c.pipeline.Logs config sent calls c.reports)
    (hstep : c.step s a = some c') : ∃ calls',
      (c.noted calls).step s.noting a = some (c'.noted calls') ∧
      c'.pipeline.Logs config (sent ++ (c.arrival? a).toList) calls' c'.reports := by
  by_cases ha : a = .consume
  · subst ha
    obtain ⟨⟨p, report⟩, hconsume, rfl⟩ := Option.map_eq_some_iff.mp hstep
    obtain ⟨calls', hnoted, hlogs⟩ := h.consume hconsume
    have hnone : c.arrival? .consume = none := rfl
    refine ⟨calls', Option.map_eq_some_iff.mpr ⟨_, hnoted, rfl⟩, ?_⟩
    rw [hnone, Option.toList_none, List.append_nil]
    exact hlogs
  · obtain ⟨hcollector, hreports⟩ := collector_of_step ha hstep
    obtain ⟨hphase, hqueued, hclosed⟩ := queued_of_step ha hstep
    refine ⟨calls, ?_, ?_⟩
    · rw [noted, step_onto ha, hstep, noted, hcollector, hreports]
      rfl
    · rw [hreports]
      exact h.frame hphase hcollector hqueued fun hclose => by rw [hclosed hclose]; rfl

/-- So is every run. -/
theorem run_noted (h : c.pipeline.Logs config sent calls c.reports) {actions : List Action}
    (hrun : c.run s actions = some c') : ∃ calls',
      (c.noted calls).run s.noting actions = some (c'.noted calls') ∧
      c'.pipeline.Logs config (sent ++ c.arrivals s actions) calls' c'.reports := by
  induction actions generalizing c sent calls with
  | nil =>
    obtain rfl := Option.some.inj hrun
    exact ⟨calls, rfl, by rw [arrivals, List.append_nil]; exact h⟩
  | cons a rest ih =>
    obtain ⟨c₁, hstep, hrest⟩ := Option.bind_eq_some_iff.mp hrun
    obtain ⟨calls₁, hnoted, hlogs⟩ := step_noted h hstep
    obtain ⟨calls', hnoted', hlogs'⟩ := ih hlogs hrest
    refine ⟨calls', Option.bind_eq_some_iff.mpr ⟨_, hnoted, hnoted'⟩, ?_⟩
    rw [arrivals, hstep, ← List.append_assoc]
    exact hlogs'

/-- A consumer that has broken down stays so. -/
theorem isBroken_of_step (h : c.pipeline.IsBroken) (hstep : c.step s a = some c') :
    c'.pipeline.IsBroken := by
  by_cases ha : a = .consume
  · subst ha
    obtain ⟨⟨p, report⟩, hconsume, -⟩ := Option.map_eq_some_iff.mp hstep
    exact absurd h (MetricsPipeline.consume_frame hconsume).2.2
  · obtain ⟨text, hbroken⟩ := h
    exact ⟨text, (queued_of_step ha hstep).1.trans hbroken⟩

/-- Without a sink every step is the same, unless the sink breaks down. -/
theorem step_unlogged (hstep : c.step s a = some c') (hwhole : ¬ c'.pipeline.IsBroken) (k : κ) :
    (c.unlogged k).step s a = some (c'.unlogged k) := by
  by_cases ha : a = .consume
  · subst ha
    obtain ⟨⟨p, report⟩, hconsume, rfl⟩ := Option.map_eq_some_iff.mp hstep
    have hunlogged := MetricsPipeline.consume_unlogged hconsume hwhole k
    exact Option.map_eq_some_iff.mpr ⟨_, hunlogged, rfl⟩
  · obtain ⟨hcollector, -⟩ := collector_of_step ha hstep
    rw [unlogged, step_onto ha, hstep, unlogged, hcollector]
    rfl

/-- So is every run. -/
theorem run_unlogged {actions : List Action} (hrun : c.run s actions = some c')
    (hwhole : ¬ c'.pipeline.IsBroken) (k : κ) :
    (c.unlogged k).run s actions = some (c'.unlogged k) := by
  -- A breakdown on the way would last to the end.
  have hbroken : ∀ {actions : List Action} {c c' : MetricsCalls κ}, c.run s actions = some c' →
      c.pipeline.IsBroken → c'.pipeline.IsBroken := by
    intro actions
    induction actions with
    | nil => exact fun hrun h => Option.some.inj hrun ▸ h
    | cons a rest ih =>
      intro c c' hrun h
      obtain ⟨c₁, hstep, hrest⟩ := Option.bind_eq_some_iff.mp hrun
      exact ih hrest (isBroken_of_step h hstep)
  induction actions generalizing c with
  | nil => exact congrArg (fun c => some (c.unlogged k)) (Option.some.inj hrun)
  | cons a rest ih =>
    obtain ⟨c₁, hstep, hrest⟩ := Option.bind_eq_some_iff.mp hrun
    have hstep' := step_unlogged hstep (fun h => hwhole (hbroken hrest h)) k
    exact Option.bind_eq_some_iff.mpr ⟨_, hstep', ih hrest⟩

/-! ## The end of the consumer -/

end MetricsCalls

namespace MetricsPipeline

variable {κ : Type} {p : MetricsPipeline κ}

/-- The consumer has met the marker, or will. -/
def IsMarked (p : MetricsPipeline κ) : Prop := p.phase ≠ .receiving ∨ .marker ∈ p.queue

/-- A call of the collector adds no work, and leaves the consumer as it is or broken down. -/
theorem afterCollector_isMarked (h : p.IsMarked) (o : Collector.Outcome κ) :
    (p.afterCollector o).1.work ≤ p.work ∧ (p.afterCollector o).1.IsMarked := by
  cases o with
  | on c report => exact ⟨Nat.le_refl _, h⟩
  | broken text k => exact ⟨Nat.zero_le _, .inl ConsumerPhase.noConfusion⟩

/-- The end of the consumer leaves less work, too. -/
theorem conclude_isMarked (s : Sink κ) (hopen : p.IsOpen) :
    (p.conclude s).1.work < p.work ∧ (p.conclude s).1.IsMarked := by
  have hwork : p.queue.length < p.work := by
    rcases hopen with hphase | hphase | hphase <;> simp [work, hphase]
  rcases Collector.finish_cases s p.collector with ⟨c, report, hfinish, -⟩ | ⟨text, k, hfinish⟩
  · have hconclude : p.conclude s = _ := conclude_of_on hopen hfinish
    rw [hconclude]
    exact ⟨hwork, .inl ConsumerPhase.noConfusion⟩
  · have hconclude : p.conclude s = _ := conclude_of_broken hfinish
    rw [hconclude]
    exact ⟨Nat.lt_of_le_of_lt (Nat.zero_le _) hwork, .inl ConsumerPhase.noConfusion⟩

/-- A consumer that is to meet the marker, or has met it, goes on until its end, with less work
after each step. -/
theorem consume_of_isMarked (s : Sink κ) (h : p.IsMarked) (hopen : p.IsOpen) :
    ∃ p' report, p.consume s = some (p', report) ∧ p'.work < p.work ∧ p'.IsMarked := by
  obtain ⟨capacity, accepting, queue, phase, collector, begun, snapshot⟩ := p
  cases phase with
  | receiving =>
    have hmarker : .marker ∈ queue := h.resolve_left fun hmet => hmet rfl
    match queue with
    | .record r :: rest =>
      have hrest : .marker ∈ rest := (List.mem_cons.mp hmarker).resolve_left Message.noConfusion
      obtain ⟨hwork, hmarked⟩ := afterCollector_isMarked
        (p := ⟨capacity, accepting, rest, .receiving, collector, begun, snapshot⟩) (.inr hrest)
        (collector.take s r)
      exact ⟨_, _, rfl, Nat.lt_of_le_of_lt hwork (by simp [work]), hmarked⟩
    | .marker :: rest => exact ⟨_, _, rfl, by simp [work], .inl ConsumerPhase.noConfusion⟩
  | closing => exact ⟨_, _, rfl, by simp [work], .inl ConsumerPhase.noConfusion⟩
  | draining =>
    match queue with
    | [] => exact ⟨_, _, rfl, conclude_isMarked s hopen⟩
    | .record r :: rest =>
      obtain ⟨hwork, hmarked⟩ := afterCollector_isMarked
        (p := ⟨capacity, accepting, rest, .draining, collector, begun, snapshot⟩)
        (.inl ConsumerPhase.noConfusion) (collector.take s r)
      exact ⟨_, _, rfl, Nat.lt_of_le_of_lt hwork (by simp [work]), hmarked⟩
    | .marker :: rest => exact ⟨_, _, rfl, by simp [work], .inl ConsumerPhase.noConfusion⟩
  | finished results => simp [IsOpen] at hopen
  | broken text => simp [IsOpen] at hopen

end MetricsPipeline

namespace MetricsCalls

variable {κ : Type}

/-- Once the marker is in the queue, the consumer comes to its end by its own steps. -/
theorem exists_end (s : Sink κ) {c : MetricsCalls κ} (h : c.pipeline.IsMarked) :
    ∃ n c', c.run s (List.replicate n .consume) = some c' ∧
      (c'.pipeline.IsFinished ∨ c'.pipeline.IsBroken) := by
  induction hwork : c.pipeline.work using Nat.strongRecOn generalizing c with
  | _ work ih =>
    by_cases hopen : c.pipeline.IsOpen
    · obtain ⟨p, report, hconsume, hless, hmarked⟩ :=
        MetricsPipeline.consume_of_isMarked s h hopen
      let c₁ : MetricsCalls κ := { c with pipeline := p, reports := c.reports ++ report.toList }
      have hstep : c.step s .consume = some c₁ := Option.map_eq_some_iff.mpr ⟨_, hconsume, rfl⟩
      obtain ⟨n, c', hrun, hend⟩ := ih p.work (hwork ▸ hless) (c := c₁) hmarked rfl
      exact ⟨n + 1, c', Option.bind_eq_some_iff.mpr ⟨c₁, hstep, hrun⟩, hend⟩
    · refine ⟨0, c, rfl, ?_⟩
      cases hphase : c.pipeline.phase with
      | receiving => exact absurd (.inl hphase) hopen
      | closing => exact absurd (.inr (.inl hphase)) hopen
      | draining => exact absurd (.inr (.inr hphase)) hopen
      | finished results => exact .inl ⟨results, hphase⟩
      | broken text => exact .inr ⟨text, hphase⟩

/-- A failing sink costs rows of the log and no results. Consider any run of a pipeline with a sink,
whose calls are noted beside it. At the end of the consumer, the sink has been offered every record
that arrived, in the order of arrival, and then flushed; or every record up to the first one whose
write failed, and nothing after that. One report has been made if a write or the flush failed, and
none otherwise, and the results are those of all records. Without a sink the run is the same, with
the same results. The one exception is a sink that breaks down, which takes the consumer along.

The end comes: once the marker is in the queue, steps of the consumer alone lead to it. -/
theorem run_logs (config : MetricsConfig) (s : Sink κ) (sink : κ) (p : MetricsPipeline κ)
    (hp : MetricsPipeline.fresh config sink true = .ok p) (actions : List Action)
    (c : MetricsCalls κ) (hc : (fresh p).run s actions = some c) :
    (∃ p₁ calls, MetricsPipeline.fresh config (sink, []) true = .ok p₁ ∧
      (fresh p₁).run s.noting actions = some (c.noted calls) ∧
      (∀ results, c.pipeline.phase = .finished results →
        LogCourse ((fresh p).arrivals s actions) calls c.reports ∧
        results = (Aggregate.ofRecords config ((fresh p).arrivals s actions)).snapshot) ∧
      ∀ text, c.pipeline.phase = .broken text → BreaksDown calls text) ∧
    ((∀ text, c.pipeline.phase ≠ .broken text) →
      ∃ p₀, MetricsPipeline.fresh config sink false = .ok p₀ ∧
        (fresh p₀).run s actions = some (c.unlogged sink)) ∧
    (c.pipeline.IsMarked → ∃ n c', c.run s (List.replicate n .consume) = some c' ∧
      (c'.pipeline.IsFinished ∨ c'.pipeline.IsBroken)) := by
  obtain ⟨hlogs, hnoting, hbare⟩ := MetricsPipeline.logs_fresh hp
  obtain ⟨calls, hnoted, hend⟩ := run_noted (c := fresh p) hlogs hc
  refine ⟨⟨p.noted [], calls, hnoting, hnoted, fun results hphase => ?_, fun text hphase => ?_⟩,
    fun hwhole => ⟨_, hbare, ?_⟩, exists_end s⟩
  · exact hend.of_finished hphase
  · exact hend.of_broken hphase
  · exact run_unlogged hc (fun ⟨text, hbroken⟩ => hwhole text hbroken) sink

/-- A sink with room for one record. -/
def smallSink : Sink Nat where
  write _ k := if k = 0 then (.done, 1) else (.failed "disk full", k)
  flush k := (.done, k)

/-- One record arrives before the marker is taken out of the queue, and two between that and the
end of the queue. -/
def markedActions : List Action :=
  [.callSubmit (recordOf 1), .callSubmit (recordOf 2), .callSubmit (recordOf 3), .ask 0, .ask 1,
    .ask 2, .send 0, .callShutdown, .begin 0, .stopAccepting 0, .consume, .mark 0, .consume,
    .send 1, .send 2, .consume, .consume, .consume, .consume]

/-- The sink fails at the second record and is not offered the third one, nor flushed; all three
count. -/
theorem run_logs_disabled :
    let config : MetricsConfig := ⟨2, .nano, true⟩
    let records := [recordOf 1, recordOf 2, recordOf 3]
    let calls : List SinkCall :=
      [.write (recordOf 1) .done, .write (recordOf 2) (.failed "disk full")]
    ∃ p c p₀ results, MetricsPipeline.fresh config 0 true = .ok p ∧
      (fresh p).run smallSink markedActions = some c ∧ c.pipeline.phase = .finished results ∧
      LogCourse records calls c.reports ∧ c.reports = ["results log disabled: disk full"] ∧
      results = (Aggregate.ofRecords config records).snapshot ∧ results.totalCount = 3 ∧
      MetricsPipeline.fresh config 0 false = .ok p₀ ∧
      (fresh p₀).run smallSink markedActions = some (c.unlogged 0) := by
  intro config records calls
  let p : MetricsPipeline Nat :=
    ⟨2, true, [], .receiving, Collector.fresh config 0 true, false, none⟩
  have hp : MetricsPipeline.fresh config 0 true = .ok p := rfl
  have hrun : ((fresh p).run smallSink markedActions).map (fun c => (c.pipeline.phase, c.reports)) =
      some (.finished (Aggregate.ofRecords config records).snapshot,
        ["results log disabled: disk full"]) := by decide +kernel
  obtain ⟨c, hc, hfacts⟩ := Option.map_eq_some_iff.mp hrun
  obtain ⟨hphase, hreports⟩ := Prod.mk.inj hfacts
  obtain ⟨⟨p₁, noted, hp₁, hnoted, hfinished, -⟩, hbare, -⟩ :=
    run_logs config smallSink 0 p hp markedActions c hc
  obtain ⟨p₀, hp₀, hrun₀⟩ := hbare (by simp [hphase])
  obtain ⟨hcourse, -⟩ := hfinished _ hphase
  have harrivals : (fresh p).arrivals smallSink markedActions = records := by decide +kernel
  have hcalls : ((fresh (p.noted [])).run smallSink.noting markedActions).map
      (·.pipeline.collector.sink.2) = some calls := by decide +kernel
  obtain rfl : p.noted [] = p₁ := Except.ok.inj hp₁
  obtain rfl : noted = calls := by
    rw [hnoted] at hcalls
    exact Option.some.inj hcalls
  rw [harrivals] at hcourse
  exact ⟨p, c, p₀, _, hp, hc, hphase, hcourse, hreports, rfl, by decide +kernel, hp₀, hrun₀⟩

end MetricsCalls

end WorkloadReplay
