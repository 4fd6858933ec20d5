import WorkloadReplay.Metrics.Pipeline

/-!
# What a metrics pipeline delivers

The records that the queue of a pipeline has accepted are, at any time, those that have been
collected and then those that are in the queue: `MetricsPipeline.Delivers` says that, and that the
results that the consumer leaves are those of all of them. Every step of the pipeline keeps it, so
that nothing is lost or counted twice, wherever the marker is among the records. Only a sink that
breaks down takes the consumer, and with it all results, along.

The cases of the consumer's step are told apart once, and for all collectors at the same time
(`MetricsPipeline.consume_onto`).
-/

namespace WorkloadReplay

/-- The record that a message carries. -/
def Message.record? : Message → Option MetricsRecord
  | .record r => some r
  | .marker => none

/-- What is collected of records. -/
def Aggregate.ofRecords (config : MetricsConfig) (records : List MetricsRecord) : Aggregate :=
  records.foldl Aggregate.add (Aggregate.empty config)

/-- One record more is collected after the others. -/
theorem Aggregate.ofRecords_append_singleton (config : MetricsConfig)
    (records : List MetricsRecord) (r : MetricsRecord) :
    ofRecords config (records ++ [r]) = (ofRecords config records).add r := by
  unfold ofRecords
  rw [List.foldl_append, List.foldl_cons, List.foldl_nil]

namespace Collector

variable {κ : Type} {s : Sink κ} {c : Collector κ}

/-- A record that is taken up goes into the results, unless the sink breaks down. -/
theorem take_cases (s : Sink κ) (r : MetricsRecord) (c : Collector κ) :
    (∃ c' report, c.take s r = .on c' report ∧ c'.results = c.results.add r) ∨
    ∃ text k, c.take s r = .broken text k := by
  unfold take
  split
  · split
    · exact .inl ⟨_, _, rfl, rfl⟩
    · exact .inl ⟨_, _, rfl, rfl⟩
    · exact .inr ⟨_, _, rfl⟩
  · exact .inl ⟨_, _, rfl, rfl⟩

/-- The end of a collector leaves its results as they are, unless the sink breaks down. -/
theorem finish_cases (s : Sink κ) (c : Collector κ) :
    (∃ c' report, c.finish s = .on c' report ∧ c'.results = c.results) ∨
    ∃ text k, c.finish s = .broken text k := by
  unfold finish
  split
  · split
    · exact .inl ⟨_, _, rfl, rfl⟩
    · exact .inl ⟨_, _, rfl, rfl⟩
    · exact .inr ⟨_, _, rfl⟩
  · exact .inl ⟨_, _, rfl, rfl⟩

end Collector

namespace MetricsPipeline

variable {κ κ' : Type}

/-- The consumer has broken down. -/
def IsBroken (p : MetricsPipeline κ) : Prop := ∃ text, p.phase = .broken text

/-- The consumer is at its end, with its results. -/
def IsFinished (p : MetricsPipeline κ) : Prop := ∃ results, p.phase = .finished results

/-- The pipeline with another collector. -/
def onto (p : MetricsPipeline κ) (c : Collector κ') : MetricsPipeline κ' :=
  ⟨p.capacity, p.accepting, p.queue, p.phase, c, p.shutdownBegun, p.snapshot⟩

/-- The consumer is not at its end. -/
def IsOpen (p : MetricsPipeline κ) : Prop :=
  p.phase = .receiving ∨ p.phase = .closing ∨ p.phase = .draining

/-- The records in the queue. -/
def queued (p : MetricsPipeline κ) : List MetricsRecord := p.queue.filterMap Message.record?

/-- The records that the queue has accepted are those that have been collected and those that are
still in the queue; at the end, all have been collected. -/
structure Delivers (config : MetricsConfig) (p : MetricsPipeline κ) (sent : List MetricsRecord) :
    Prop where
  collected : p.IsBroken ∨
    ∃ taken, p.collector.results = .ofRecords config taken ∧ taken ++ p.queued = sent
  finished : ∀ results, p.phase = .finished results →
    p.queued = [] ∧ results = p.collector.results.snapshot
  kept : ∀ results, p.snapshot = some results → p.phase = .finished results

section Steps

variable {config : MetricsConfig} {p p' : MetricsPipeline κ} {sent : List MetricsRecord}

/-- There are no results yet. -/
theorem IsOpen.ne_finished (h : p.IsOpen) (results : ResultsSnapshot) :
    p.phase ≠ .finished results := by
  rcases h with h | h | h <;> simp [h]

/-- Nothing has broken down yet. -/
theorem IsOpen.ne_broken (h : p.IsOpen) (text : String) : p.phase ≠ .broken text := by
  rcases h with h | h | h <;> simp [h]

/-- A step of the consumer does not depend on the collector, except for what the collector does: a
record is taken up, or a marker is dropped or the queue closed, or the consumer comes to its end. -/
theorem consume_onto {s : Sink κ} (h : p.consume s ≠ none) : p.IsOpen ∧
    ((∃ r rest, p.queue = .record r :: rest ∧ ∀ {κ' : Type} (s' : Sink κ') c,
        (p.onto c).consume s' =
          some (({ p with queue := rest }.onto c).afterCollector (c.take s' r))) ∨
      (∃ queue phase, { p with phase := phase }.IsOpen ∧
        queue.filterMap Message.record? = p.queued ∧ ∀ {κ' : Type} (s' : Sink κ') c,
          (p.onto c).consume s' = some ({ p with queue := queue, phase := phase }.onto c, none)) ∨
      (p.queue = [] ∧ ∀ {κ' : Type} (s' : Sink κ') c,
        (p.onto c).consume s' = some ((p.onto c).conclude s'))) := by
  obtain ⟨capacity, accepting, queue, phase, collector, begun, snapshot⟩ := p
  cases phase with
  | receiving =>
    refine ⟨.inl rfl, ?_⟩
    match queue with
    | [] => exact absurd rfl h
    | .record r :: rest => exact .inl ⟨r, rest, rfl, fun _ _ => rfl⟩
    | .marker :: rest =>
      exact .inr (.inl ⟨rest, .closing, .inr (.inl rfl), rfl, fun _ _ => rfl⟩)
  | closing =>
    exact ⟨.inr (.inl rfl), .inr (.inl ⟨queue, .draining, .inr (.inr rfl), rfl, fun _ _ => rfl⟩)⟩
  | draining =>
    refine ⟨.inr (.inr rfl), ?_⟩
    match queue with
    | [] => exact .inr (.inr ⟨rfl, fun _ _ => rfl⟩)
    | .record r :: rest => exact .inl ⟨r, rest, rfl, fun _ _ => rfl⟩
    | .marker :: rest =>
      exact .inr (.inl ⟨rest, .draining, .inr (.inr rfl), rfl, fun _ _ => rfl⟩)
  | finished results => exact absurd rfl h
  | broken text => exact absurd rfl h

/-- What the consumer does in one step, with its own collector. -/
theorem consume_cases {s : Sink κ} {report : Option String}
    (h : p.consume s = some (p', report)) : p.IsOpen ∧
    ((∃ r rest, p.queue = .record r :: rest ∧
        p' = ({ p with queue := rest }.afterCollector (p.collector.take s r)).1) ∨
      (∃ queue phase, { p with phase := phase }.IsOpen ∧
        queue.filterMap Message.record? = p.queued ∧
        p' = { p with queue := queue, phase := phase }) ∨
      (p.queue = [] ∧ p' = (p.conclude s).1)) := by
  have hown {o : MetricsPipeline κ × Option String} (ho : p.consume s = some o) : p' = o.1 :=
    congrArg Prod.fst (Option.some.inj (h.symm.trans ho))
  obtain ⟨hopen, hcases⟩ := consume_onto (h ▸ Option.some_ne_none _)
  refine ⟨hopen, ?_⟩
  rcases hcases with ⟨r, rest, hqueue, honto⟩ | ⟨queue, phase, hphase, hqueue, honto⟩ |
    ⟨hqueue, honto⟩
  · exact .inl ⟨r, rest, hqueue, hown (honto s p.collector)⟩
  · exact .inr (.inl ⟨queue, phase, hphase, hqueue, hown (honto s p.collector)⟩)
  · exact .inr (.inr ⟨hqueue, hown (honto s p.collector)⟩)

/-- At the end of the consumer the results are left. -/
theorem conclude_of_on {κ' : Type} {s : Sink κ'} {c c' : Collector κ'} {report : Option String}
    (hopen : p.IsOpen) (h : c.finish s = .on c' report) : (p.onto c).conclude s =
      ({ p with phase := .finished c'.results.snapshot }.onto c', report) := by
  have hafter : (p.onto c).afterCollector (c.finish s) = (p.onto c', report) := by rw [h]; rfl
  unfold conclude
  rw [show (p.onto c).collector = c from rfl, hafter]
  rcases hopen with hphase | hphase | hphase <;> simp [onto, hphase]

/-- There are none if the sink breaks down. -/
theorem conclude_of_broken {κ' : Type} {s : Sink κ'} {c : Collector κ'} {text : String} {k : κ'}
    (h : c.finish s = .broken text k) :
    (p.onto c).conclude s = (p.onto c).afterCollector (.broken text k) := by
  have hafter : (p.onto c).afterCollector (c.finish s) =
      (p.onto c).afterCollector (.broken text k) := by rw [h]
  unfold conclude
  rw [show (p.onto c).collector = c from rfl, hafter]
  rfl

/-- A pipeline that nothing has been sent through delivers nothing. -/
theorem delivers_fresh {sink : κ} {active : Bool} (h : fresh config sink active = .ok p) :
    p.Delivers config [] := by
  simp only [fresh] at h
  split at h
  · simp at h
  · obtain rfl := Except.ok.inj h
    exact ⟨.inr ⟨[], rfl, rfl⟩, by simp, by simp⟩

/-- The results that a pipeline keeps are those of all records that it has accepted. -/
theorem Delivers.snapshot_eq (h : p.Delivers config sent) {results : ResultsSnapshot}
    (hresults : p.snapshot = some results) :
    results = (Aggregate.ofRecords config sent).snapshot := by
  have hphase := h.kept results hresults
  obtain ⟨hnone, rfl⟩ := h.finished results hphase
  rcases h.collected with ⟨text, hbroken⟩ | ⟨taken, hcollected, rfl⟩
  · rw [hphase] at hbroken
    simp at hbroken
  · rw [hcollected, hnone, List.append_nil]

/-- A message is queued only while the queue is open, which is before the consumer's end. -/
theorem offer_eq_queued {m : Message} (h : p.offer m = .queued p') :
    p.isClosed = false ∧ p' = { p with queue := p.queue ++ [m] } := by
  unfold offer at h
  split at h
  · simp at h
  · rename_i hopen
    split at h
    · exact ⟨by simpa using hopen, (Offer.queued.inj h).symm⟩
    · simp at h

/-- What the consumer does is not seen by callers: the results are kept by a shutdown, and a
consumer that has broken down does nothing. -/
theorem consume_frame {s : Sink κ} {report : Option String}
    (h : p.consume s = some (p', report)) :
    p'.snapshot = p.snapshot ∧ p'.shutdownBegun = p.shutdownBegun ∧ ¬ p.IsBroken := by
  have hcollector : ∀ (p : MetricsPipeline κ) (o : Collector.Outcome κ),
      (p.afterCollector o).1.snapshot = p.snapshot ∧
      (p.afterCollector o).1.shutdownBegun = p.shutdownBegun := by
    intro p o
    cases o <;> exact ⟨rfl, rfl⟩
  have hconclude : (p.conclude s).1.snapshot = p.snapshot ∧
      (p.conclude s).1.shutdownBegun = p.shutdownBegun := by
    simp only [conclude]
    split <;> exact hcollector p _
  obtain ⟨hopen, hcases⟩ := consume_cases h
  have hwhole : ¬ p.IsBroken := fun ⟨text, hbroken⟩ => hopen.ne_broken text hbroken
  rcases hcases with ⟨r, rest, -, rfl⟩ | ⟨queue, phase, -, -, rfl⟩ | ⟨-, rfl⟩
  · obtain ⟨hsnapshot, hbegun⟩ := hcollector { p with queue := rest } (p.collector.take s r)
    exact ⟨hsnapshot, hbegun, hwhole⟩
  · exact ⟨rfl, rfl, hwhole⟩
  · exact ⟨hconclude.1, hconclude.2, hwhole⟩

/-- A message that is queued adds its record to what is delivered. -/
theorem Delivers.offer (h : p.Delivers config sent) {m : Message}
    (hoffer : p.offer m = .queued p') :
    p'.Delivers config (sent ++ m.record?.toList) := by
  obtain ⟨hopen, rfl⟩ := offer_eq_queued hoffer
  have hnot : ∀ results, p.phase ≠ .finished results := by
    intro results hphase
    simp [isClosed, hphase] at hopen
  refine ⟨h.collected.imp_right ?_, fun results hphase => absurd hphase (hnot results), h.kept⟩
  rintro ⟨taken, hcollected, rfl⟩
  refine ⟨taken, hcollected, ?_⟩
  unfold queued
  rw [List.filterMap_append, List.append_assoc]
  cases m <;> rfl

/-- The first record in the queue is collected. -/
theorem Delivers.take (h : p.Delivers config sent) (s : Sink κ) (hopen : p.IsOpen)
    {r : MetricsRecord} {rest : List Message} (hqueue : p.queue = .record r :: rest) :
    ({ p with queue := rest }.afterCollector (p.collector.take s r)).1.Delivers config sent := by
  have hnot := hopen.ne_finished
  rcases Collector.take_cases s r p.collector with ⟨c, report, htake, hresults⟩ | ⟨text, k, htake⟩
  · rw [htake]
    refine ⟨h.collected.imp_right ?_, fun results hphase => absurd hphase (hnot results), h.kept⟩
    rintro ⟨taken, hcollected, rfl⟩
    refine ⟨taken ++ [r], ?_, ?_⟩
    · rw [Aggregate.ofRecords_append_singleton, ← hcollected]
      exact hresults
    · rw [List.append_assoc]
      unfold queued
      rw [hqueue]
      rfl
  · rw [htake]
    refine ⟨.inl ⟨text, rfl⟩, fun results hphase => ?_, fun results hresults => ?_⟩
    · simp [afterCollector] at hphase
    · exact absurd (h.kept results hresults) (hnot results)

/-- At its end, with nothing left in the queue, the consumer leaves the results of all records. -/
theorem Delivers.conclude (h : p.Delivers config sent) (s : Sink κ) (hopen : p.IsOpen)
    (hqueue : p.queue = []) : (p.conclude s).1.Delivers config sent := by
  have hnone : p.queued = [] := by simp [queued, hqueue]
  have hsnapshot : ∀ results, p.snapshot ≠ some results :=
    fun results hresults => hopen.ne_finished results (h.kept results hresults)
  rcases Collector.finish_cases s p.collector with
    ⟨c, report, hfinish, hresults⟩ | ⟨text, k, hfinish⟩
  · have hconclude : p.conclude s = _ := conclude_of_on hopen hfinish
    rw [hconclude]
    refine ⟨.inr ?_, fun results heq => ?_, fun results heq => absurd heq (hsnapshot results)⟩
    · obtain ⟨taken, hcollected, hsent⟩ :=
        h.collected.resolve_left fun ⟨text, hbroken⟩ => hopen.ne_broken text hbroken
      exact ⟨taken, hresults.trans hcollected, hsent⟩
    · exact ⟨hnone, (ConsumerPhase.finished.inj heq).symm⟩
  · have hconclude : p.conclude s = _ := conclude_of_broken hfinish
    rw [hconclude]
    exact ⟨.inl ⟨text, rfl⟩, fun results heq => absurd heq ConsumerPhase.noConfusion,
      fun results heq => absurd heq (hsnapshot results)⟩

/-- Before its end, the consumer may change its phase and drop a marker: no record is touched. -/
theorem Delivers.dropMarker (h : p.Delivers config sent) {phase : ConsumerPhase}
    {queue : List Message} (hopen : p.IsOpen) (hphase : { p with phase := phase }.IsOpen)
    (hqueue : queue.filterMap Message.record? = p.queued) :
    { p with queue := queue, phase := phase }.Delivers config sent := by
  obtain ⟨taken, hcollected, hsent⟩ :=
    h.collected.resolve_left fun ⟨text, hbroken⟩ => hopen.ne_broken text hbroken
  refine ⟨.inr ⟨taken, hcollected, ?_⟩, fun results heq => absurd heq (hphase.ne_finished results),
    fun results heq => absurd (h.kept results heq) (hopen.ne_finished results)⟩
  rw [← hsent, ← hqueue]
  rfl

/-- A step of the consumer loses nothing. -/
theorem Delivers.consume (h : p.Delivers config sent) {s : Sink κ} {report : Option String}
    (hconsume : p.consume s = some (p', report)) : p'.Delivers config sent := by
  obtain ⟨hopen, hcases⟩ := consume_cases hconsume
  rcases hcases with ⟨r, rest, hqueue, rfl⟩ | ⟨queue, phase, hphase, hqueue, rfl⟩ | ⟨hqueue, rfl⟩
  · exact h.take s hopen hqueue
  · exact h.dropMarker hopen hphase hqueue
  · exact h.conclude s hopen hqueue

/-- A shutdown that begins is only noted. -/
theorem begin?_eq_some (h : p.begin? = some p') : p' = { p with shutdownBegun := true } := by
  unfold begin? at h
  split at h
  · simp at h
  · exact (Option.some.inj h).symm

/-- What a shutdown does beside sending the marker loses nothing. -/
theorem Delivers.begin? (h : p.Delivers config sent) (hbegin : p.begin? = some p') :
    p'.Delivers config sent := by
  obtain rfl := begin?_eq_some hbegin
  exact ⟨h.collected, h.finished, h.kept⟩

/-- Records that are refused do not count. -/
theorem Delivers.stopAccepting (h : p.Delivers config sent) :
    p.stopAccepting.Delivers config sent := ⟨h.collected, h.finished, h.kept⟩

/-- A shutdown that waits for the consumer learns that it has finished, and keeps its results, or
that it has broken down. -/
theorem join?_eq_some {answer : Except ReplayError Unit} (h : p.join? = some (answer, p')) :
    (∃ results, p.phase = .finished results ∧ answer = .ok () ∧
      p' = { p with snapshot := some results }) ∨
    p.IsBroken ∧ p' = p ∧ ∃ e, answer = .error e := by
  unfold join? at h
  split at h
  · rename_i results hphase
    obtain ⟨rfl, rfl⟩ := Prod.mk.inj (Option.some.inj h)
    exact .inl ⟨results, hphase, rfl, rfl⟩
  · rename_i text hphase
    obtain ⟨rfl, rfl⟩ := Prod.mk.inj (Option.some.inj h)
    exact .inr ⟨⟨text, hphase⟩, rfl, _, rfl⟩
  · simp at h

/-- The results that are kept are those of all records. -/
theorem Delivers.join? (h : p.Delivers config sent) {answer : Except ReplayError Unit}
    (hjoin : p.join? = some (answer, p')) : p'.Delivers config sent := by
  rcases join?_eq_some hjoin with ⟨results, hphase, -, rfl⟩ | ⟨-, rfl, -⟩
  · exact ⟨h.collected, h.finished, fun results' heq => Option.some.inj heq ▸ hphase⟩
  · exact h

end Steps

end MetricsPipeline

end WorkloadReplay
