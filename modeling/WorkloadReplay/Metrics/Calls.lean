import WorkloadReplay.Metrics.Pipeline

/-!
# Concurrent calls of the metrics pipeline

Any number of callers submit records and shut the pipeline down at the same time. `MetricsCalls` is
the pipeline together with the calls that are on their way, and an `Action` is one step of one of
them or of the consumer. Between two actions of a call any others may happen.

A submission asks whether records are accepted, and then sends its record, for which it waits while
the queue is full. A shutdown takes the lock that shutdowns share, stops the acceptance of records,
sends the marker, and waits for the end of the consumer; a shutdown that comes later finds nothing
left to do.
-/

namespace WorkloadReplay

/-- Where a submission stands. -/
inductive SubmissionPhase where
  | called
  /-- Records were accepted when it asked. -/
  | admitted
  | returned (answer : Except ReplayError Unit)

/-- A submission of a record. -/
structure Submission where
  record : MetricsRecord
  phase : SubmissionPhase

/-- Where a shutdown stands. -/
inductive ShutdownPhase where
  | called
  /-- It has begun, and holds the lock of shutdowns from here to its return. -/
  | begun
  /-- Records are not accepted any more. -/
  | stopped
  /-- The marker has been sent, or could not be. -/
  | marked
  | returned (answer : Except ReplayError Unit)

/-- A pipeline and the calls of it. -/
structure MetricsCalls (κ : Type) where
  pipeline : MetricsPipeline κ
  submissions : List Submission
  shutdowns : List ShutdownPhase
  /-- What the consumer has reported. -/
  reports : List String

namespace MetricsCalls

/-- One step of something. -/
inductive Action where
  /-- A caller submits a record. -/
  | callSubmit (r : MetricsRecord)
  /-- A submission asks whether records are accepted. -/
  | ask (i : Nat)
  /-- A submission sends its record. -/
  | send (i : Nat)
  /-- A caller shuts the pipeline down. -/
  | callShutdown
  /-- A shutdown takes the lock and begins, or finds that there was one before. -/
  | begin (j : Nat)
  | stopAccepting (j : Nat)
  /-- A shutdown sends the marker. -/
  | mark (j : Nat)
  /-- A shutdown learns of the end of the consumer. -/
  | join (j : Nat)
  | consume

variable {κ : Type}

/-- A pipeline nobody has called yet. -/
def fresh (p : MetricsPipeline κ) : MetricsCalls κ := ⟨p, [], [], []⟩

/-- A shutdown holds the lock. -/
def ShutdownPhase.holdsLock : ShutdownPhase → Bool
  | .begun => true
  | .stopped => true
  | .marked => true
  | _ => false

/-- A submission moves on to a phase. -/
def setSubmission (c : MetricsCalls κ) (i : Nat) (phase : SubmissionPhase) : MetricsCalls κ :=
  { c with submissions := c.submissions.modify i fun s => { s with phase := phase } }

/-- A shutdown moves on to a phase. -/
def setShutdown (c : MetricsCalls κ) (j : Nat) (phase : ShutdownPhase) : MetricsCalls κ :=
  { c with shutdowns := c.shutdowns.set j phase }

/-- The step of a submission that asks whether records are accepted. -/
def stepAsk (c : MetricsCalls κ) (i : Nat) : Option (MetricsCalls κ) :=
  match c.submissions[i]? with
  | some ⟨_, .called⟩ =>
    some (c.setSubmission i
      (if c.pipeline.accepting then .admitted else .returned (.error MetricsPipeline.closedError)))
  | _ => none

/-- The step of a submission that sends its record. -/
def stepSend (c : MetricsCalls κ) (i : Nat) : Option (MetricsCalls κ) :=
  match c.submissions[i]? with
  | some ⟨r, .admitted⟩ =>
    match c.pipeline.offer (.record r) with
    | .queued p => some ({ c with pipeline := p }.setSubmission i (.returned (.ok ())))
    | .full => none
    | .refused => some (c.setSubmission i (.returned (.error MetricsPipeline.closedError)))
  | _ => none

/-- The first step of a shutdown, for which the lock must be free. -/
def stepBegin (c : MetricsCalls κ) (j : Nat) : Option (MetricsCalls κ) :=
  match c.shutdowns[j]? with
  | some .called =>
    if c.shutdowns.any ShutdownPhase.holdsLock then none
    else
      match c.pipeline.begin? with
      | none => some (c.setShutdown j (.returned (.ok ())))
      | some p => some ({ c with pipeline := p }.setShutdown j .begun)
  | _ => none

/-- The step of a shutdown that sends the marker. -/
def stepMark (c : MetricsCalls κ) (j : Nat) : Option (MetricsCalls κ) :=
  match c.shutdowns[j]? with
  | some .stopped =>
    match c.pipeline.offer .marker with
    | .queued p => some ({ c with pipeline := p }.setShutdown j .marked)
    | .full => none
    | .refused => some (c.setShutdown j .marked)
  | _ => none

/-- The state after an action; `none` if the action cannot happen now. -/
def step (s : Sink κ) (c : MetricsCalls κ) : Action → Option (MetricsCalls κ)
  | .callSubmit r => some { c with submissions := c.submissions ++ [⟨r, .called⟩] }
  | .ask i => c.stepAsk i
  | .send i => c.stepSend i
  | .callShutdown => some { c with shutdowns := c.shutdowns ++ [.called] }
  | .begin j => c.stepBegin j
  | .stopAccepting j =>
    match c.shutdowns[j]? with
    | some .begun => some ({ c with pipeline := c.pipeline.stopAccepting }.setShutdown j .stopped)
    | _ => none
  | .mark j => c.stepMark j
  | .join j =>
    match c.shutdowns[j]? with
    | some .marked =>
      c.pipeline.join?.map fun (answer, p) =>
        { c with pipeline := p }.setShutdown j (.returned answer)
    | _ => none
  | .consume =>
    (c.pipeline.consume s).map fun (p, report) =>
      { c with pipeline := p, reports := c.reports ++ report.toList }

/-- The state after some actions. -/
def run (s : Sink κ) : MetricsCalls κ → List Action → Option (MetricsCalls κ)
  | c, [] => some c
  | c, a :: rest => (c.step s a).bind fun c => run s c rest

end MetricsCalls

end WorkloadReplay
