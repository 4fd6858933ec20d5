import WorkloadReplay.Run.State

/-!
# The steps of a run

`Run.step` says what one event does to the state of a run. The scheduler and each handler go on in
steps between which anything else may happen, and each of their steps that reads the clock is told
what the clock says. What is outside a run comes with the events: when the database answers and how,
what other peers report, and which errors other components report.

An event that cannot happen in a state has no result. So the scheduler's event has a result exactly
when the scheduler can go on: not while it sleeps, waits at a gate that is not reached, wants a
permit that is not free, or drains handlers that are still alive.
-/

namespace WorkloadReplay

/-- The answer of a database call that comes back. -/
inductive CallAnswer where
  | returned (answer : Except DatabaseError Json)
  | panicked (text : String)

/-- Something that happens in a run. -/
inductive RunEvent where
  /-- The scheduler goes on. The clock says `now`, and the time for waiting at a gate is over if
  `expired`. -/
  | schedule (now : Instant) (expired : Bool)
  /-- A handler gets a worker and calls the database. -/
  | execute (number : Nat) (now : Instant)
  /-- The database answers a handler's call after a time. -/
  | answer (number : Nat) (answer : CallAnswer) (elapsed : Duration)
  /-- A handler sends its record. -/
  | submit (number : Nat)
  /-- The consumer of the metrics pipeline takes a step. -/
  | consume
  /-- The time for draining is over. -/
  | expire (now : Instant)
  /-- Another peer claims a slot. -/
  | peerClaims
  /-- Another peer reports an initiated time through its slot. -/
  | peerInitiated (slot : Nat) (time : Instant)
  /-- Another peer reports a completed time through its slot. -/
  | peerCompleted (slot : Nat) (time : Instant)
  /-- The completion time service is shut down. -/
  | completionShutdown
  /-- Another component reports an error. -/
  | report (source message : String)

namespace Run

variable {P κ : Type}

/-- The run with an error of the scheduler reported. -/
def fail (r : Run P κ) (e : ReplayError) : Run P κ := { r with log := r.log.reportError e }

/-- The run with the scheduler in a phase. -/
def goTo (r : Run P κ) (phase : SchedulerPhase P) : Run P κ := { r with phase := phase }

/-! ## The beginning -/

/-- The time that every peer must have reached before the run begins, just before its start. -/
def readyTime? (start : Instant) : Option Instant := start.sub? (Duration.saturating 2)

/-- A start before which no time is left. -/
def tooEarly (start : Instant) : ReplayError :=
  .invalidState ("start " ++ start.toText ++ " too early")

/-- The beginning of the run proper; the pools may be asked to hold too many permits. -/
def launch (setup : RunSetup κ) (r : Run P κ) : Run P κ :=
  match setup.config.flowControl with
  | .error text => r.goTo (.broken text)
  | .ok flow => { r with flow := flow, phase := .pulling }

/-- The tracker reports that everything before the start is complete, in two steps. -/
def seed (start : Instant) (t : CompletionTracker) (r : Run P κ) : Run P κ :=
  let refuse (r : Run P κ) (e : ReplayError) : Run P κ := (r.fail e).goTo (.refused e)
  match readyTime? start with
  | none => r.goTo (.refused (tooEarly start))
  | some first =>
    match t.seed r.completion first with
    | (.error e, _, completion) => refuse { r with completion := completion } e
    | (.ok (), t, completion) =>
      let r := { r with completion := completion }
      match start.sub? Duration.one with
      | none => r.goTo (.refused (tooEarly start))
      | some second =>
        match t.seed r.completion second with
        | (.error e, _, completion) => refuse { r with completion := completion } e
        | (.ok (), t, completion) =>
          { r with completion := completion, tracker := some t, phase := .awaitingPeers }

/-- The first step: where there are peers, this one claims a slot and reports its start. -/
def begin (setup : RunSetup κ) (r : Run P κ) : Run P κ :=
  if r.completion.slotCount = 0 then r.launch setup
  else
    match r.completion.claim with
    | .error e => (r.fail e).goTo (.refused e)
    | .ok (slot, completion) =>
      { r with completion := completion }.seed setup.start (CompletionTracker.ofSlot slot)

/-- What a wait for the global completion time finds: it is reached, or it is waited for in vain;
`none` while there is still hope. -/
def awaited (r : Run P κ) (target : Instant) (expired : Bool) : Option Bool :=
  if r.completion.hasReached target then some true
  else if r.completion.closed || expired then some false
  else none

/-- The wait for the other peers. -/
def awaitPeers (setup : RunSetup κ) (r : Run P κ) (expired : Bool) : Option (Run P κ) :=
  let target := (readyTime? setup.start).getD setup.start
  (r.awaited target expired).map fun reached =>
    if reached then r.launch setup
    else
      let e := ReplayError.gctTimeout target setup.config.initializationTimeout
      (r.fail e).goTo (.refused e)

/-! ## Dispatching -/

/-- The scheduler takes notice of the handlers that have ended. -/
def reap (r : Run P κ) : Run P κ :=
  { r with
    finished := []
    log := r.finished.foldl (fun log result => match result with
      | .ok () => log
      | .error e => log.reportError e) r.log }

/-- The next batch, unless there is none or an error has been reported. -/
def pull (setup : RunSetup κ) (r : Run P κ) : Run P κ :=
  match nextBatch setup.config.window r.operations with
  | none => r.goTo .draining
  | some batch =>
    let r := r.reap
    match batch with
    | .error (.panicked text) => r.goTo (.broken text)
    | .error e => if r.log.hasErrors then r.goTo .draining else (r.fail e).goTo .draining
    | .ok batch =>
      let r := { r with operations := batch.rest }
      if r.log.hasErrors then r.goTo .draining
      else if setup.config.ignoreScheduledStarts then r.goTo (.dispatching batch.operations)
      else r.goTo (.sleeping batch.first batch.others)

/-- The scheduler looks at the clock while it sleeps. -/
def wake (r : Run P κ) (now : Instant) (first : ScheduledOperation P)
    (others : List (ScheduledOperation P)) : Option (Run P κ) :=
  if r.log.hasErrors then some (r.goTo .draining)
  else if first.operation.scheduledStart ≤ now then some (r.goTo (.dispatching (first :: others)))
  else
    match first.operation.scheduledStart.since now with
    | .error e => some (r.goTo (.broken e.message))
    | .ok _ => none

/-- The next operation of a batch, unless an error has been reported. -/
def choose (r : Run P κ) : List (ScheduledOperation P) → Run P κ
  | [] => r.goTo .pulling
  | next :: batch =>
    if r.log.hasErrors then r.goTo .draining
    else if next.operation.isGated then r.goTo (.gating next batch)
    else r.goTo (.judging next batch)

/-- The gate of an operation. -/
def gate (setup : RunSetup κ) (r : Run P κ) (expired : Bool) (next : ScheduledOperation P)
    (batch : List (ScheduledOperation P)) : Option (Run P κ) :=
  let target := next.operation.dependencyTime
  (r.awaited target expired).map fun reached =>
    if reached then r.goTo (.judging next batch)
    else (r.fail (.gctTimeout target setup.config.gctWaitTimeout)).goTo .draining

/-- The check of an operation's delay. -/
def judge (setup : RunSetup κ) (r : Run P κ) (now : Instant) (next : ScheduledOperation P)
    (batch : List (ScheduledOperation P)) : Run P κ :=
  match setup.config.delayChecker.check next.operation now with
  | .onTime => r.goTo (.admitting next batch)
  | .recorded _ => { r with delayBreaches := r.delayBreaches + 1 }.goTo (.admitting next batch)
  | .breach e => ({ r with delayBreaches := r.delayBreaches + 1 }.fail e).goTo .draining

/-- An operation gets its handler. -/
def spawn (r : Run P κ) (next : ScheduledOperation P) : Run P κ :=
  let number := r.dispatched.size
  { r with
    dispatched := r.dispatched.push next
    unrecorded := r.unrecorded ++
      [(number, ⟨next.operation.operationType, next.operation.scheduledStart⟩)]
    handlers := r.handlers ++ [⟨number, next, .waiting⟩] }

/-- An operation is dispatched as soon as there is a permit for it. A tracked one is initiated
first. -/
def dispatch (r : Run P κ) (next : ScheduledOperation P) (batch : List (ScheduledOperation P)) :
    Option (Run P κ) :=
  match r.flow.inFlight.request with
  | .pending => none
  | .refused => some ((r.fail FlowControl.inFlightClosed).goTo .draining)
  | .acquired pool =>
    match next.tracked, r.tracker with
    | true, some t =>
      match t.initiate r.completion next.operation.scheduledStart with
      | (.error e, t, completion) =>
        some (({ r with tracker := some t, completion := completion }.fail e).goTo .draining)
      | (.ok (), t, completion) =>
        some ({ r with
          tracker := some t
          completion := completion
          flow := { r.flow with inFlight := pool } }.spawn next |>.goTo (.dispatching batch))
    | _, _ =>
      some ({ r with flow := { r.flow with inFlight := pool } }.spawn next
        |>.goTo (.dispatching batch))

/-! ## Handlers -/

/-- The handler of a number. -/
def handler? (r : Run P κ) (number : Nat) : Option (Handler P) :=
  r.handlers.find? (·.number = number)

/-- A handler moves on to a phase. -/
def setPhase (r : Run P κ) (number : Nat) (phase : HandlerPhase) : Run P κ :=
  { r with handlers := r.handlers.map fun h =>
      if h.number = number then { h with phase := phase } else h }

/-- A handler ends, and its permit to be alive is free again. -/
def endHandler (r : Run P κ) (number : Nat) (result : Except ReplayError Unit) : Run P κ :=
  { r with
    handlers := r.handlers.filter (·.number ≠ number)
    finished := r.finished ++ [result]
    flow := r.flow.releaseInFlight }

/-- A handler that waits gets a worker. -/
def startCall (r : Run P κ) (number : Nat) (now : Instant) : Option (Run P κ) :=
  match r.handler? number with
  | some ⟨_, _, .waiting⟩ =>
    match r.flow.workers.request with
    | .acquired pool =>
      some ({ r with flow := { r.flow with workers := pool } }.setPhase number (.executing now))
    | .pending => none
    | .refused => some (r.endHandler number (.error FlowControl.workersClosed))
  | _ => none

/-- The error of a handler whose database call broke down. -/
def callPanicked (text : String) : ReplayError :=
  .join ("database call: task N panicked with message " ++ Text.quote text)

/-- The database answers a handler, which gives its worker back and has a record to submit. -/
def finishCall (r : Run P κ) (number : Nat) (answer : CallAnswer) (elapsed : Duration) :
    Option (Run P κ) :=
  match r.handler? number with
  | some ⟨_, scheduled, .executing start⟩ =>
    let r := { r with flow := r.flow.releaseWorker }
    match answer with
    | .panicked text => some (r.endHandler number (.error (callPanicked text)))
    | .returned result =>
      let record : MetricsRecord :=
        ⟨scheduled.operation.operationType, scheduled.operation.scheduledStart, start, elapsed,
          result.toBool⟩
      if r.metrics.accepting then some (r.setPhase number (.submitting record))
      else some (r.endHandler number (.error MetricsPipeline.closedError))
  | _ => none

/-- A handler whose record is in the queue completes its operation and ends. -/
def settleHandler (r : Run P κ) (h : Handler P) (success : Bool) : Run P κ :=
  let r := { r with unrecorded := r.unrecorded.filter (·.1 ≠ h.number) }
  let count (r : Run P κ) : Run P κ :=
    { r with completed := r.completed + 1, failed := if success then r.failed else r.failed + 1 }
  match h.scheduled.tracked, r.tracker with
  | true, some t =>
    match t.complete r.completion h.scheduled.operation.scheduledStart with
    | (.error e, t, completion) =>
      { r with tracker := some t, completion := completion }.endHandler h.number (.error e)
    | (.ok (), t, completion) =>
      (count { r with tracker := some t, completion := completion }).endHandler h.number (.ok ())
  | _, _ => (count r).endHandler h.number (.ok ())

/-- A handler sends its record. -/
def sendRecord (r : Run P κ) (number : Nat) : Option (Run P κ) :=
  match r.handler? number with
  | some ⟨n, scheduled, .submitting record⟩ =>
    match r.metrics.offer (.record record) with
    | .full => none
    | .refused => some (r.endHandler number (.error MetricsPipeline.closedError))
    | .queued metrics =>
      some ({ r with metrics := metrics }.settleHandler ⟨n, scheduled, .submitting record⟩
        record.success)
  | _ => none

/-! ## The end -/

/-- The end of the run. -/
def terminate (r : Run P κ) (now : Instant) : Run P κ :=
  { r with flow := r.flow.close, phase := .terminated now }

/-- The scheduler takes notice of ended handlers until none is left. -/
def drain (r : Run P κ) (now : Instant) : Option (Run P κ) :=
  match r.finished, r.handlers with
  | [], [] => some (r.terminate now)
  | [], _ => none
  | _, _ => some r.reap

/-- Abandoned operations in the order in which they are listed. -/
def sortAbandoned (l : List AbandonedOperation) : List AbandonedOperation :=
  l.mergeSort AbandonedOperation.before

/-- Every operation with no record is listed as abandoned and reported. -/
def listAbandoned (setup : RunSetup κ) (r : Run P κ) : Run P κ :=
  let abandoned := sortAbandoned (r.unrecorded.map (·.2))
  { r with
    unrecorded := []
    abandoned := abandoned
    log := abandoned.foldl (fun log a => log.reportError
      (.drainTimeout a.operationType a.scheduledStart setup.config.drainGrace)) r.log }

/-- The handlers that are left are given up, and their permits are free again; every operation with
no record is reported. Database calls go on. All handlers are gone at once here; `AbortingRun` says
what can happen between the first and the last of them. -/
def abandon (setup : RunSetup κ) (r : Run P κ) : Run P κ :=
  { r.listAbandoned setup with
    orphanedCalls := r.callsInProgress
    flow := r.flow.releaseAll r.handlers.length (r.handlers.countP Handler.isExecuting)
    handlers := [] }

/-- The time for draining is over: the run ends, in one step. -/
def expireDrain (setup : RunSetup κ) (r : Run P κ) (now : Instant) : Option (Run P κ) :=
  match r.phase with
  | .draining =>
    let r := r.reap
    some ((if r.handlers.isEmpty then r else r.abandon setup).terminate now)
  | _ => none

/-! ## All events -/

/-- A step of the scheduler. -/
def scheduleStep (setup : RunSetup κ) (r : Run P κ) (now : Instant) (expired : Bool) :
    Option (Run P κ) :=
  match r.phase with
  | .idle => some (r.begin setup)
  | .awaitingPeers => r.awaitPeers setup expired
  | .pulling => some (r.pull setup)
  | .sleeping first others => r.wake now first others
  | .dispatching batch => some (r.choose batch)
  | .gating next batch => r.gate setup expired next batch
  | .judging next batch => some (r.judge setup now next batch)
  | .admitting next batch => r.dispatch next batch
  | .draining => r.drain now
  | .terminated _ => none
  | .refused _ => none
  | .broken _ => none

/-- A step of the consumer of the metrics pipeline. -/
def consumeStep (setup : RunSetup κ) (r : Run P κ) : Option (Run P κ) :=
  (r.metrics.consume setup.sink).map fun (metrics, report) =>
    { r with
      metrics := metrics
      log := report.elim r.log (r.log.report Collector.name) }

/-- The run with the completion time service replaced, unless a report was refused. -/
def withCompletion (r : Run P κ) : Except ReplayError CompletionService → Run P κ
  | .ok s => { r with completion := s }
  | .error _ => r

/-- Another peer has claimed a slot. -/
def isForeign (r : Run P κ) (slot : Nat) : Bool :=
  (r.completion.slots[slot]?).any PeerSlot.claimed && r.tracker.all fun t => t.slot != slot

/-- The state after an event; `none` if the event cannot happen. -/
def step (setup : RunSetup κ) (r : Run P κ) : RunEvent → Option (Run P κ)
  | .schedule now expired => r.scheduleStep setup now expired
  | .execute number now => r.startCall number now
  | .answer number answer elapsed => r.finishCall number answer elapsed
  | .submit number => r.sendRecord number
  | .consume => r.consumeStep setup
  | .expire now => r.expireDrain setup now
  | .peerClaims => some (r.withCompletion (r.completion.claim.map (·.2)))
  | .peerInitiated slot time =>
    if r.isForeign slot then some (r.withCompletion (r.completion.reportInitiated slot time))
    else none
  | .peerCompleted slot time =>
    if r.isForeign slot then some (r.withCompletion (r.completion.reportCompleted slot time))
    else none
  | .completionShutdown => some { r with completion := r.completion.shutdown }
  | .report source message => some { r with log := r.log.report source message }

/-- The state after some events, one after another. -/
def steps (setup : RunSetup κ) : Run P κ → List RunEvent → Option (Run P κ)
  | r, [] => some r
  | r, e :: rest => (r.step setup e).bind fun r => steps setup r rest

/-- A state that some events lead to. -/
def Reaches (setup : RunSetup κ) (r r' : Run P κ) : Prop := ∃ events, r.steps setup events = some r'

/-- How a run ends. -/
inductive RunEnd where
  | finished (summary : RunSummary)
  | refused (e : ReplayError)
  | panicked (text : String)
  deriving DecidableEq

/-- How the run has ended, if it has. -/
def end? (setup : RunSetup κ) (r : Run P κ) : Option RunEnd :=
  match r.phase with
  | .terminated finish => some (.finished (r.summary setup.start finish))
  | .refused e => some (.refused e)
  | .broken text => some (.panicked text)
  | _ => none

/-- A run begins once. -/
def checkIdle (state : RunnerState) : Except ReplayError Unit :=
  if state = .idle then .ok ()
  else .error (.invalidState ("workload already executed (runner is " ++ state.name ++ ")"))

end Run

end WorkloadReplay
