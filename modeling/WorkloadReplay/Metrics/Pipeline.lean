import WorkloadReplay.Metrics.Collector
import WorkloadReplay.ReplayError
import WorkloadReplay.Text.Quoted

/-!
# The metrics pipeline

Records pass through a bounded queue to a consumer of their own. To shut the pipeline down, it stops
accepting records, a marker is sent through the queue, and the consumer, when it meets the marker,
closes the queue, takes up what is left in it, and leaves the results.

Every action of the pipeline that another may come before or after is a function of its own here:
`offer` sends a message, `consume` is one step of the consumer, and `begin?`, `stopAccepting` and
`join?` are the steps of a shutdown beside the sending of the marker. `submit` and `shutdown` put
them together for a caller that has the pipeline for itself.
-/

namespace WorkloadReplay

/-- What passes through the queue. -/
inductive Message where
  | record (r : MetricsRecord)
  /-- Nothing is to be taken up after what is in the queue. -/
  | marker
  deriving DecidableEq

/-- Where the consumer stands. -/
inductive ConsumerPhase where
  /-- Before the marker. -/
  | receiving
  /-- After the marker, before the queue is closed. -/
  | closing
  /-- After the queue is closed. -/
  | draining
  /-- At its end, with the results. -/
  | finished (results : ResultsSnapshot)
  /-- Broken down, with a text. -/
  | broken (text : String)
  deriving DecidableEq

/-- The queue, its consumer, and what is known of a shutdown. -/
structure MetricsPipeline (κ : Type) where
  capacity : Nat
  /-- New records are accepted. -/
  accepting : Bool
  /-- What is in the queue, first out first. -/
  queue : List Message
  phase : ConsumerPhase
  collector : Collector κ
  /-- A shutdown has begun. -/
  shutdownBegun : Bool
  /-- The results, once a shutdown has succeeded. -/
  snapshot : Option ResultsSnapshot

/-- What becomes of a message that is sent. -/
inductive Offer (κ : Type) where
  | queued (p : MetricsPipeline κ)
  /-- The queue is full; the sender waits. -/
  | full
  /-- The queue is closed. -/
  | refused

namespace MetricsPipeline

variable {κ : Type}

/-- The most that a queue can be asked to hold. -/
def maxCapacity : Nat := 0x1fffffffffffffff

/-- The text with which a queue or a pool breaks down that is asked to hold more. -/
def capacityText : String :=
  "a semaphore may not have more than MAX_PERMITS permits (" ++ toString maxCapacity ++ ")"

/-- A pipeline with an empty queue, of room for one message at least. -/
def fresh (config : MetricsConfig) (sink : κ) (active : Bool) : Except String (MetricsPipeline κ) :=
  let capacity := max config.queueCapacity 1
  if maxCapacity < capacity then .error capacityText
  else .ok ⟨capacity, true, [], .receiving, Collector.fresh config sink active, false, none⟩

/-- Messages are refused. -/
def isClosed (p : MetricsPipeline κ) : Bool :=
  match p.phase with
  | .receiving => false
  | .closing => false
  | _ => true

/-- Sends a message. -/
def offer (m : Message) (p : MetricsPipeline κ) : Offer κ :=
  if p.isClosed then .refused
  else if p.queue.length < p.capacity then .queued { p with queue := p.queue ++ [m] }
  else .full

/-- The pipeline after a call of its collector, with the report of that call. -/
def afterCollector (p : MetricsPipeline κ) :
    Collector.Outcome κ → MetricsPipeline κ × Option String
  | .on c report => ({ p with collector := c }, report)
  | .broken text k =>
    ({ p with
        phase := .broken text, queue := [], collector := { p.collector with sink := k } }, none)

/-- The end of the consumer: the sink is flushed and the results are left. -/
def conclude (s : Sink κ) (p : MetricsPipeline κ) : MetricsPipeline κ × Option String :=
  let (p, report) := p.afterCollector (p.collector.finish s)
  match p.phase with
  | .broken _ => (p, report)
  | _ => ({ p with phase := .finished p.collector.results.snapshot }, report)

/-- One step of the consumer, with what it reports; `none` while it waits and after its end. -/
def consume (s : Sink κ) (p : MetricsPipeline κ) : Option (MetricsPipeline κ × Option String) :=
  match p.phase, p.queue with
  | .receiving, .record r :: rest =>
    some ({ p with queue := rest }.afterCollector (p.collector.take s r))
  | .receiving, .marker :: rest => some ({ p with queue := rest, phase := .closing }, none)
  | .receiving, [] => none
  | .closing, _ => some ({ p with phase := .draining }, none)
  | .draining, .record r :: rest =>
    some ({ p with queue := rest }.afterCollector (p.collector.take s r))
  | .draining, .marker :: rest => some ({ p with queue := rest }, none)
  | .draining, [] => some (p.conclude s)
  | .finished _, _ => none
  | .broken _, _ => none

/-- Begins a shutdown; `none` if one has begun before. -/
def begin? (p : MetricsPipeline κ) : Option (MetricsPipeline κ) :=
  if p.shutdownBegun then none else some { p with shutdownBegun := true }

/-- New records are refused from now on. -/
def stopAccepting (p : MetricsPipeline κ) : MetricsPipeline κ := { p with accepting := false }

/-- Waits for the consumer's end and keeps its results; `none` until then. -/
def join? (p : MetricsPipeline κ) : Option (Except ReplayError Unit × MetricsPipeline κ) :=
  match p.phase with
  | .finished results => some (.ok (), { p with snapshot := some results })
  | .broken text =>
    some (.error (.join ("metrics consumer: task N panicked with message " ++ Text.quote text)), p)
  | _ => none

/-- The results of a pipeline that has been shut down. -/
def results (p : MetricsPipeline κ) : Except ReplayError ResultsSnapshot :=
  match p.snapshot with
  | some s => .ok s
  | none => .error .metricsNotFinalized

/-- The refusal of a record. -/
def closedError : ReplayError := .serviceClosed Collector.name

/-! ## A caller that is alone -/

/-- How many steps the consumer may still take. -/
def work (p : MetricsPipeline κ) : Nat :=
  p.queue.length + match p.phase with
    | .receiving => 3
    | .closing => 2
    | .draining => 1
    | _ => 0

/-- Lets the consumer go on until it waits or ends; the reports come in order. -/
def settle (s : Sink κ) : Nat → MetricsPipeline κ → List String → MetricsPipeline κ × List String
  | 0, p, reports => (p, reports)
  | fuel + 1, p, reports =>
    match p.consume s with
    | none => (p, reports)
    | some (p, report) => settle s fuel p (reports ++ report.toList)

/-- Lets the consumer go on as far as it can. -/
def settled (s : Sink κ) (p : MetricsPipeline κ) : MetricsPipeline κ × List String :=
  settle s (p.work + 1) p []

/-- Submits a record, with the consumer keeping up. -/
def submit (s : Sink κ) (r : MetricsRecord) (p : MetricsPipeline κ) :
    Except ReplayError Unit × MetricsPipeline κ × List String :=
  if p.accepting then
    match p.offer (.record r) with
    | .queued p => (.ok (), p.settled s)
    | .full => (.error closedError, p, [])
    | .refused => (.error closedError, p, [])
  else (.error closedError, p, [])

/-- Shuts the pipeline down, with the consumer going on to its end. -/
def shutdown (s : Sink κ) (p : MetricsPipeline κ) :
    Except ReplayError Unit × MetricsPipeline κ × List String :=
  match p.begin? with
  | none => (.ok (), p, [])
  | some p =>
    let p := p.stopAccepting
    let (p, before) := p.settled s
    let p := match p.offer .marker with
      | .queued p => p
      | _ => p
    let (p, after) := p.settled s
    match p.join? with
    | some (answer, p) => (answer, p, before ++ after)
    | none => (.error closedError, p, before ++ after)

end MetricsPipeline

end WorkloadReplay
