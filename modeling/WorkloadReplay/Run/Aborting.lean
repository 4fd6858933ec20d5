import WorkloadReplay.Run.Step

/-!
# Handlers aborted one by one

When the time for draining is over, the handlers that are left are told to stop. Each of them is
dropped by the thread that comes to it next, so they go one by one, in any order, with other threads
at work in between: until it is dropped a handler goes on as before, also with a permit that another
one has just given back. The scheduler does not wait for them. It lists and reports the operations
with no record, closes the pools and ends the run, while handlers may still be there.

`Run.expireDrain` takes all of this as one step, as it is where everything happens on one thread.
`AbortingRun` takes it apart.
-/

namespace WorkloadReplay

variable {P κ : Type}

/-- A run, and whether its handlers are being aborted. -/
structure AbortingRun (P κ : Type) where
  run : Run P κ
  /-- The time for draining is over, and handlers were left. -/
  aborting : Bool

/-- Something that happens in a run whose handlers are aborted one by one. -/
inductive AbortingEvent where
  /-- Something that is not the work of the abort; where the time for draining is over, only its
  beginning. -/
  | event (e : RunEvent)
  /-- A handler is dropped, wherever it stands. -/
  | drop (number : Nat)
  /-- A database call comes back whose handler is gone. -/
  | orphanReturns
  /-- The scheduler reports what has no record, and ends the run. -/
  | conclude (now : Instant)

/-- The event drops a handler. -/
def AbortingEvent.isDrop : AbortingEvent → Bool
  | drop _ => true
  | _ => false

/-- With the event, a handler asks for a worker to call the database. -/
def AbortingEvent.startsCall : AbortingEvent → Bool
  | event (.execute _ _) => true
  | _ => false

namespace Run

/-- A handler is dropped. Its permits are free again; if it has called the database, the call goes
on without it. -/
def dropHandler (r : Run P κ) (number : Nat) : Option (Run P κ) :=
  (r.handler? number).map fun h =>
    let calls := if h.isExecuting then 1 else 0
    { r with
      handlers := r.handlers.filter (·.number ≠ number)
      flow := r.flow.releaseAll 1 calls
      orphanedCalls := r.orphanedCalls + calls }

/-- A call comes back whose handler is gone; nobody takes up its answer. -/
def orphanReturns (r : Run P κ) : Option (Run P κ) :=
  if r.orphanedCalls = 0 then none else some { r with orphanedCalls := r.orphanedCalls - 1 }

end Run

namespace AbortingRun

/-- A run that has not begun, with services that others may use too. -/
def fresh (operations : Schedule P) (completion : CompletionService)
    (metrics : MetricsPipeline κ) (log : ErrorLog) : AbortingRun P κ :=
  ⟨Run.fresh operations completion metrics log, false⟩

/-- The time for draining is over. If no handler is left, the run ends; otherwise those that are
left are going to be aborted. -/
def expire (a : AbortingRun P κ) (now : Instant) : Option (AbortingRun P κ) :=
  match a.run.phase with
  | .draining =>
    let r := a.run.reap
    some (if r.handlers.isEmpty then ⟨r.terminate now, a.aborting⟩ else ⟨r, true⟩)
  | _ => none

/-- The scheduler is done with the abort. -/
def conclude (setup : RunSetup κ) (a : AbortingRun P κ) (now : Instant) :
    Option (AbortingRun P κ) :=
  match a.run.phase with
  | .draining => some { a with run := (a.run.listAbandoned setup).terminate now }
  | _ => none

/-- The state after an event; `none` if the event cannot happen. During the abort the scheduler does
nothing else. -/
def step (setup : RunSetup κ) (a : AbortingRun P κ) : AbortingEvent → Option (AbortingRun P κ)
  | .event (.schedule now expired) =>
    if a.aborting then none
    else (a.run.step setup (.schedule now expired)).map ({ a with run := · })
  | .event (.expire now) => if a.aborting then none else a.expire now
  | .event e => (a.run.step setup e).map ({ a with run := · })
  | .drop number =>
    if a.aborting then (a.run.dropHandler number).map ({ a with run := · }) else none
  | .orphanReturns => a.run.orphanReturns.map ({ a with run := · })
  | .conclude now => if a.aborting then a.conclude setup now else none

/-- The state after some events, one after another. -/
def steps (setup : RunSetup κ) : AbortingRun P κ → List AbortingEvent → Option (AbortingRun P κ)
  | a, [] => some a
  | a, e :: rest => (a.step setup e).bind fun a => steps setup a rest

end AbortingRun

end WorkloadReplay
