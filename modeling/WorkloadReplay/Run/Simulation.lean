import WorkloadReplay.Run.Step

/-!
# Simulated runs

A run on one thread and in its own time: a database answers after its pause, or never, and while
everybody waits the time moves on to the next moment at which something is due. `Simulation.turn`
picks the next event. The scheduler goes on whenever it can. While it wants a permit, handlers go on
one by one until there is a permit; while it waits for anything else, all handlers go on as far as
they can.
-/

namespace WorkloadReplay

/-- What the clock of a run says as time passes. -/
inductive Clock where
  /-- Always the same instant. -/
  | fixed (time : Instant)
  /-- An instant to begin with, and the time that has passed since. -/
  | running (start : Instant)

/-- The instant that a clock says after so many nanoseconds. -/
def Clock.read (elapsed : Nat) : Clock → Instant
  | fixed time => time
  | running start => start.addOrGreatest (Duration.saturating elapsed)

/-- The answer of a database call that its handler has not taken up. -/
structure PendingAnswer where
  /-- The number of the handler. -/
  number : Nat
  answer : CallAnswer
  /-- When the database was called. -/
  called : Nat
  /-- When the answer comes. -/
  ready : Nat

/-- A run, the database that it uses, and its time. -/
structure Simulation (σ P κ : Type) where
  run : Run P κ
  database : σ
  answers : List PendingAnswer
  /-- The nanoseconds that have passed. -/
  elapsed : Nat
  /-- When the scheduler came to where it is. -/
  waitingSince : Nat
  /-- What happens outside the run, and when, in order. -/
  due : List (Nat × RunEvent)

/-- What a simulation is set up with. -/
structure Scene (σ P κ : Type) where
  setup : RunSetup κ
  database : Database σ P
  clock : Clock

namespace Simulation

variable {σ P κ : Type}

/-- The instant that the clock says. -/
def now (c : Scene σ P κ) (s : Simulation σ P κ) : Instant := c.clock.read s.elapsed

/-- How long the scheduler waits in its phase before it gives up. -/
def waitLimit? (c : Scene σ P κ) (s : Simulation σ P κ) : Option Nat :=
  match s.run.phase with
  | .awaitingPeers => some c.setup.config.initializationTimeout.clampedNanos
  | .gating .. => some c.setup.config.gctWaitTimeout.clampedNanos
  | .draining => some c.setup.config.drainGrace.clampedNanos
  | _ => none

/-- When the scheduler goes on by itself. -/
def wakeTime? (c : Scene σ P κ) (s : Simulation σ P κ) : Option Nat :=
  match s.run.phase, c.clock with
  | .sleeping first _, .running _ =>
    some (s.elapsed + (first.operation.scheduledStart.nanos - (s.now c).nanos).toNat)
  | _, _ => (s.waitLimit? c).map (s.waitingSince + ·)

/-- The time for waiting is over. -/
def isExpired (c : Scene σ P κ) (s : Simulation σ P κ) : Bool :=
  (s.waitLimit? c).any fun limit => s.waitingSince + limit ≤ s.elapsed

/-- The simulation after an event of its run. -/
def after? (c : Scene σ P κ) (s : Simulation σ P κ) (e : RunEvent) : Option (Simulation σ P κ) :=
  (s.run.step c.setup e).map fun run => { s with run := run }

/-- The scheduler goes on. The time for draining counts from where the draining began. -/
def scheduler? (c : Scene σ P κ) (s : Simulation σ P κ) : Option (Simulation σ P κ) :=
  (s.after? c (.schedule (s.now c) (s.isExpired c))).map fun t =>
    match s.run.phase with
    | .draining => t
    | _ => { t with waitingSince := s.elapsed }

/-- The consumer of the metrics pipeline goes on as far as it can. -/
def consumeAll (c : Scene σ P κ) : Nat → Simulation σ P κ → Simulation σ P κ
  | 0, s => s
  | fuel + 1, s =>
    match s.after? c .consume with
    | none => s
    | some t => consumeAll c fuel t

/-- The database executes the operation of a handler that has just got its worker. -/
def callDatabase (c : Scene σ P κ) (h : Handler P) (s : Simulation σ P κ) : Simulation σ P κ :=
  let (outcome, database) := c.database.execute h.scheduled.operation s.database
  let answered (answer : CallAnswer) : Simulation σ P κ :=
    let ready := s.elapsed + (c.database.pause s.database).clampedNanos
    { s with database := database, answers := ⟨h.number, answer, s.elapsed, ready⟩ :: s.answers }
  match outcome with
  | .returned answer => answered (.returned answer)
  | .panicked text => answered (.panicked text)
  | .stuck => { s with database := database }

/-- A handler goes on, if it can. -/
def handler? (c : Scene σ P κ) (s : Simulation σ P κ) (h : Handler P) :
    Option (Simulation σ P κ) :=
  match h.phase with
  | .waiting => (s.after? c (.execute h.number (s.now c))).map (callDatabase c h)
  | .executing _ =>
    match s.answers.find? fun a => a.number = h.number && a.ready ≤ s.elapsed with
    | none => none
    | some a =>
      let took := Duration.saturating (s.elapsed - a.called : Nat)
      (s.after? c (.answer h.number a.answer took)).map
        fun t => { t with answers := t.answers.filter (·.number ≠ h.number) }
  | .submitting _ =>
    (s.after? c (.submit h.number)).map fun t => consumeAll c (t.run.metrics.work + 1) t

/-- The first handler that can goes on. -/
def anyHandler? (c : Scene σ P κ) (s : Simulation σ P κ) : Option (Simulation σ P κ) :=
  s.run.handlers.findSome? (s.handler? c)

/-- All handlers go on as far as they can; none takes more than three steps. -/
def settleHandlers (c : Scene σ P κ) : Nat → Simulation σ P κ → Simulation σ P κ
  | 0, s => s
  | fuel + 1, s =>
    match s.anyHandler? c with
    | none => s
    | some t => settleHandlers c fuel t

/-- When the next answer comes. -/
def answerTime? (s : Simulation σ P κ) : Option Nat :=
  ((s.answers.map PendingAnswer.ready).filter (s.elapsed < ·)).min?

/-- The next moment at which something is due. -/
def nextTime? (c : Scene σ P κ) (s : Simulation σ P κ) : Option Nat :=
  (s.due.head?.map (·.1)).toList ++ s.answerTime?.toList ++ (s.wakeTime? c).toList |>.min?

/-- The time for draining may be over. -/
def lapse (c : Scene σ P κ) (s : Simulation σ P κ) : Simulation σ P κ :=
  match s.run.phase with
  | .draining => if s.isExpired c then (s.after? c (.expire (s.now c))).getD s else s
  | _ => s

/-- A moment has come. What is due then outside the run happens, or else the time for draining may
be over; everything else goes on by itself. -/
def arrive (c : Scene σ P κ) (time : Nat) (s : Simulation σ P κ) : Simulation σ P κ :=
  let s := { s with elapsed := max s.elapsed time }
  match s.due with
  | (t, e) :: rest =>
    if t ≤ time then
      let s := { s with due := rest }
      (s.after? c e).getD s
    else s.lapse c
  | [] => s.lapse c

/-- Time passes until the scheduler or a handler goes on or something happens outside the run. -/
def passTime? (c : Scene σ P κ) (s : Simulation σ P κ) : Option (Simulation σ P κ) :=
  (s.nextTime? c).map fun time => s.arrive c time

/-- The next thing that happens. -/
def turn (c : Scene σ P κ) (s : Simulation σ P κ) : Option (Simulation σ P κ) :=
  match s.scheduler? c with
  | some t => some t
  | none =>
    match s.anyHandler? c with
    | none => s.passTime? c
    | some t =>
      match s.run.phase with
      | .admitting .. => some t
      | _ => some (settleHandlers c (3 * t.run.handlers.length) t)

/-- The simulation after so many turns, or after its end. -/
def play (c : Scene σ P κ) : Nat → Simulation σ P κ → Simulation σ P κ
  | 0, s => s
  | fuel + 1, s =>
    match s.run.end? c.setup with
    | some _ => s
    | none =>
      match s.turn c with
      | none => s
      | some t => play c fuel t

/-- More turns than any run takes. -/
def patience : Nat := 0x4000000000000000

/-- The simulation at its beginning. -/
def fresh (run : Run P κ) (database : σ) (due : List (Nat × RunEvent)) : Simulation σ P κ :=
  ⟨run, database, [], 0, 0, due⟩

/-- The simulation of a run, from its beginning to where nothing goes on any more. -/
def simulate (c : Scene σ P κ) (run : Run P κ) (database : σ) (due : List (Nat × RunEvent)) :
    Simulation σ P κ :=
  (fresh run database due).play c patience

end Simulation

end WorkloadReplay
