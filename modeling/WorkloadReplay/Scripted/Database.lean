import WorkloadReplay.Database

/-!
# Scripted databases

A database that plays a prepared part: each operation type is answered by a reply fixed in advance,
and initialization and shutdown fail when the script says so. With scripts a run can be rehearsed
against every way in which a database may end a call.
-/

namespace WorkloadReplay

/-- How a scripted database answers the operations of a type. -/
inductive ScriptedReply (P : Type) where
  /-- With a value made from the payload. -/
  | echo (value : P → Json)
  /-- With the number of counted calls before this one. -/
  | count
  | answer (value : Json)
  /-- With an error. -/
  | refuse (reason : String)
  /-- By breaking down. -/
  | breakDown (text : String)
  /-- Never. -/
  | hang

/-- The part of a database. A type without a reply has no handler. -/
structure DatabaseScript (P : Type) where
  replies : List (String × ScriptedReply P)
  /-- A parameter that has to be a number, if it is there. -/
  numberParam : Option String
  initError : Option String
  shutdownError : Option String

namespace DatabaseScript

/-- The calls made so far, last first, and how many of them were counted. -/
structure State where
  calls : List (String × Instant)
  counted : Nat

/-- No calls yet. -/
def State.fresh : State := ⟨[], 0⟩

variable {P : Type}

/-- How a call ends that is answered by `reply`, after `counted` counted calls. -/
def outcome (op : Operation P) (counted : Nat) : Option (ScriptedReply P) → CallOutcome
  | none => .returned (.error (.unsupported op.operationType))
  | some (.echo value) => .returned (.ok (value op.payload))
  | some .count => .returned (.ok (.obj [("n", .nat counted)]))
  | some (.answer value) => .returned (.ok value)
  | some (.refuse reason) => .returned (.error (.execution op.operationType reason))
  | some (.breakDown text) => .panicked text
  | some .hang => .stuck

/-- The number of counted calls after one that is answered by `reply`. -/
def countedAfter (counted : Nat) : Option (ScriptedReply P) → Nat
  | some .count => counted + 1
  | _ => counted

/-- Fails with the error of a text, if there is one. -/
def check (error : String → DatabaseError) (text : Option String) : Except DatabaseError Unit :=
  match text with
  | some t => .error (error t)
  | none => .ok ()

/-- Initialization reads the number first and then fails if it has to. -/
def begin (script : DatabaseScript P) (params : Params) : Except DatabaseError Unit :=
  match script.numberParam.map (params.parse Text.readSigned) with
  | some (.error e) => .error (.ofParam e)
  | _ => check .init script.initError

/-- The database that plays a script. -/
def database (script : DatabaseScript P) : Database State P where
  fresh := .fresh
  init params s := (script.begin params, s)
  execute op s :=
    let reply := (script.replies.find? (·.1 = op.operationType)).map (·.2)
    (outcome op s.counted reply,
      ⟨(op.operationType, op.scheduledStart) :: s.calls, countedAfter s.counted reply⟩)
  pause _ := .zero
  shutdown s := (check .shutdown script.shutdownError, s)

end DatabaseScript

end WorkloadReplay
