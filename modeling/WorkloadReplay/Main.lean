import Std.Time.DateTime.Timestamp
import WorkloadReplay.Builtin
import WorkloadReplay.CommandLine.Command

/-!
# The program

The command on a real disk and in real time. What a session may look at is read from the disk first,
an execution is played by the clock, and what the session leaves is written back. Everything that is
decided is decided by `Client` and `Simulation`.
-/

namespace WorkloadReplay.Program

/-- The path of a place. -/
def pathOf (place : Place) : String :=
  if place = [""] then "/" else String.intercalate "/" place

/-- The text of a file; `none` if there is none that can be read. -/
def readText? (path : String) : IO (Option String) := do
  try
    return some (← IO.FS.readFile path)
  catch _ => return none

/-- The paths that a session under some settings may look at. -/
def pathsOf (s : Settings) : List String :=
  s.resultsDir.toList ++ match s.mode with
    | .validateDatabase path => [path]
    | .createValidationParams path _ => [path]
    | _ => []

/-- The files on the disk under some paths, and those on the way to them. -/
def load (paths : List String) : IO Files := do
  let mut files := Files.empty
  for path in paths do
    let place := Place.ofPath path
    for length in List.range place.length do
      let path := pathOf (place.take (length + 1))
      if let some text ← readText? path then files := files.add path text
  return files

/-- Writes to the disk what has changed. -/
def store (before after : Files) : IO Unit := do
  for place in after.directories do
    unless before.isDirectoryAt place do IO.FS.createDirAll (pathOf place)
  for (place, text) in after.texts do
    unless before.texts.contains (place, text) do IO.FS.writeFile (pathOf place) text

/-- The instant that the clock of the machine says. -/
def now : IO Instant := do
  return Instant.saturating (← Std.Time.Timestamp.now).toNanosecondsSinceUnixEpoch.val

/-- Plays a run by the clock of the machine, which said `began` at its beginning. -/
partial def play {σ P κ : Type} (c : Scene σ P κ) (began : Nat) (s : Simulation σ P κ) :
    IO (Simulation σ P κ) := do
  let s := { s with elapsed := max s.elapsed ((← IO.monoNanosNow) - began) }
  if (s.run.end? c.setup).isSome then return s
  match s.scheduler? c <|> s.anyHandler? c with
  | some s => play c began s
  | none =>
    match s.nextTime? c with
    | none => return s
    | some time =>
      if time ≤ s.elapsed then play c began (s.arrive c time)
      else
        IO.sleep ((time - s.elapsed) / 1000000).toUInt32
        play c began s

/-- The command with some arguments. -/
def run (arguments : Arguments) : IO CommandResult := do
  let s := arguments.settings
  let before ← load (pathsOf s)
  match Command.makeLogDirectory s before with
  | none => return Command.withoutLogs
  | some files =>
    let began ← IO.monoNanosNow
    let clock := Clock.running (← now)
    let state := Client.freshState files Builtin.DatabaseState.fresh {}
    match Client.begin s Builtin.registry KeyValuePayload.codec clock state with
    | .ended answer state =>
      store before state.files
      return Command.answer s.mode answer
    | .ready x state =>
      store before state.files
      let played ← play x.scene began (Simulation.fresh x.run state.database [])
      let (answer, after) := Client.conclude s x played.run played.database state
      store state.files after.files
      return Command.answer s.mode answer

end WorkloadReplay.Program

open WorkloadReplay in
/-- Reads the command line, does what it asks, and prints what comes of it. -/
def main (words : List String) : IO UInt32 := do
  let result ← match CommandLine.read words with
    | .error e => pure (Command.refuse e)
    | .ok arguments => Program.run arguments
  IO.print result.out
  for line in result.err do IO.eprintln line
  return result.code.toUInt32
