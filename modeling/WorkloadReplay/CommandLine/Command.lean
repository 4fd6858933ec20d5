import WorkloadReplay.Client.Modes
import WorkloadReplay.CommandLine.Reading

/-!
# The command

What the command leaves: a code, what it prints, and files. `Command.run` is the command from its
words on, with an execution played as a simulation.
-/

namespace WorkloadReplay

/-- What the command leaves. -/
structure CommandResult where
  code : Nat
  out : String
  /-- The lines of the error output. -/
  err : List String

namespace Command

/-- The name of the command. -/
def name : String := "benchdrive"

/-- The name and the version of the command. -/
def versionText : String := name ++ " 0.1.0\n"

/-- An option as it is listed. -/
def optionLine (o : CommandLine.OptionSpec) : String :=
  let letter := o.letter.elim "      " fun c => "  -" ++ c.toString ++ ", "
  let value := match o.action with
    | .value shown _ _ => " <" ++ shown ++ ">"
    | _ => ""
  letter ++ o.shown ++ value ++ "\n          " ++ o.help ++ "\n"

/-- The text of help. -/
def helpText : String :=
  "Replays timed benchmark workloads against a database\n\nUsage: " ++ name ++
    " [OPTIONS]\n\nOptions:\n" ++ String.join (CommandLine.options.map optionLine)

/-- The wording of a usage error. -/
def usageMessage : UsageError → String
  | .unknownArgument word => "unexpected argument '" ++ word ++ "' found"
  | .missingValue option => "a value is required for '" ++ option ++ "' but none was supplied"
  | .unreadableValue option value reason =>
    "invalid value '" ++ value ++ "' for '" ++ option ++ "': " ++ reason
  | .needlessValue option value =>
    "unexpected value '" ++ value ++ "' for '" ++ option ++ "' found; no more were expected"
  | .conflict first second =>
    "the argument '" ++ first ++ "' cannot be used " ++
      (if first = second then "multiple times" else "with '" ++ second ++ "'")
  | .missingOption option => "the following required arguments were not provided: " ++ option
  | .helpRequested => ""
  | .versionRequested => ""

/-- The result of a command line that is not read to its end. -/
def refuse : UsageError → CommandResult
  | .helpRequested => ⟨0, helpText, []⟩
  | .versionRequested => ⟨0, versionText, []⟩
  | e => ⟨2, "", ["error: " ++ usageMessage e]⟩

/-- The result of a session. An outcome is printed; of a run that has failed the results are. -/
def answer (mode : ClientMode) : Except ClientStop ClientOutcome → CommandResult
  | .ok outcome =>
    if outcome.isSuccessful then ⟨0, outcome.render ++ "\n", []⟩
    else ⟨1, outcome.render ++ "\n", [name ++ ": validation: " ++ mode.name ++ " failed"]⟩
  | .error (.failed e) =>
    ⟨1, e.partialReport?.elim "" fun r => r.results.render ++ "\n", [name ++ ": " ++ e.message]⟩
  | .error (.broken (.panicked text)) => ⟨101, "", [text]⟩
  | .error (.broken .stuck) => ⟨101, "", ["nothing goes on any more"]⟩

/-- The directory for logs in the directory for results, if that is or can be one. -/
def logDirectory? (s : Settings) (files : Files) : Option String :=
  (s.resultsDir.filter fun dir => !files.isFile dir).map fun dir => joinPath dir "logs"

/-- The files with the directory for logs; `none` if it cannot be made. -/
def makeLogDirectory (s : Settings) (files : Files) : Option Files :=
  match logDirectory? s files with
  | none => some files
  | some dir => files.makeDirectories dir

/-- The result where the directory for logs cannot be made. -/
def withoutLogs : CommandResult := ⟨101, "", ["initializing rolling file appender failed"]⟩

/-- The command, and the files that it leaves. -/
def run {δ ω P : Type} (registry : Registry δ ω P) (codec : PayloadCodec P) (clock : Clock)
    (database : δ) (workload : ω) (files : Files) (words : List String) :
    CommandResult × Files :=
  match CommandLine.read words with
  | .error e => (refuse e, files)
  | .ok arguments =>
    let s := arguments.settings
    match makeLogDirectory s files with
    | none => (withoutLogs, files)
    | some files =>
      let (ended, state) :=
        Client.run s registry codec clock (Client.freshState files database workload)
      (answer s.mode ended, state.files)

end Command

end WorkloadReplay
