import WorkloadReplay.CommandLine.Arguments

/-!
# Options of the command

The options that the command knows, in a table: what each is called, what it takes and what it does
to the arguments. A value that cannot be read, and everything else that is wrong with a command
line, is a `UsageError`; asking for help or for the version ends the reading of a command line as
well.
-/

namespace WorkloadReplay

/-- Why a command line is not read to its end. -/
inductive UsageError where
  | unknownArgument (argument : String)
  /-- An option that takes a value has none. -/
  | missingValue (option : String)
  | unreadableValue (option value reason : String)
  /-- An option that takes no value has one. -/
  | needlessValue (option value : String)
  /-- Two options exclude each other. -/
  | conflict (first second : String)
  | missingOption (option : String)
  | helpRequested
  | versionRequested
  deriving DecidableEq

namespace CommandLine

/-- What is wrong with a value. -/
inductive ValueError where
  | missing
  | unreadable (reason : String)

/-- What an option does. -/
inductive OptionAction where
  | flag (apply : Arguments → Arguments)
  /-- The option takes a value, and may be repeated or not. -/
  | value (shown : String) (repeats : Bool)
      (apply : String → Arguments → Except ValueError Arguments)
  | help
  | version

/-- An option of the command. -/
structure OptionSpec where
  name : String
  letter : Option Char := none
  action : OptionAction
  help : String

/-- How an option is shown in messages. -/
def OptionSpec.shown (o : OptionSpec) : String := "--" ++ o.name

/-- An option that takes a text. -/
def text (shown : String) (set : Arguments → String → Arguments) : OptionAction :=
  .value shown false fun v a => .ok (set a v)

/-- An option that takes a path, which must not be empty. -/
def path (shown : String) (set : Arguments → String → Arguments) : OptionAction :=
  .value shown false fun v a => if v.isEmpty then .error .missing else .ok (set a v)

/-- An option that takes a numeral. -/
def numeral {α : Type} (shown : String) (read : String → Except Text.NumeralError α)
    (set : Arguments → α → Arguments) : OptionAction :=
  .value shown false fun v a =>
    match read v with
    | .ok n => .ok (set a n)
    | .error e => .error (.unreadable e.message)

/-- An option that takes a parameter and may be repeated. -/
def param (set : Arguments → String × String → Arguments) : OptionAction :=
  .value "KEY=VALUE" true fun v a =>
    match Params.parseKeyValue v with
    | .ok entry => .ok (set a entry)
    | .error reason => .error (.unreadable reason)

/-- An option that takes a time unit. -/
def timeUnit : OptionAction :=
  .value "UNIT" false fun v a =>
    match TimeUnit.parse v with
    | .ok u => .ok { a with timeUnit := some u }
    | .error reason => .error (.unreadable reason)

/-- The names of the options that choose a mode. No two of them go together. -/
def modeNames : List String :=
  ["validate-workload", "validate-database", "create-validation-params", "calculate-statistics"]

/-- The options of a run. -/
def runOptions : List OptionSpec :=
  [⟨"db", none, text "NAME" fun a v => { a with database := some v },
      "Database adapter to run against"⟩,
    ⟨"workload", none, text "NAME" fun a v => { a with workload := some v },
      "Workload to replay"⟩,
    ⟨"operation-count", none,
      numeral "N" Text.readWord fun a n => { a with operationCount := some n },
      "Stop after this many operations"⟩,
    ⟨"duration-ms", none,
      numeral "MS" Text.readSigned fun a n => { a with durationMillis := some n },
      "Stop at operations scheduled later than this after the first one"⟩,
    ⟨"threads", none, numeral "N" Text.readWord fun a n => { a with threads := some n },
      "Operations executing concurrently"⟩,
    ⟨"tolerated-delay-ms", none,
      numeral "MS" Text.readSigned fun a n => { a with toleratedDelayMillis := some n },
      "Largest start delay accepted before the run is stopped"⟩,
    ⟨"compression-ratio", none,
      numeral "RATIO" Text.readFloat fun a x => { a with compressionRatio := some x },
      "Multiplier applied to every gap between scheduled starts"⟩,
    ⟨"window-ms", none, numeral "MS" Text.readSigned fun a n => { a with windowMillis := some n },
      "Dispatch operations in windows of this size instead of one by one"⟩,
    ⟨"peer-id", none,
      .value "ID" true fun v a => .ok { a with peerIds := a.peerIds ++ [v] },
      "Driver instance taking part in the run (repeatable)"⟩,
    ⟨"ignore-scheduled-start-times", none,
      .flag fun a => { a with ignoreScheduledStarts := true },
      "Start operations as soon as possible, recording delays only"⟩,
    ⟨"results-dir", none, path "DIR" fun a v => { a with resultsDir := some v },
      "Directory receiving result artifacts and logs"⟩,
    ⟨"name", none, text "NAME" fun a v => { a with name := some v },
      "Prefix of every artifact file"⟩,
    ⟨"results-log", none, .flag fun a => { a with resultsLog := true },
      "Write one row per executed operation"⟩,
    ⟨"time-unit", none, timeUnit, "Unit used when reporting latencies"⟩,
    ⟨"status-interval-ms", none,
      numeral "MS" Text.readSigned fun a n => { a with statusIntervalMillis := some n },
      "Log progress at this interval"⟩,
    ⟨"spinner-sleep-ms", none,
      numeral "MS" Text.readSigned fun a n => { a with spinnerSleepMillis := some n },
      "Longest sleep while waiting for an operation's start time"⟩,
    ⟨"start-delay-ms", none,
      numeral "MS" Text.readSigned fun a n => { a with startDelayMillis := some n },
      "Time between startup and the first scheduled operation"⟩,
    ⟨"seed", none, numeral "SEED" Text.readWord fun a n => { a with seed := some n },
      "Seed for the workload's random generators"⟩,
    ⟨"db-param", none,
      param fun a entry => { a with databaseParams := a.databaseParams ++ [entry] },
      "Database parameter (repeatable)"⟩,
    ⟨"workload-param", none,
      param fun a entry => { a with workloadParams := a.workloadParams ++ [entry] },
      "Workload parameter (repeatable)"⟩]

/-- The options of the modes, and those about the command itself. -/
def modeOptions : List OptionSpec :=
  [⟨"validate-workload", none, .flag fun a => { a with validateWorkload := true },
      "Check the workload's streams instead of executing them"⟩,
    ⟨"validate-database", none, path "FILE" fun a v => { a with validateDatabase := some v },
      "Replay a validation params file and compare results"⟩,
    ⟨"create-validation-params", none,
      path "FILE" fun a v => { a with createValidationParams := some v },
      "Record operations and their results into a validation params file"⟩,
    ⟨"validation-set-size", none,
      numeral "N" Text.readWord fun a n => { a with validationSetSize := some n },
      "Number of validation params to create"⟩,
    ⟨"calculate-statistics", none, .flag fun a => { a with calculateStatistics := true },
      "Describe the workload without executing it"⟩,
    ⟨"verbose", some 'v', .flag fun a => { a with verbose := true }, "Also log to stderr"⟩,
    ⟨"help", some 'h', .help, "Print help"⟩,
    ⟨"version", some 'V', .version, "Print version"⟩]

/-- Every option. -/
def options : List OptionSpec := runOptions ++ modeOptions

end CommandLine

end WorkloadReplay
