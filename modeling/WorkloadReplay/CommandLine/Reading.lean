import WorkloadReplay.CommandLine.Options

/-!
# Reading a command line

`CommandLine.read` goes through the words of a command line from left to right. The value of an
option is read when the next option begins or the words end, so an unknown word counts before an
unreadable value just before it. Afterwards the options are checked against each other.
-/

namespace WorkloadReplay

namespace CommandLine

/-- What has been read of a command line. -/
structure Progress where
  arguments : Arguments := {}
  /-- The names of the options read, last first. -/
  given : List String := []
  /-- An option that takes a value and has not been read, with its value if that has come. -/
  pending : Option (OptionSpec × Option String) := none

namespace Progress

/-- The option is counted; one that is not to be repeated must be new. -/
def count (p : Progress) (o : OptionSpec) (repeats : Bool) (arguments : Arguments) :
    Except UsageError Progress :=
  if !repeats && o.name ∈ p.given then .error (.conflict o.shown o.shown)
  else .ok { p with given := o.name :: p.given, arguments := arguments, pending := none }

/-- Reads an option with its value. -/
def takeValue (p : Progress) (o : OptionSpec) (value : String) : Except UsageError Progress :=
  match o.action with
  | .value _ repeats apply =>
    match p.count o repeats p.arguments with
    | .error e => .error e
    | .ok p =>
      match apply value p.arguments with
      | .ok arguments => .ok { p with arguments := arguments }
      | .error .missing => .error (.missingValue o.shown)
      | .error (.unreadable reason) => .error (.unreadableValue o.shown value reason)
  | _ => .error (.needlessValue o.shown value)

/-- Reads the option that is pending. -/
def settle (p : Progress) : Except UsageError Progress :=
  match p.pending with
  | none => .ok p
  | some (o, none) => .error (.missingValue o.shown)
  | some (o, some value) => takeValue p o value

/-- Reads an option that is not pending, without a value attached. -/
def takeBare (p : Progress) (o : OptionSpec) : Except UsageError Progress :=
  match p.settle with
  | .error e => .error e
  | .ok p =>
    match o.action with
    | .flag apply => p.count o false (apply p.arguments)
    | .value .. => .ok { p with pending := some (o, none) }
    | .help => .error .helpRequested
    | .version => .error .versionRequested

/-- Reads an option with a value attached. -/
def takeAttached (p : Progress) (o : OptionSpec) (value : String) :
    Except UsageError Progress :=
  match o.action with
  | .value .. => p.settle.bind fun p => takeValue p o value
  | _ => .error (.needlessValue o.shown value)

/-- Reads letters that stand for options without values. -/
def takeLetters (p : Progress) (word : String) : List Char → Except UsageError Progress
  | [] => .ok p
  | c :: cs =>
    match options.find? (·.letter = some c) with
    | none => .error (.unknownArgument word)
    | some o => (p.takeBare o).bind fun p => takeLetters p word cs

/-- Reads a word that begins no option: the value of the option that waits for one. -/
def takePlain (p : Progress) (word : String) : Except UsageError Progress :=
  match p.pending with
  | some (o, none) => .ok { p with pending := some (o, some word) }
  | _ => .error (.unknownArgument word)

/-- Reads a word that begins with two dashes, given without them. -/
def takeLong (p : Progress) (word : String) (cs : List Char) : Except UsageError Progress :=
  let name := String.ofList (cs.takeWhile (· ≠ '='))
  match options.find? (·.name = name), cs.dropWhile (· ≠ '=') with
  | none, _ => .error (.unknownArgument word)
  | some o, [] => p.takeBare o
  | some o, _ :: value => p.takeAttached o (String.ofList value)

/-- Reads a word. -/
def takeWord (p : Progress) (word : String) : Except UsageError Progress :=
  match word.toList with
  | '-' :: '-' :: cs => p.takeLong word cs
  | '-' :: c :: cs => p.takeLetters word (c :: cs)
  | _ => p.takePlain word

/-- Reads words to their end. After two dashes no word is known. -/
def takeAll (p : Progress) : List String → Except UsageError Progress
  | [] => p.settle
  | "--" :: [] => p.settle
  | "--" :: word :: _ => .error (.unknownArgument word)
  | word :: words => (p.takeWord word).bind fun p => takeAll p words

/-- No two options choose a mode, and the size of a set goes with making one, unless another mode
rules that out. -/
def check (p : Progress) : Except UsageError Arguments :=
  match modeNames.filter (· ∈ p.given) with
  | first :: second :: _ => .error (.conflict ("--" ++ first) ("--" ++ second))
  | [_] => .ok p.arguments
  | [] =>
    if "validation-set-size" ∈ p.given then .error (.missingOption "--create-validation-params")
    else .ok p.arguments

end Progress

/-- The arguments that the words of a command line give. -/
def read (words : List String) : Except UsageError Arguments :=
  (({} : Progress).takeAll words).bind Progress.check

end CommandLine

end WorkloadReplay
