import WorkloadReplay.Workload
import WorkloadReplay.Random.Source

/-!
# Configuration of the synthetic workload

How many operations of which kinds the synthetic workload has, and how far apart they are scheduled.
`ofParams` reads a configuration from parameters and refuses one that no workload can follow.
-/

namespace WorkloadReplay

/-- What the synthetic workload is to look like. -/
structure SyntheticConfig where
  operationCount : Nat := 1000
  /-- Keys are drawn from the numbers below this one. -/
  recordCount : Nat := 1000
  /-- The least time from one operation to the next. -/
  interval : Duration := Duration.ofUnits .milli 1
  /-- The most that is added to an interval. -/
  jitter : Duration := Duration.zero
  readProportion : Binary64 := Binary64.ofDecimal false 5 (-1)
  updateProportion : Binary64 := Binary64.ofDecimal false 3 (-1)
  scanProportion : Binary64 := Binary64.ofDecimal false 2 (-1)
  /-- The number of characters of a value. -/
  valueLength : Nat := 32
  scanLength : Nat := 10
  /-- An operation further than this from the latest update does not wait for it. -/
  maxInterleave : Duration := Duration.ofUnits .second 1

namespace SyntheticConfig

/-- The proportions of the kinds, under the names of their parameters. -/
def proportions (c : SyntheticConfig) : List (String × Binary64) :=
  [("read_proportion", c.readProportion), ("update_proportion", c.updateProportion),
    ("scan_proportion", c.scanProportion)]

/-- The proportions of reads, updates and scans. -/
def weights (c : SyntheticConfig) : List Binary64 := c.proportions.map (·.2)

/-- A number can be the proportion of a kind. -/
def isProportion (x : Binary64) : Bool := x.isFinite && !x.lt (Binary64.zero false)

/-- The first parameter with which no workload can be made, and what is wrong with it. -/
def problem? (c : SyntheticConfig) : Option ParamError :=
  if c.recordCount = 0 then some ⟨"record_count", "must be at least 1"⟩
  else if c.interval.nanos ≤ 0 then some ⟨"interval_us", "must be positive"⟩
  else if c.jitter.isNegative then some ⟨"jitter_us", "must not be negative"⟩
  else if c.maxInterleave.nanos ≤ 0 then some ⟨"max_interleave_ms", "must be positive"⟩
  else if c.scanLength = 0 then some ⟨"scan_length", "must be at least 1"⟩
  else
    match c.proportions.find? fun (_, x) => !isProportion x with
    | some (name, x) => some ⟨name, Decimal.toText x ++ " is not a proportion"⟩
    | none =>
      if (RandomSource.total c.weights).le (Binary64.zero false) then
        some ⟨"read_proportion", "all proportions are zero"⟩
      else none

/-- A workload can be made with a configuration. -/
def validate (c : SyntheticConfig) : Except WorkloadError Unit :=
  match c.problem? with
  | some e => .error (.ofParam e)
  | none => .ok ()

/-- The duration that a parameter gives in units; absent, it is as in the default configuration. -/
def durationParam (p : Params) (key : String) (u : TimeUnit) (absent : Int) :
    Except ParamError Duration :=
  (p.parseOr Text.readSigned key absent).map (Duration.ofUnits u)

/-- The configuration that parameters give, each of which may be absent. -/
def readParams (p : Params) : Except ParamError SyntheticConfig := do
  let d : SyntheticConfig := {}
  return {
    operationCount := ← p.parseOr Text.readWord "operation_count" d.operationCount
    recordCount := ← p.parseOr Text.readWord "record_count" d.recordCount
    interval := ← durationParam p "interval_us" .micro 1000
    jitter := ← durationParam p "jitter_us" .micro 0
    readProportion := ← p.parseOr Text.readFloat "read_proportion" d.readProportion
    updateProportion := ← p.parseOr Text.readFloat "update_proportion" d.updateProportion
    scanProportion := ← p.parseOr Text.readFloat "scan_proportion" d.scanProportion
    valueLength := ← p.parseOr Text.readWord "value_length" d.valueLength
    scanLength := ← p.parseOr Text.readHalfWord "scan_length" d.scanLength
    maxInterleave := ← durationParam p "max_interleave_ms" .milli 1000 }

/-- The configuration that parameters give, if a workload can be made with it. -/
def ofParams (p : Params) : Except WorkloadError SyntheticConfig :=
  match readParams p with
  | .error e => .error (.ofParam e)
  | .ok c => c.validate.map fun _ => c

end SyntheticConfig

end WorkloadReplay
