import WorkloadReplay.Builtin
import WorkloadReplay.Client.Error
import WorkloadReplay.Client.Execution
import WorkloadReplay.Client.Modes
import WorkloadReplay.Client.Outcome
import WorkloadReplay.Client.Session
import WorkloadReplay.CommandLine.Arguments
import WorkloadReplay.CommandLine.Command
import WorkloadReplay.CommandLine.Options
import WorkloadReplay.CommandLine.Reading
import WorkloadReplay.Completion.Service
import WorkloadReplay.Completion.Tracker
import WorkloadReplay.Database
import WorkloadReplay.ErrorLog
import WorkloadReplay.Files
import WorkloadReplay.Json.Decode
import WorkloadReplay.Json.Printer
import WorkloadReplay.Json.Reader
import WorkloadReplay.Json.Value
import WorkloadReplay.KeyValueStore
import WorkloadReplay.LazyList
import WorkloadReplay.Main
import WorkloadReplay.Metrics.Calls
import WorkloadReplay.Metrics.Collector
import WorkloadReplay.Metrics.Histogram
import WorkloadReplay.Metrics.Pipeline
import WorkloadReplay.Metrics.Record
import WorkloadReplay.Metrics.Snapshot
import WorkloadReplay.Numeric.Binary64
import WorkloadReplay.Numeric.Decimal
import WorkloadReplay.Numeric.Power
import WorkloadReplay.Operation
import WorkloadReplay.Params
import WorkloadReplay.Proofs.Client.Breakdowns
import WorkloadReplay.Proofs.Client.Closing
import WorkloadReplay.Proofs.Client.Courses
import WorkloadReplay.Proofs.Client.Executions
import WorkloadReplay.Proofs.Client.Failures
import WorkloadReplay.Proofs.Client.Recordings
import WorkloadReplay.Proofs.Client.Reports
import WorkloadReplay.Proofs.Client.ScaledLimits
import WorkloadReplay.Proofs.Client.Sessions
import WorkloadReplay.Proofs.Client.Traces
import WorkloadReplay.Proofs.Completion.Level
import WorkloadReplay.Proofs.Completion.Peers
import WorkloadReplay.Proofs.Completion.Reports
import WorkloadReplay.Proofs.Completion.Session
import WorkloadReplay.Proofs.Completion.Tracking
import WorkloadReplay.Proofs.Completion.Watermark
import WorkloadReplay.Proofs.Entries
import WorkloadReplay.Proofs.Files
import WorkloadReplay.Proofs.Json.Printing
import WorkloadReplay.Proofs.Json.Reading
import WorkloadReplay.Proofs.Json.Values
import WorkloadReplay.Proofs.KeyValueStore
import WorkloadReplay.Proofs.Metrics.ArrivalOrder
import WorkloadReplay.Proofs.Metrics.Buckets
import WorkloadReplay.Proofs.Metrics.Callers
import WorkloadReplay.Proofs.Metrics.Delivery
import WorkloadReplay.Proofs.Metrics.Histograms
import WorkloadReplay.Proofs.Metrics.Lateness
import WorkloadReplay.Proofs.Metrics.Percentiles
import WorkloadReplay.Proofs.Metrics.Sinks
import WorkloadReplay.Proofs.Metrics.Totals
import WorkloadReplay.Proofs.Numeric.Ceiling
import WorkloadReplay.Proofs.Numeric.Rounding
import WorkloadReplay.Proofs.Numeric.Significand
import WorkloadReplay.Proofs.Random.Draws
import WorkloadReplay.Proofs.Run.Aborts
import WorkloadReplay.Proofs.Run.Accounting
import WorkloadReplay.Proofs.Run.Batching
import WorkloadReplay.Proofs.Run.Breakdowns
import WorkloadReplay.Proofs.Run.Completing
import WorkloadReplay.Proofs.Run.Dispatching
import WorkloadReplay.Proofs.Run.Earliness
import WorkloadReplay.Proofs.Run.Endings
import WorkloadReplay.Proofs.Run.Fates
import WorkloadReplay.Proofs.Run.Gates
import WorkloadReplay.Proofs.Run.Gating
import WorkloadReplay.Proofs.Run.HandlerFailures
import WorkloadReplay.Proofs.Run.Pacing
import WorkloadReplay.Proofs.Run.Permits
import WorkloadReplay.Proofs.Run.Phases
import WorkloadReplay.Proofs.Run.Progress
import WorkloadReplay.Proofs.Run.Recording
import WorkloadReplay.Proofs.Run.Refusals
import WorkloadReplay.Proofs.Run.Simulated
import WorkloadReplay.Proofs.Run.StartDelays
import WorkloadReplay.Proofs.Run.Traversal
import WorkloadReplay.Proofs.Run.WindingUp
import WorkloadReplay.Proofs.Run.Windows
import WorkloadReplay.Proofs.Settings
import WorkloadReplay.Proofs.Statistics
import WorkloadReplay.Proofs.Stream.Breakdowns
import WorkloadReplay.Proofs.Stream.Cuts
import WorkloadReplay.Proofs.Stream.Faults
import WorkloadReplay.Proofs.Stream.Lanes
import WorkloadReplay.Proofs.Stream.Limits
import WorkloadReplay.Proofs.Stream.Merger
import WorkloadReplay.Proofs.Stream.Placement
import WorkloadReplay.Proofs.Stream.Reading
import WorkloadReplay.Proofs.Stream.Retiming
import WorkloadReplay.Proofs.Stream.Shifting
import WorkloadReplay.Proofs.Stream.Sorting
import WorkloadReplay.Proofs.Stream.SoundParts
import WorkloadReplay.Proofs.Stream.StableSort
import WorkloadReplay.Proofs.Stream.TimeMapping
import WorkloadReplay.Proofs.Synthetic.Breakdowns
import WorkloadReplay.Proofs.Synthetic.Merging
import WorkloadReplay.Proofs.Synthetic.Payload
import WorkloadReplay.Proofs.Synthetic.Sequence
import WorkloadReplay.Proofs.Synthetic.Workload
import WorkloadReplay.Proofs.Text.Delimited
import WorkloadReplay.Proofs.Time.Scaling
import WorkloadReplay.Proofs.Validation.Constructions
import WorkloadReplay.Proofs.Validation.Params
import WorkloadReplay.Proofs.Validation.Replay
import WorkloadReplay.Proofs.Validation.RoundTrip
import WorkloadReplay.Proofs.Validation.Serialization
import WorkloadReplay.Random.KeyStream
import WorkloadReplay.Random.Source
import WorkloadReplay.Registry
import WorkloadReplay.ReplayError
import WorkloadReplay.ResultsDocument
import WorkloadReplay.Run.Aborting
import WorkloadReplay.Run.Batch
import WorkloadReplay.Run.Config
import WorkloadReplay.Run.Delay
import WorkloadReplay.Run.Flow
import WorkloadReplay.Run.Simulation
import WorkloadReplay.Run.State
import WorkloadReplay.Run.Step
import WorkloadReplay.Scripted.Database
import WorkloadReplay.Scripted.Sink
import WorkloadReplay.Scripted.Workload
import WorkloadReplay.Settings
import WorkloadReplay.Statistics
import WorkloadReplay.Stream.Limit
import WorkloadReplay.Stream.Merge
import WorkloadReplay.Stream.TimeMap
import WorkloadReplay.Synthetic.Config
import WorkloadReplay.Synthetic.Payload
import WorkloadReplay.Synthetic.Sequence
import WorkloadReplay.Synthetic.Workload
import WorkloadReplay.Text.Blank
import WorkloadReplay.Text.Delimited
import WorkloadReplay.Text.Numeral
import WorkloadReplay.Text.Printable
import WorkloadReplay.Text.Quoted
import WorkloadReplay.Text.Table
import WorkloadReplay.Text.Width
import WorkloadReplay.Time.Duration
import WorkloadReplay.Time.Instant
import WorkloadReplay.Time.Unit
import WorkloadReplay.Validation.Database
import WorkloadReplay.Validation.Params
import WorkloadReplay.Validation.Workload
import WorkloadReplay.Workload
