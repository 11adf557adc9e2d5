import StoreTrial.Main
import StoreTrial.Command.World
import StoreTrial.Workload.Pipeline
import StoreTrial.Proofs.Text.Lines
import StoreTrial.Proofs.Text.Decimal
import StoreTrial.Proofs.FirstFault
import StoreTrial.Proofs.Wire.Frame
import StoreTrial.Proofs.Wire.OperationLine
import StoreTrial.Proofs.Wire.OperationStream
import StoreTrial.Proofs.Store.History
import StoreTrial.Proofs.Verdict.Comparison
import StoreTrial.Proofs.Wire.OutcomeStream
import StoreTrial.Proofs.Trial.Scoring
import StoreTrial.Proofs.Workload.Calls
import StoreTrial.Proofs.Workload.KeyReuse
import StoreTrial.Proofs.Wire.Grammar
import StoreTrial.Proofs.Workload.Progress
import StoreTrial.Proofs.Workload.Consumption
import StoreTrial.Proofs.Store.Pulls
import StoreTrial.Proofs.Workload.Pipeline
import StoreTrial.Proofs.Workload.Spelling
import StoreTrial.Proofs.Command.Plan
import StoreTrial.Proofs.Command.Effects
import StoreTrial.Proofs.Command.Assignments
import StoreTrial.Proofs.Command.SelfConsistency
import StoreTrial.Proofs.Store.Misses
import StoreTrial.Proofs.Toml.Document
import StoreTrial.Proofs.Workload.Misses
import StoreTrial.Proofs.Workload.ConfigFile
import StoreTrial.Proofs.Command.Configuration
import StoreTrial.Proofs.Command.Views
import StoreTrial.Proofs.Command.Gathering
import StoreTrial.Proofs.Command.Completion
import StoreTrial.Proofs.Command.Traces
import StoreTrial.Proofs.Text.Cuts
import StoreTrial.Proofs.Trial.TornOutcomes
import StoreTrial.Proofs.Verdict.Positions
import StoreTrial.Proofs.Store.Rearrangement
import StoreTrial.Proofs.Json.Leaves
import StoreTrial.Proofs.Json.Nesting
import StoreTrial.Proofs.Json.Printing
import StoreTrial.Proofs.Json.Records
import StoreTrial.Proofs.Trial.Alignment
import StoreTrial.Proofs.Wire.TornOperations
import StoreTrial.Proofs.Workload.SharedStart
import StoreTrial.Proofs.Workload.Seeding
import StoreTrial.Proofs.Store.LiveKeys
import StoreTrial.Proofs.Workload.Counts
import StoreTrial.Proofs.Text.Layout
import StoreTrial.Proofs.Wire.Layout
import StoreTrial.Proofs.Trial.Leftovers
import StoreTrial.Proofs.Trial.Canonical
import StoreTrial.Proofs.Wire.Framing
import StoreTrial.Proofs.Store.Accounting
import StoreTrial.Proofs.Store.Idle
import StoreTrial.Proofs.Verdict.Report
import StoreTrial.Proofs.Command.JsonReports
import StoreTrial.Proofs.Text.Numerals
import StoreTrial.Proofs.Command.Numbers
import StoreTrial.Proofs.Command.Resolution
import StoreTrial.Proofs.Random.Indices
import StoreTrial.Proofs.Random.Searches
import StoreTrial.Proofs.Workload.Guarded
