import InlinePolicy.Binary64
import InlinePolicy.Candidate.Basic
import InlinePolicy.Candidate.Chain
import InlinePolicy.Candidate.Json
import InlinePolicy.CommandLine.Arguments
import InlinePolicy.CommandLine.Run
import InlinePolicy.Config.Basic
import InlinePolicy.Config.Json
import InlinePolicy.Config.Overrides
import InlinePolicy.Decimal.Basic
import InlinePolicy.Decimal.Literal
import InlinePolicy.Decimal.Shortest
import InlinePolicy.Decimal.Written
import InlinePolicy.Decision.Basic
import InlinePolicy.Decision.Json
import InlinePolicy.Decision.Text
import InlinePolicy.Intrinsics
import InlinePolicy.Json.Basic
import InlinePolicy.Json.Codec
import InlinePolicy.Json.Printer
import InlinePolicy.Json.Reader
import InlinePolicy.Json.Token
import InlinePolicy.Log.Event
import InlinePolicy.Log.Filter
import InlinePolicy.Main
import InlinePolicy.Metrics.Counters
import InlinePolicy.Metrics.Json
import InlinePolicy.Metrics.Sink
import InlinePolicy.Metrics.Tally
import InlinePolicy.Policy
import InlinePolicy.Proofs.Binary64.Arithmetic
import InlinePolicy.Proofs.Binary64.Equality
import InlinePolicy.Proofs.Binary64.Operations
import InlinePolicy.Proofs.Binary64.Quotients
import InlinePolicy.Proofs.Binary64.Rounding
import InlinePolicy.Proofs.Binary64.Sums
import InlinePolicy.Proofs.Binary64.Units
import InlinePolicy.Proofs.Binary64.Whole
import InlinePolicy.Proofs.Candidate.Chain
import InlinePolicy.Proofs.Candidate.Frames
import InlinePolicy.Proofs.Candidate.Json
import InlinePolicy.Proofs.CommandLine.PrintedConfig
import InlinePolicy.Proofs.CommandLine.Resolution
import InlinePolicy.Proofs.CommandLine.Warnings
import InlinePolicy.Proofs.Config.Fields
import InlinePolicy.Proofs.Config.Layers
import InlinePolicy.Proofs.Config.Repair
import InlinePolicy.Proofs.Config.Spelling
import InlinePolicy.Proofs.Decimal.Conversion
import InlinePolicy.Proofs.Decimal.Shortest
import InlinePolicy.Proofs.Decimal.Spelling
import InlinePolicy.Proofs.Decision.Json
import InlinePolicy.Proofs.Decision.Text
import InlinePolicy.Proofs.Intrinsics.Registration
import InlinePolicy.Proofs.Json.Codec
import InlinePolicy.Proofs.Json.Printed
import InlinePolicy.Proofs.Json.Spelling
import InlinePolicy.Proofs.Json.Tokens
import InlinePolicy.Proofs.Metrics.AcceptanceRate
import InlinePolicy.Proofs.Metrics.Budget
import InlinePolicy.Proofs.Metrics.Counting
import InlinePolicy.Proofs.Metrics.Scheduling
import InlinePolicy.Proofs.Metrics.Session
import InlinePolicy.Proofs.Metrics.Totals
import InlinePolicy.Proofs.Policy.Exact
import InlinePolicy.Proofs.Policy.Monotone
import InlinePolicy.Proofs.Policy.Nesting
import InlinePolicy.Proofs.Policy.Rules
import InlinePolicy.Proofs.Policy.Sizes
import InlinePolicy.Proofs.Report.Agreement
import InlinePolicy.Proofs.Report.Json
import InlinePolicy.Proofs.Report.Order
import InlinePolicy.Proofs.Scenario.Json
import InlinePolicy.Proofs.Scenario.NestedCalls
import InlinePolicy.Proofs.Scenario.Policy
import InlinePolicy.Proofs.Scenario.Spelling
import InlinePolicy.Proofs.Scenario.Validation
import InlinePolicy.Proofs.Scorer.PreviousSize
import InlinePolicy.Proofs.Text.ByteOrder
import InlinePolicy.Report.Basic
import InlinePolicy.Report.Json
import InlinePolicy.Report.Text
import InlinePolicy.Scenario.Basic
import InlinePolicy.Scenario.Json
import InlinePolicy.Scorer
import InlinePolicy.Text.Blank
import InlinePolicy.Text.Inert
import InlinePolicy.Text.Invisible
import InlinePolicy.Text.Numeral
import InlinePolicy.Text.Quoted
import InlinePolicy.Word
