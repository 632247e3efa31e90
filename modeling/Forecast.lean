import Forecast.Execution
import Forecast.Main
import Forecast.Workplace
import Forecast.Proofs.Clause.Information
import Forecast.Proofs.Condition.Feeding
import Forecast.Proofs.Prediction.Feeding
import Forecast.Proofs.Prediction.Lifecycle
import Forecast.Proofs.Prediction.Actionable
import Forecast.Proofs.TickStream.Span
import Forecast.Proofs.Prediction.Runs
import Forecast.Proofs.Session.Pass
import Forecast.Proofs.Keyed.Merging
import Forecast.Proofs.Archive.Contract
import Forecast.Proofs.Batch.Independence
import Forecast.Proofs.Batch.History
import Forecast.Proofs.TickStream.Delivery
import Forecast.Proofs.Session.Steps
import Forecast.Proofs.Session.Alike
import Forecast.Proofs.Batch.Foresight
import Forecast.Proofs.Condition.Series
import Forecast.Proofs.Session.Supply
import Forecast.Proofs.Session.TickSets
import Forecast.Proofs.Session.Lockstep
import Forecast.Proofs.Session.Chronology
import Forecast.Proofs.Market.Chart
import Forecast.Proofs.Session.Resumption
import Forecast.Proofs.Prediction.Numbers
import Forecast.Proofs.Session.Idleness
import Forecast.Proofs.Session.Numbers
import Forecast.Proofs.Batch.Completion
import Forecast.Proofs.Batch.Serving
import Forecast.Proofs.Batch.Repetition
import Forecast.Proofs.Prediction.Agreement
import Forecast.Proofs.Session.Ends
import Forecast.Proofs.Session.Timeline
import Forecast.Proofs.Batch.Schedule
import Forecast.Proofs.Clause.Grammar
import Forecast.Proofs.Clause.Lexing
import Forecast.Proofs.Clause.Parsing
import Forecast.Proofs.Clause.Spelling
import Forecast.Proofs.Compile.WellFormed
import Forecast.Proofs.Session.Termination
import Forecast.Proofs.Batch.Termination
import Forecast.Proofs.Prediction.Justified
import Forecast.Proofs.Session.Operations
import Forecast.Proofs.Stored.RoundTrip
import Forecast.Proofs.Stored.Readable
import Forecast.Proofs.Database.History
import Forecast.Proofs.Execution.Atomicity
import Forecast.Proofs.Decimal.Largest
import Forecast.Proofs.Decimal.Quotients
import Forecast.Proofs.Json.Finite
import Forecast.Proofs.Stored.Finite
import Forecast.Proofs.Condition.Verdict
import Forecast.Proofs.TickStream.Asking
import Forecast.Proofs.Market.Suffixes
import Forecast.Proofs.Session.Reset
import Forecast.Proofs.Market.Reopening
import Forecast.Proofs.Session.Attention
import Forecast.Proofs.Session.Refusals
import Forecast.Proofs.Prediction.Openness
import Forecast.Proofs.Session.Synchrony
import Forecast.Proofs.Clause.Rendering
import Forecast.Proofs.Clause.Faults
import Forecast.Proofs.Session.Unseen
import Forecast.Proofs.Session.Races
import Forecast.Proofs.Session.Progress
import Forecast.Proofs.Batch.Progress
import Forecast.Proofs.Stored.Nesting
import Forecast.Proofs.Calendar.Succession
import Forecast.Proofs.Calendar.Deadlines
import Forecast.Proofs.Text.Variants
import Forecast.Proofs.Compile.Conditions
import Forecast.Proofs.Compile.Names
import Forecast.Proofs.Condition.Margin
import Forecast.Proofs.Operand.Keys
import Forecast.Proofs.Setup.Validation
import Forecast.Proofs.Clause.Completion
import Forecast.Proofs.Clause.Walks
import Forecast.Proofs.Prediction.Telling
import Forecast.Proofs.Setup.Connections
import Forecast.Proofs.Stored.Overflow
import Forecast.Proofs.Database.Batches
