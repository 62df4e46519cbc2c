import TokenPlan.Text.Blank
import TokenPlan.Text.Split
import TokenPlan.Text.Hex
import TokenPlan.Unit.Error
import TokenPlan.Unit.Word
import TokenPlan.Unit.Amount
import TokenPlan.Unit.Ratio
import TokenPlan.Unit.Literal
import TokenPlan.Unit.Calendar
import TokenPlan.Unit.Instant
import TokenPlan.Unit.Denomination
import TokenPlan.Address
import TokenPlan.Target
import TokenPlan.Json.Magnitude
import TokenPlan.Json.Value
import TokenPlan.Json.Printer
import TokenPlan.Json.Reader
import TokenPlan.Json.Member
import TokenPlan.Digest.Blake3
import TokenPlan.Table.Error
import TokenPlan.Table.Vesting
import TokenPlan.Table.Row
import TokenPlan.Table.Draft
import TokenPlan.Table.Document
import TokenPlan.Table.Standard
import TokenPlan.Entries
import TokenPlan.Json.Codec
import TokenPlan.Plan.Error
import TokenPlan.Allocation.Basic
import TokenPlan.Allocation.Derive
import TokenPlan.Supply.Report
import TokenPlan.Supply.Distribution
import TokenPlan.Plan.Argument
import TokenPlan.Plan.Action
import TokenPlan.Plan.Settings
import TokenPlan.Plan.Order
import TokenPlan.Plan.Progress
import TokenPlan.Plan.Deployment
import TokenPlan.Plan.Compiled
import TokenPlan.Plan.Audit
import TokenPlan.Plan.Planning
import TokenPlan.Command.Environment
import TokenPlan.Command.Invocation
import TokenPlan.Command.Directory
import TokenPlan.Command.Failure
import TokenPlan.Command.Listing
import TokenPlan.Command.Run
import TokenPlan.Main
import TokenPlan.Proofs.Supply.Obligation
import TokenPlan.Proofs.Plan.Order
import TokenPlan.Proofs.Plan.Blueprint
import TokenPlan.Proofs.Plan.Compile
import TokenPlan.Proofs.Plan.Minting
import TokenPlan.Proofs.Allocation.Derivation
import TokenPlan.Proofs.Plan.Outcome
import TokenPlan.Proofs.Plan.Resolution
import TokenPlan.Proofs.Plan.Needs
import TokenPlan.Proofs.Plan.Execution
import TokenPlan.Proofs.Json.RoundTrip
import TokenPlan.Proofs.Unit.Calendar
import TokenPlan.Proofs.Unit.Instant
import TokenPlan.Proofs.Unit.Literal
import TokenPlan.Proofs.Unit.Spelling
import TokenPlan.Proofs.Json.Member
import TokenPlan.Proofs.Table.Completion
import TokenPlan.Proofs.Table.Document
import TokenPlan.Proofs.Table.RoundTrip
import TokenPlan.Proofs.Supply.Rounding
import TokenPlan.Proofs.Plan.Solvency
import TokenPlan.Proofs.Plan.Encoding
import TokenPlan.Proofs.Plan.Fingerprint
import TokenPlan.Proofs.Plan.Journal
import TokenPlan.Proofs.Plan.Settlement
import TokenPlan.Proofs.Supply.Verdict
import TokenPlan.Proofs.Supply.Balance
import TokenPlan.Proofs.Supply.Provenance
import TokenPlan.Proofs.Plan.PaymentAsset
import TokenPlan.Proofs.Table.Tokens
import TokenPlan.Proofs.Table.Written
import TokenPlan.Proofs.Table.Rereading
import TokenPlan.Proofs.Table.Fault
import TokenPlan.Proofs.Plan.Opening
import TokenPlan.Proofs.Json.Codec
import TokenPlan.Proofs.Command.Words
import TokenPlan.Proofs.Command.Invocation
import TokenPlan.Proofs.Command.Directory
import TokenPlan.Proofs.Command.Effects
import TokenPlan.Proofs.Command.Environment
import TokenPlan.Proofs.Command.Agreement
import TokenPlan.Proofs.Unit.Overflow
import TokenPlan.Proofs.Unit.Quantize
import TokenPlan.Proofs.Unit.Quotient
import TokenPlan.Proofs.Allocation.Tier
import TokenPlan.Proofs.Allocation.Rebate
import TokenPlan.Proofs.Plan.Ownership
import TokenPlan.Proofs.Plan.Grounding
import TokenPlan.Proofs.Allocation.Acceptance
import TokenPlan.Proofs.Unit.Division
import TokenPlan.Proofs.Unit.Decimal
import TokenPlan.Proofs.Supply.Percentage
import TokenPlan.Proofs.Unit.Price
import TokenPlan.Proofs.Plan.Pricing
import TokenPlan.Proofs.Unit.Succession
import TokenPlan.Proofs.Unit.Timestamp
import TokenPlan.Proofs.Unit.Epoch
import TokenPlan.Proofs.Text.Hex
import TokenPlan.Proofs.Address
import TokenPlan.Proofs.Allocation.Binding
import TokenPlan.Proofs.Plan.Rebinding
import TokenPlan.Proofs.Unit.Nearest
import TokenPlan.Proofs.Plan.Alignment
import TokenPlan.Proofs.Text.Lines
import TokenPlan.Proofs.Command.Listing
