import SyncForm.Assoc
import SyncForm.Catalog.Basic
import SyncForm.Catalog.Fixture
import SyncForm.Catalog.Payload
import SyncForm.Catalog.Remote
import SyncForm.Checked
import SyncForm.Column
import SyncForm.CommandLine.Command
import SyncForm.CommandLine.Option
import SyncForm.CommandLine.Run
import SyncForm.Datasource
import SyncForm.Descriptor
import SyncForm.Fault
import SyncForm.Form
import SyncForm.Issue
import SyncForm.Journal
import SyncForm.Json.Document
import SyncForm.Json.Printer
import SyncForm.Json.Reader
import SyncForm.Keys
import SyncForm.Layout
import SyncForm.Log.Basic
import SyncForm.Log.Pattern
import SyncForm.Log.Record
import SyncForm.Log.Timestamp
import SyncForm.Lookup.Fetch
import SyncForm.Main
import SyncForm.Mapping
import SyncForm.Model.Basic
import SyncForm.Model.Export
import SyncForm.Number.Binary64
import SyncForm.Number.Decimal
import SyncForm.Number.Places
import SyncForm.Resolver.Basic
import SyncForm.Resolver.Cascade
import SyncForm.Resolver.Plan
import SyncForm.Rule
import SyncForm.Session
import SyncForm.Settings
import SyncForm.Template
import SyncForm.Text.Blank
import SyncForm.Text.Digit
import SyncForm.Text.Hex
import SyncForm.Text.Numeral
import SyncForm.Text.Printable
import SyncForm.Text.Quoted
import SyncForm.Text.Upper
import SyncForm.Value.Basic
import SyncForm.Value.Json
import SyncForm.Value.Number
import SyncForm.Value.Text
import SyncForm.Proofs.Effect
import SyncForm.Proofs.Run
import SyncForm.Proofs.Chain
import SyncForm.Proofs.Answer
import SyncForm.Proofs.Completion
import SyncForm.Proofs.InFlight
import SyncForm.Proofs.Start
import SyncForm.Proofs.Freshness
import SyncForm.Proofs.FirstLoad
import SyncForm.Proofs.Superseding
import SyncForm.Proofs.FormRun
import SyncForm.Proofs.Edits
import SyncForm.Proofs.Settling
import SyncForm.Proofs.Timing
import SyncForm.Proofs.Balance
import SyncForm.Proofs.Reachable
import SyncForm.Proofs.Clearing
import SyncForm.Proofs.Derived
import SyncForm.Proofs.Nesting
import SyncForm.Proofs.RoundTrip
import SyncForm.Proofs.Editor
import SyncForm.Proofs.Contents
import SyncForm.Proofs.Connections
import SyncForm.Proofs.ColumnRecords
import SyncForm.Proofs.Validation
import SyncForm.Proofs.TypeCodes
import SyncForm.Proofs.Wanted
import SyncForm.Proofs.Filling
import SyncForm.Proofs.Sessions
import SyncForm.Proofs.Loading
import SyncForm.Proofs.Writeback
import SyncForm.Proofs.Failures
import SyncForm.Proofs.Commuting
import SyncForm.Proofs.Hidden
import SyncForm.Proofs.Replies
import SyncForm.Proofs.Findings
import SyncForm.Proofs.Refusal
import SyncForm.Proofs.Rules
import SyncForm.Proofs.Indicators
import SyncForm.Proofs.ProjectFile
import SyncForm.Proofs.Precedence
import SyncForm.Proofs.Fixtures
import SyncForm.Proofs.Rounding
import SyncForm.Proofs.Shortest
import SyncForm.Proofs.Numerals
import SyncForm.Proofs.Escapes
import SyncForm.Proofs.Joining
import SyncForm.Proofs.Reading
import SyncForm.Proofs.ReadLaws
import SyncForm.Proofs.Payloads
import SyncForm.Proofs.Flattening
import SyncForm.Proofs.Sharing
import SyncForm.Proofs.Growth
import SyncForm.Proofs.Provenance
import SyncForm.Proofs.Partitions
import SyncForm.Proofs.Documents
import SyncForm.Proofs.LogLines
import SyncForm.Proofs.Identities
