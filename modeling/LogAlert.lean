import LogAlert.Alert.Check
import LogAlert.Alert.Conversion
import LogAlert.Alert.Firing
import LogAlert.Alert.Rule
import LogAlert.Alert.Scheduler
import LogAlert.Attack.Catalog
import LogAlert.Attack.Tags
import LogAlert.Broker.Consumer
import LogAlert.Broker.Envelope
import LogAlert.Broker.Link
import LogAlert.Broker.Queue
import LogAlert.Command.Arguments
import LogAlert.Command.Run
import LogAlert.Command.Switch
import LogAlert.Command.Workspace
import LogAlert.Condition.Evaluation
import LogAlert.Condition.Token
import LogAlert.Condition.Tree
import LogAlert.Delivery.Address
import LogAlert.Delivery.AddressLine
import LogAlert.Delivery.Detected
import LogAlert.Delivery.Digest
import LogAlert.Delivery.Email
import LogAlert.Delivery.Ledger
import LogAlert.Delivery.Notification
import LogAlert.Delivery.Outside
import LogAlert.Delivery.Webhook
import LogAlert.Delivery.Worker
import LogAlert.Engine.Batch
import LogAlert.Engine.Cache
import LogAlert.Engine.Evaluation
import LogAlert.Fault
import LogAlert.Ids
import LogAlert.Json.Print
import LogAlert.Json.Read
import LogAlert.Log.Entry
import LogAlert.Log.Fields
import LogAlert.Main
import LogAlert.Number.Binary64
import LogAlert.Number.Decimal
import LogAlert.Pattern
import LogAlert.Service
import LogAlert.Settings.Config
import LogAlert.Settings.Expansion
import LogAlert.Settings.Merge
import LogAlert.Sigma.Applicability
import LogAlert.Sigma.Document
import LogAlert.Sigma.Lint
import LogAlert.Sigma.Matching
import LogAlert.Sigma.Normalization
import LogAlert.Sigma.Rule
import LogAlert.Sigma.Validation
import LogAlert.Store.Alerts
import LogAlert.Store.Basic
import LogAlert.Store.Import
import LogAlert.Store.Logs
import LogAlert.Store.Rules
import LogAlert.Text.Blank
import LogAlert.Text.Case
import LogAlert.Text.CaseTable
import LogAlert.Text.Digit
import LogAlert.Text.Lines
import LogAlert.Text.PrintableTable
import LogAlert.Text.Quoted
import LogAlert.Text.Search
import LogAlert.Time.Date
import LogAlert.Time.DateTime
import LogAlert.Time.Iso
import LogAlert.Time.Stamp
import LogAlert.Value.Basic
import LogAlert.Value.Shown
import LogAlert.Yaml.Atom
import LogAlert.Yaml.Load
import LogAlert.Yaml.Node
import LogAlert.Yaml.Page
import LogAlert.Yaml.Print
import LogAlert.Yaml.Scalar
import LogAlert.Yaml.Style
import LogAlert.Yaml.Tag
import LogAlert.Yaml.Token
import LogAlert.Yaml.Tokens
import LogAlert.Proofs.Outcome
import LogAlert.Proofs.Store.Growth
import LogAlert.Proofs.Time.Order
import LogAlert.Proofs.Alert.Checking
import LogAlert.Proofs.Alert.Tallies
import LogAlert.Proofs.Alert.CountedOnce
import LogAlert.Proofs.Alert.LateLogs
import LogAlert.Proofs.Alert.Isolation
import LogAlert.Proofs.Alert.Passes
import LogAlert.Proofs.Alert.Decoupled
import LogAlert.Proofs.Pattern.Glob
import LogAlert.Proofs.Pattern.Literal
import LogAlert.Proofs.Condition.Acceptance
import LogAlert.Proofs.Condition.Printing
import LogAlert.Proofs.Condition.Meaning
import LogAlert.Proofs.Condition.Stack
import LogAlert.Proofs.Condition.Words
import LogAlert.Proofs.Condition.Alternatives
import LogAlert.Proofs.Json.Numerals
import LogAlert.Proofs.Json.Strings
import LogAlert.Proofs.Json.RoundTrip
import LogAlert.Proofs.Broker.Envelope
import LogAlert.Proofs.Broker.Accounting
import LogAlert.Proofs.Ids
import LogAlert.Proofs.Store.Rules
import LogAlert.Proofs.Engine.Matches
import LogAlert.Proofs.Engine.Independence
import LogAlert.Proofs.Broker.Consumer
import LogAlert.Proofs.Delivery.Targets
import LogAlert.Proofs.Delivery.Addressing
import LogAlert.Proofs.Broker.Taken
import LogAlert.Proofs.Broker.Rounds
import LogAlert.Proofs.Delivery.Ledger
import LogAlert.Proofs.Delivery.Once
import LogAlert.Proofs.Delivery.Answers
import LogAlert.Proofs.Delivery.Identity
import LogAlert.Proofs.Delivery.Redelivery
import LogAlert.Proofs.Delivery.Outcomes
import LogAlert.Proofs.Delivery.PlainAddresses
import LogAlert.Proofs.Delivery.Channels
import LogAlert.Proofs.Delivery.Relay
import LogAlert.Proofs.Delivery.Firings
import LogAlert.Proofs.Number.Rounding
import LogAlert.Proofs.Json.Floats
import LogAlert.Proofs.Json.Stable
import LogAlert.Proofs.Text.Normal
import LogAlert.Proofs.Value.Entries
import LogAlert.Proofs.Value.Shown
import LogAlert.Proofs.Yaml.Floats
import LogAlert.Proofs.Sigma.Valid
import LogAlert.Proofs.Sigma.Settled
import LogAlert.Proofs.Sigma.Readable
import LogAlert.Proofs.Sigma.Closed
import LogAlert.Proofs.Sigma.Rebuilt
import LogAlert.Proofs.Sigma.Written
import LogAlert.Proofs.Sigma.ListCondition
import LogAlert.Proofs.Time.Calendar
import LogAlert.Proofs.Time.Proper
import LogAlert.Proofs.Time.Printed
import LogAlert.Proofs.Json.Data
import LogAlert.Proofs.Log.Sent
import LogAlert.Proofs.Engine.Transport
import LogAlert.Proofs.Store.Rows
import LogAlert.Proofs.Store.Listing
import LogAlert.Proofs.Engine.Freshness
import LogAlert.Proofs.Engine.Memory
import LogAlert.Proofs.Broker.Reservation
import LogAlert.Proofs.Broker.Outage
import LogAlert.Proofs.Engine.Recall
import LogAlert.Proofs.Store.Ready
import LogAlert.Proofs.Delivery.Groups
import LogAlert.Proofs.Delivery.Batches
import LogAlert.Proofs.Store.Counting
import LogAlert.Proofs.Store.Reported
import LogAlert.Proofs.Sigma.Matching
import LogAlert.Proofs.Sigma.Monotone
import LogAlert.Proofs.Log.Short
import LogAlert.Proofs.Engine.Faultless
import LogAlert.Proofs.Number.Doubling
import LogAlert.Proofs.Delivery.Retry
import LogAlert.Proofs.Broker.Handover
import LogAlert.Proofs.Condition.Overlong
import LogAlert.Proofs.Engine.Loading
import LogAlert.Proofs.Alert.Watched
import LogAlert.Proofs.Log.Precedence
import LogAlert.Proofs.Sigma.DeadParts
import LogAlert.Proofs.Attack.Tags
import LogAlert.Proofs.Condition.Scanning
import LogAlert.Proofs.Value.Keys
import LogAlert.Proofs.Settings.Merge
import LogAlert.Proofs.Yaml.Values
import LogAlert.Proofs.Yaml.Keys
import LogAlert.Proofs.Settings.Complete
