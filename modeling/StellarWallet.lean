import StellarWallet.Account.Address
import StellarWallet.Account.Base32
import StellarWallet.Account.Checksum
import StellarWallet.Balance.Amount
import StellarWallet.Balance.Line
import StellarWallet.Balance.Snapshot
import StellarWallet.CommandLine.Command
import StellarWallet.CommandLine.Grammar
import StellarWallet.CommandLine.Run
import StellarWallet.CommandLine.Transcript
import StellarWallet.Confirmation
import StellarWallet.Explorer
import StellarWallet.Failure.Explanation
import StellarWallet.Failure.Fault
import StellarWallet.Failure.Reason
import StellarWallet.Failure.Title
import StellarWallet.History.Basic
import StellarWallet.History.Entry
import StellarWallet.Http.Client
import StellarWallet.Http.Exchange
import StellarWallet.Http.Retry
import StellarWallet.Http.Script
import StellarWallet.Json.Printer
import StellarWallet.Json.Reader
import StellarWallet.Log.Context
import StellarWallet.Log.Format
import StellarWallet.Log.Logging
import StellarWallet.Log.Record
import StellarWallet.Log.Settings
import StellarWallet.Log.Template
import StellarWallet.Main
import StellarWallet.Number.Arithmetic
import StellarWallet.Number.Basic
import StellarWallet.Number.Binary64
import StellarWallet.Number.Numeral
import StellarWallet.Number.Places
import StellarWallet.Number.Scientific
import StellarWallet.Number.Shortest
import StellarWallet.Proofs.Account.Acceptance
import StellarWallet.Proofs.Account.Base32
import StellarWallet.Proofs.Account.Register
import StellarWallet.Proofs.Account.Remainder
import StellarWallet.Proofs.Account.TypingErrors
import StellarWallet.Proofs.Balance.AmountText
import StellarWallet.Proofs.Balance.Amounts
import StellarWallet.Proofs.Balance.AnyValue
import StellarWallet.Proofs.Balance.Failures
import StellarWallet.Proofs.Balance.Isolation
import StellarWallet.Proofs.Balance.LineOrder
import StellarWallet.Proofs.Balance.Lookups
import StellarWallet.Proofs.Balance.Requests
import StellarWallet.Proofs.CommandLine.Invocations
import StellarWallet.Proofs.CommandLine.Slots
import StellarWallet.Proofs.Confirmation.FirstDecision
import StellarWallet.Proofs.Failure.Clues
import StellarWallet.Proofs.Failure.CutSeeds
import StellarWallet.Proofs.Failure.LedgerCodes
import StellarWallet.Proofs.Failure.Payloads
import StellarWallet.Proofs.Failure.Refusals
import StellarWallet.Proofs.Failure.ShortLines
import StellarWallet.Proofs.History.Changes
import StellarWallet.Proofs.History.Loading
import StellarWallet.Proofs.History.Outages
import StellarWallet.Proofs.History.Persistence
import StellarWallet.Proofs.History.Recording
import StellarWallet.Proofs.History.Saving
import StellarWallet.Proofs.History.StoredForm
import StellarWallet.Proofs.Http.Attempts
import StellarWallet.Proofs.Http.Backoff
import StellarWallet.Proofs.Http.LastReply
import StellarWallet.Proofs.Http.Missing
import StellarWallet.Proofs.Http.Repetitions
import StellarWallet.Proofs.Http.SingleAttempt
import StellarWallet.Proofs.Http.TwoServers
import StellarWallet.Proofs.Json.Depth
import StellarWallet.Proofs.Json.Numeral
import StellarWallet.Proofs.Json.Quoted
import StellarWallet.Proofs.Json.Reading
import StellarWallet.Proofs.Json.RoundTrip
import StellarWallet.Proofs.Log.FailedSetup
import StellarWallet.Proofs.Log.Lines
import StellarWallet.Proofs.Number.Order
import StellarWallet.Proofs.Number.Places
import StellarWallet.Proofs.Number.Powers
import StellarWallet.Proofs.Number.Range
import StellarWallet.Proofs.Number.Rounding
import StellarWallet.Proofs.Number.Spelling
import StellarWallet.Proofs.Redaction.Assignments
import StellarWallet.Proofs.Redaction.Context
import StellarWallet.Proofs.Redaction.Idempotence
import StellarWallet.Proofs.Redaction.Names
import StellarWallet.Proofs.Redaction.Secrecy
import StellarWallet.Proofs.Redaction.Settled
import StellarWallet.Proofs.Redaction.Words
import StellarWallet.Proofs.Session.LastConnect
import StellarWallet.Proofs.Settings.Folders
import StellarWallet.Proofs.Storage.Atomicity
import StellarWallet.Proofs.Storage.LineEnds
import StellarWallet.Proofs.Storage.OtherSlots
import StellarWallet.Proofs.Storage.ReadBack
import StellarWallet.Proofs.Storage.Refusal
import StellarWallet.Proofs.Storage.SameAnswers
import StellarWallet.Proofs.Storage.Tree
import StellarWallet.Proofs.Storage.Writable
import StellarWallet.Proofs.Text.Cuts
import StellarWallet.Proofs.Text.Utf8
import StellarWallet.Proofs.Time
import StellarWallet.Proofs.Tracker.Announcements
import StellarWallet.Proofs.Tracker.Display
import StellarWallet.Proofs.Tracker.Frame
import StellarWallet.Proofs.Tracker.Independence
import StellarWallet.Proofs.Tracker.Interleaving
import StellarWallet.Proofs.Tracker.Outcome
import StellarWallet.Proofs.Tracker.Phase
import StellarWallet.Proofs.Tracker.Progress
import StellarWallet.Proofs.Tracker.ReportedKind
import StellarWallet.Proofs.Tracker.Saving
import StellarWallet.Proofs.Tracker.Screen
import StellarWallet.Proofs.Tracker.Subscriptions
import StellarWallet.Proofs.Tracker.Toasts
import StellarWallet.Proofs.Tracker.Turns
import StellarWallet.Proofs.Tracker.Waiting
import StellarWallet.Proofs.Tracker.Watching
import StellarWallet.Proofs.Tracker.Writes
import StellarWallet.Proofs.Url.Bases
import StellarWallet.Proofs.Url.LastSegment
import StellarWallet.Proofs.Url.Percent
import StellarWallet.Redaction.Assignment
import StellarWallet.Redaction.Message
import StellarWallet.Redaction.Seed
import StellarWallet.Session
import StellarWallet.Settings.Environment
import StellarWallet.Settings.Path
import StellarWallet.Settings.Wallet
import StellarWallet.Storage.Basic
import StellarWallet.Storage.Directory
import StellarWallet.Storage.Json
import StellarWallet.Storage.Tree
import StellarWallet.Text.Blank
import StellarWallet.Text.Case
import StellarWallet.Text.Printable
import StellarWallet.Text.Quoted
import StellarWallet.Text.Search
import StellarWallet.Text.Utf8
import StellarWallet.Text.Word
import StellarWallet.Time
import StellarWallet.Tracker.Basic
import StellarWallet.Tracker.Call
import StellarWallet.Tracker.Run
import StellarWallet.Tracker.WorkResult
import StellarWallet.Url.Authority
import StellarWallet.Url.Host
import StellarWallet.Url.Percent
import StellarWallet.Value.Basic
import StellarWallet.Value.Display
import StellarWallet.Value.Fields
import StellarWallet.Vocabulary
import StellarWallet.Wallet
