import HistoryRelay.Text.Quoted
import HistoryRelay.Text.DecimalDigit
import HistoryRelay.Text.Base64
import HistoryRelay.Text.FormQuery
import HistoryRelay.Timestamp.Printer
import HistoryRelay.Timestamp.Reader
import HistoryRelay.Json.Printer
import HistoryRelay.Json.Record
import HistoryRelay.Entry
import HistoryRelay.SubmitReply
import HistoryRelay.Feedback
import HistoryRelay.Device
import HistoryRelay.Client
import HistoryRelay.RelayError
import HistoryRelay.Config
import HistoryRelay.Config.File
import HistoryRelay.Store.Devices
import HistoryRelay.Store.Entries
import HistoryRelay.Store.DumpRequests
import HistoryRelay.Store.DeletionRequests
import HistoryRelay.Store.Usage
import HistoryRelay.Store.Feedback
import HistoryRelay.Relay.History
import HistoryRelay.Http.Service
import HistoryRelay.Proofs.Lists
import HistoryRelay.Proofs.Step
import HistoryRelay.Proofs.Change
import HistoryRelay.Proofs.Effects
import HistoryRelay.Proofs.Registry
import HistoryRelay.Proofs.FanOut
import HistoryRelay.Proofs.Numbering
import HistoryRelay.Proofs.Redelivery
import HistoryRelay.Proofs.CalendarDays
import HistoryRelay.Proofs.TimestampText
import HistoryRelay.Proofs.MessageJson
import HistoryRelay.Proofs.Retraction
import HistoryRelay.Proofs.Share
import HistoryRelay.Proofs.Agreement
import HistoryRelay.Proofs.Isolation
import HistoryRelay.Proofs.Undertaking
import HistoryRelay.Proofs.Failure
import HistoryRelay.Proofs.Addressing
import HistoryRelay.Proofs.Traffic
import HistoryRelay.Proofs.Overlap
import HistoryRelay.Proofs.Results
import HistoryRelay.Proofs.Ledger
import HistoryRelay.Proofs.Aging
import HistoryRelay.Proofs.Tombstones
import HistoryRelay.Proofs.DumpProtocol
import HistoryRelay.Proofs.Rejection
import HistoryRelay.Proofs.UserCap
import HistoryRelay.Proofs.WireForms
import HistoryRelay.Proofs.Lifecycle
import HistoryRelay.Proofs.Bookkeeping
import HistoryRelay.Proofs.DeepClean
import HistoryRelay.Proofs.Matching
import HistoryRelay.Proofs.StoredTime
import HistoryRelay.Proofs.Acceptance
import HistoryRelay.Proofs.Poisoning
import HistoryRelay.Proofs.UsageRows
import HistoryRelay.Proofs.UsageLedger
import HistoryRelay.Proofs.DumpUpload
import HistoryRelay.Proofs.Retention
import HistoryRelay.Proofs.TestDevices
import HistoryRelay.Proofs.Housekeeping
import HistoryRelay.Proofs.ClientHeaders
import HistoryRelay.Proofs.UsageRollup
import HistoryRelay.Proofs.UsageLists
import HistoryRelay.Proofs.VersionTokens
