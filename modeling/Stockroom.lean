import Stockroom.Bus.Broadcast
import Stockroom.Bus.Calls
import Stockroom.Document.Envelope
import Stockroom.Document.Movement
import Stockroom.Document.Policy
import Stockroom.Document.Record
import Stockroom.Document.Scalars
import Stockroom.Identifier.Keys
import Stockroom.Identifier.Uuid
import Stockroom.Json.Basic
import Stockroom.Json.Fields
import Stockroom.Json.Lexer
import Stockroom.Json.Number
import Stockroom.Json.Parser
import Stockroom.Json.Printer
import Stockroom.Ledger.Config
import Stockroom.Ledger.Contest
import Stockroom.Ledger.Error
import Stockroom.Ledger.Floor
import Stockroom.Ledger.Hall
import Stockroom.Ledger.Operations
import Stockroom.Ledger.Program
import Stockroom.Ledger.Scene
import Stockroom.Ledger.Solo
import Stockroom.Ledger.Task
import Stockroom.Log.Entry
import Stockroom.Log.Output
import Stockroom.Movement.Application
import Stockroom.Movement.Command
import Stockroom.Movement.Decision
import Stockroom.Movement.Event
import Stockroom.Numeric.Binary.Shortest
import Stockroom.Numeric.Decimal
import Stockroom.Numeric.Decimal.Text
import Stockroom.Numeric.Power
import Stockroom.Numeric.Rounding
import Stockroom.Numeric.Total
import Stockroom.Numeric.Word
import Stockroom.Proofs.Bus.Delivery
import Stockroom.Proofs.Bus.Subscription
import Stockroom.Proofs.Document.Event
import Stockroom.Proofs.Document.Sorting
import Stockroom.Proofs.Identifier.Uuid
import Stockroom.Proofs.Ledger.Announcement
import Stockroom.Proofs.Ledger.Atomicity
import Stockroom.Proofs.Ledger.Chain
import Stockroom.Proofs.Ledger.Conduct
import Stockroom.Proofs.Ledger.Contention
import Stockroom.Proofs.Ledger.Discipline
import Stockroom.Proofs.Ledger.Linearity
import Stockroom.Proofs.Ledger.Notification
import Stockroom.Proofs.Ledger.Replay
import Stockroom.Proofs.Ledger.Tracking
import Stockroom.Proofs.Movement.Conservation
import Stockroom.Proofs.Movement.Decision
import Stockroom.Proofs.Movement.Expiry
import Stockroom.Proofs.Movement.Fitting
import Stockroom.Proofs.Movement.History
import Stockroom.Proofs.Movement.Range
import Stockroom.Proofs.Movement.Reachability
import Stockroom.Proofs.Movement.Reclaim
import Stockroom.Proofs.Movement.Story
import Stockroom.Proofs.Numeric.Decimal
import Stockroom.Proofs.Numeric.Product
import Stockroom.Proofs.Record.WellFormed
import Stockroom.Proofs.Store.Writes
import Stockroom.Proofs.Text.Digits
import Stockroom.Proofs.Text.KeyMap
import Stockroom.Proofs.Time.Calendar
import Stockroom.Proofs.Time.Timestamp
import Stockroom.Record.Basic
import Stockroom.Record.Error
import Stockroom.Record.Reservation
import Stockroom.Record.Status
import Stockroom.Retry.Policy
import Stockroom.Retry.Run
import Stockroom.Store.Basic
import Stockroom.Store.Error
import Stockroom.Text.Blank
import Stockroom.Text.Digits
import Stockroom.Text.KeyOrder
import Stockroom.Time.Calendar
import Stockroom.Time.Duration
import Stockroom.Time.Timestamp
import Stockroom.Time.Timestamp.Text
import Stockroom.Proofs.Store.Account
import Stockroom.Proofs.Movement.Admission
import Stockroom.Movement.Words
import Stockroom.Proofs.Movement.Words
import Stockroom.Proofs.Movement.Worth
import Stockroom.Ledger.Session
import Stockroom.Proofs.Ledger.Confinement
import Stockroom.Ledger.Rivalry
import Stockroom.Proofs.Ledger.Independence
import Stockroom.Proofs.Ledger.Rivalry
import Stockroom.Proofs.Ledger.Expiry
import Stockroom.Proofs.Ledger.Sweep
import Stockroom.Proofs.Movement.Permanence
import Stockroom.Proofs.Movement.Drainage
import Stockroom.Proofs.Document.Fields
import Stockroom.Proofs.Document.Record
import Stockroom.Proofs.Document.Command
import Stockroom.Proofs.Document.Envelope
import Stockroom.Proofs.Ledger.Publication
import Stockroom.Proofs.Movement.Capacity
import Stockroom.Proofs.Movement.Portions
import Stockroom.Proofs.Movement.Settlement
import Stockroom.Proofs.Movement.Correction
import Stockroom.Proofs.Movement.Overdue
import Stockroom.Proofs.Ledger.Listing
import Stockroom.Proofs.Time.Shift
import Stockroom.Retry.Account
import Stockroom.Retry.Loop
import Stockroom.Proofs.Retry.Bounds
import Stockroom.Proofs.Ledger.Settings
import Stockroom.Proofs.Ledger.Conclusion
import Stockroom.Proofs.Ledger.Lifetime
import Stockroom.Proofs.Movement.Valuation
import Stockroom.Proofs.Identifier.Canonical
import Stockroom.Proofs.Retry.Jitter
