import LimitBook.Main
import LimitBook.Sequencer
import LimitBook.Json.Reader
import LimitBook.Ledger.PendingStops
import LimitBook.Proofs.PriceIndex
import LimitBook.Proofs.Config
import LimitBook.Proofs.Ledger.Views
import LimitBook.Proofs.Ledger.Coherence
import LimitBook.Proofs.Ledger.Filling
import LimitBook.Proofs.Ledger.Effects
import LimitBook.Proofs.Ledger.Offers
import LimitBook.Proofs.Ledger.Admission
import LimitBook.Proofs.Ledger.Moves
import LimitBook.Proofs.Ledger.Runs
import LimitBook.Proofs.Book.History
import LimitBook.Proofs.Book.Safety
import LimitBook.Proofs.Book.Representation
import LimitBook.Proofs.Trade
import LimitBook.Proofs.Ledger.Conservation
import LimitBook.Proofs.Ledger.Priority
import LimitBook.Proofs.Book.Priority
import LimitBook.Proofs.Book.Conservation
import LimitBook.Proofs.Ledger.Crossing
import LimitBook.Proofs.Book.Crossing
import LimitBook.Proofs.Ledger.Marks
import LimitBook.Proofs.Ledger.Cascades
import LimitBook.Proofs.Ledger.Acceptance
import LimitBook.Proofs.Book.Cascades
import LimitBook.Proofs.Book.Legality
import LimitBook.Proofs.Book.Stops
import LimitBook.Proofs.Book.Replay
import LimitBook.Proofs.Renaming
import LimitBook.Proofs.Book.Lockstep
import LimitBook.Proofs.Book.Mirror
import LimitBook.Proofs.Book.ClosedOrders
import LimitBook.Proofs.Book.Conversion
import LimitBook.Proofs.Ledger.Lockstep
import LimitBook.Proofs.Ledger.Continuity
import LimitBook.Proofs.Book.Permanence
import LimitBook.Proofs.Book.Discipline
import LimitBook.Proofs.Ledger.Rounds
import LimitBook.Proofs.Ledger.Application
import LimitBook.Proofs.Ledger.Proposals
import LimitBook.Proofs.Ledger.Promotions
import LimitBook.Proofs.Ledger.Termination
import LimitBook.Proofs.Ledger.Grid
import LimitBook.Proofs.Book.Grid
import LimitBook.Proofs.Book.Withdrawal
import LimitBook.Proofs.Ledger.Resting
import LimitBook.Proofs.Book.Snapshot
import LimitBook.Proofs.Feed.Lines
import LimitBook.Proofs.Feed.Skipping
import LimitBook.Proofs.Sequencer.Hall
import LimitBook.Proofs.Sequencer.Hosting
import LimitBook.Proofs.Text.Numeral
import LimitBook.Proofs.Decimal.Reader
import LimitBook.Proofs.Fixed.RoundTrip
import LimitBook.Proofs.Decimal.Value
import LimitBook.Proofs.Decimal.Written
import LimitBook.Proofs.Fixed.Exactness
import LimitBook.Proofs.Text.Fields
import LimitBook.Proofs.Order.Line
import LimitBook.Proofs.Json.Lexing
import LimitBook.Proofs.Json.Reading
import LimitBook.Proofs.Json.Record
import LimitBook.Proofs.Codec.Lawful
import LimitBook.Proofs.Codec.Canonical
import LimitBook.Proofs.Fixed.Parts
import LimitBook.Proofs.Fixed.Arithmetic
