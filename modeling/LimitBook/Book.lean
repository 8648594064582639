import LimitBook.Config
import LimitBook.Ledger.Admission
import LimitBook.Ledger.Depth

/-! Books: one instrument, its grid, its ledger and the fault that stopped it, if one did. -/
namespace LimitBook

structure Book where
  config : Config
  sound : config.flaw = none
  ledger : Ledger
  /-- The first fault; while there is one no order is taken. -/
  fault : Option Fault

structure Response where
  book : Book
  events : List Event
  /-- The trades the order caused, its own first. -/
  answer : Except Refusal (List Trade)

namespace Book

def open? (config : Config) : Except ConfigError Book :=
  match flawed : config.flaw with
  | some cause => .error cause
  | none => .ok ⟨config, flawed, .empty, none⟩

def objection (book : Book) (order : Order) : Option Rejection :=
  if order.id.isAssigned then some (.alreadyAdmitted order.id)
  else if order.carriesState then some .carriesState
  else
    match checked : book.config.check order with
    | .onGrid => none
    | .offGrid cause => some cause
    | .undefined => absurd checked (Config.check_ne_undefined book.sound order)

/-- Gives an order to the book. A rejected order changes nothing; a fault keeps what was done before it
and stops the book. -/
def add (book : Book) (order : Order) : Response :=
  match book.fault with
  | some fault => ⟨book, [], .error (.halted fault)⟩
  | none =>
    match book.objection order with
    | some cause => ⟨book, [.rejected cause.message], .error (.rejected cause)⟩
    | none =>
      match book.ledger.accept order with
      | ⟨ledger, events, .ok trades⟩ => ⟨{ book with ledger }, events, .ok trades⟩
      | ⟨ledger, events, .error fault⟩ =>
        ⟨{ book with ledger, fault := some fault }, events ++ [.halted fault.message], .error (.faulted fault)⟩

def reset (book : Book) : Book := { book with ledger := .empty, fault := none }

def isHalted (book : Book) : Bool := book.fault.isSome

def bestBid (book : Book) : Option Price := PriceIndex.bestPrice book.ledger.bids true

def bestAsk (book : Book) : Option Price := PriceIndex.bestPrice book.ledger.asks false

def spread (book : Book) : Option Price := spreadOf book.bestBid book.bestAsk

def openCount (book : Book) (side : Side) : Nat := (book.ledger.index side.indexKind).size

def pendingStops (book : Book) : Nat := book.ledger.stops.size

def snapshot (book : Book) (depth : Nat) : Except Fault Snapshot := do
  let bids ← book.ledger.depth .buy depth
  let asks ← book.ledger.depth .sell depth
  return .ofLevels book.config.instrument bids asks book.ledger.lastPrice (.ofNat book.pendingStops)

end Book
end LimitBook
