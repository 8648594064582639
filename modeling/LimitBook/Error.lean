import LimitBook.Trade
import LimitBook.PriceIndex
import LimitBook.Order.Text

/-! What can go wrong with an order, a trade or a configuration, as causes with their wording. A
rejection leaves the book as it was; a fault says that the book contradicts itself. -/
namespace LimitBook

inductive ErrorKind
  | invalidOrder
  | invariantViolation
  | structuralFault
  | halted
  | invalidConfig
  | sequencerClosed
deriving DecidableEq

namespace ErrorKind

def isFault : ErrorKind → Bool
  | invariantViolation | structuralFault => true
  | _ => false

def message (kind : ErrorKind) (detail : String) : String :=
  match kind with
  | invalidOrder => "invalid order: " ++ detail
  | invariantViolation => "matching invariant violated: " ++ detail
  | structuralFault => "price index fault: " ++ detail
  | halted => "order book halted after fault: " ++ detail
  | invalidConfig => "invalid configuration: " ++ detail
  | sequencerClosed => "order sequencer is closed"

end ErrorKind

inductive Rejection
  | alreadyAdmitted (id : OrderId)
  | carriesState
  | noSide (kind : OrderKind)
  | noVolume
  | offLot (volume lot : Volume)
  | priceNotPositive (price : Price)
  | offTick (price tick : Price)
deriving DecidableEq

namespace Rejection

def detail : Rejection → String
  | alreadyAdmitted id => "order was already admitted as #" ++ id.text
  | carriesState => "new orders cannot carry execution state"
  | noSide kind => kind.name ++ " order has no side"
  | noVolume => "volume must be positive"
  | offLot volume lot => "volume " ++ volume.text ++ " is not a multiple of lot size " ++ lot.text
  | priceNotPositive price => "price " ++ price.text ++ " must be positive"
  | offTick price tick => "price " ++ price.text ++ " is not a multiple of tick size " ++ tick.text

def message (cause : Rejection) : String := ErrorKind.invalidOrder.message cause.detail

end Rejection

inductive ConfigError
  | emptyInstrument
  | tickNotPositive
  | lotNotPositive
deriving DecidableEq

namespace ConfigError

def detail : ConfigError → String
  | emptyInstrument => "instrument cannot be empty"
  | tickNotPositive => "tick size must be positive"
  | lotNotPositive => "lot size must be positive"

def message (cause : ConfigError) : String := ErrorKind.invalidConfig.message cause.detail

end ConfigError

inductive Fault
  | sidelessTaker (taker : OrderId)
  | emptyTrade (taker maker : OrderId)
  | excessTrade (volume : Volume) (taker : OrderId) (takerRemaining : Volume) (maker : OrderId)
      (makerRemaining : Volume)
  | sidelessTrade
  | oneSidedTrade (taker maker : OrderId) (side : Side)
  | limitBroken (taker : OrderId) (limit price : Price)
  | unabsorbedFill (id : OrderId) (volume : Volume)
  | unknownOrder (id : OrderId)
  /-- An index entry that its record does not confirm. -/
  | staleEntry (entry : Entry) (order : Order)
  /-- An exhausted maker that could not have rested. -/
  | unlimitedMaker (id : OrderId)
  | missingEntry (entry : Entry) (index : IndexKind)
  /-- A pending stop that its record does not confirm. -/
  | staleStop (order : Order) (trigger : Price)
  /-- An order to be fired that is no stop or has no side. -/
  | notAStop (id : OrderId)
deriving DecidableEq

namespace Fault

def kind : Fault → ErrorKind
  | sidelessTaker _ | emptyTrade _ _ | excessTrade _ _ _ _ _ | sidelessTrade | oneSidedTrade _ _ _
  | limitBroken _ _ _ | unabsorbedFill _ _ => .invariantViolation
  | unknownOrder _ | staleEntry _ _ | unlimitedMaker _ | missingEntry _ _ | staleStop _ _
  | notAStop _ => .structuralFault

def detail : Fault → String
  | sidelessTaker taker => "taker " ++ taker.text ++ " has no side"
  | emptyTrade taker maker => "zero-volume match between " ++ taker.text ++ " and " ++ maker.text
  | excessTrade volume taker takerRemaining maker makerRemaining =>
    "match volume " ++ volume.text ++ " exceeds remaining volume of " ++ taker.text ++ " ("
      ++ takerRemaining.text ++ ") or " ++ maker.text ++ " (" ++ makerRemaining.text ++ ")"
  | sidelessTrade => "matched order has no side"
  | oneSidedTrade taker maker side =>
    "orders " ++ taker.text ++ " and " ++ maker.text ++ " are both on the " ++ side.name ++ " side"
  | limitBroken taker limit price =>
    "order " ++ taker.text ++ " limited to " ++ limit.text ++ " matched at " ++ price.text
  | unabsorbedFill id volume => "order " ++ id.text ++ " could not absorb a fill of " ++ volume.text
  | unknownOrder id => "order " ++ id.text ++ " is not in the book"
  | staleEntry entry order =>
    "index entry " ++ entry.id.text ++ " at " ++ entry.price.text ++ " does not match order " ++ order.text
  | unlimitedMaker id => "resting order " ++ id.text ++ " has no limit price"
  | missingEntry entry index =>
    "order " ++ entry.id.text ++ " at " ++ entry.price.text ++ " is not in the " ++ index.name ++ " index"
  | staleStop order trigger => "pending stop index holds " ++ order.text ++ " at " ++ trigger.text
  | notAStop id => "order " ++ id.text ++ " cannot be promoted as a stop"

def message (cause : Fault) : String := cause.kind.message cause.detail

theorem isFault_kind (cause : Fault) : cause.kind.isFault = true := by cases cause <;> rfl

end Fault

inductive Refusal
  | rejected (cause : Rejection)
  | faulted (cause : Fault)
  /-- The book stopped at an earlier fault. -/
  | halted (cause : Fault)
deriving DecidableEq

namespace Refusal

def kind : Refusal → ErrorKind
  | rejected _ => .invalidOrder
  | faulted cause => cause.kind
  | halted _ => .halted

def detail : Refusal → String
  | rejected cause => cause.detail
  | faulted cause => cause.detail
  | halted cause => cause.message

def message (refusal : Refusal) : String := refusal.kind.message refusal.detail

end Refusal
end LimitBook
