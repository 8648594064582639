import LimitBook.Trade

/-! Events: the audit trail of a book. -/
namespace LimitBook

inductive CancelReason
  /-- A cancel order named it. -/
  | requested
  /-- It trades at any price and found nothing more to trade with. -/
  | unfilledMarket
deriving DecidableEq

inductive Event
  | accepted (id : OrderId)
  | rejected (reason : String)
  | rested (id : OrderId) (side : Side) (price : Price) (remaining : Volume)
  | stopPending (id : OrderId) (trigger : Price)
  | matched (trade : Trade)
  | stopTriggered (id : OrderId) (price : Price)
  | cancelled (id : OrderId) (reason : CancelReason)
  | cancelIgnored (id target : OrderId)
  | halted (reason : String)
deriving DecidableEq

end LimitBook
