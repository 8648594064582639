import LimitBook.Volume
import LimitBook.OrderId
import LimitBook.Fixed

/-! Orders: what is asked of the book, and how far it has been carried out. -/
namespace LimitBook

inductive Side
  | buy
  | sell
deriving DecidableEq

namespace Side

def opposite : Side → Side
  | buy => sell
  | sell => buy

def name : Side → String
  | buy => "buy"
  | sell => "sell"

instance : ToString Side := ⟨name⟩

def within (side : Side) (limit price : Price) : Bool :=
  match side with
  | buy => price ≤ limit
  | sell => limit ≤ price

def crosses (side : Side) (trigger price : Price) : Bool :=
  match side with
  | buy => trigger < price
  | sell => price < trigger

theorem opposite_ne (side : Side) : side.opposite ≠ side := by cases side <;> decide

end Side

inductive OrderKind
  /-- Trade at whatever the other side offers. -/
  | market
  /-- Trade at `price` or better. -/
  | limit (price : Price)
  /-- Wait until a trade crosses `trigger`, then trade as a limit order at `limit`, or as a market
  order without one. -/
  | stop (trigger : Price) (limit : Option Price)
  /-- Withdraw the earlier order `target`. -/
  | cancel (target : OrderId)
deriving DecidableEq

namespace OrderKind

def name : OrderKind → String
  | market => "market"
  | limit _ => "limit"
  | stop _ _ => "stop"
  | cancel _ => "cancel"

def limitPrice : OrderKind → Option Price
  | limit price => some price
  | stop _ price => price
  | market | cancel _ => none

def triggerPrice : OrderKind → Option Price
  | stop trigger _ => some trigger
  | _ => none

def prices : OrderKind → List Price
  | limit price => [price]
  | stop trigger bound => trigger :: bound.toList
  | market | cancel _ => []

end OrderKind

@[ext] structure Order where
  id : OrderId
  side : Option Side
  kind : OrderKind
  volume : Volume
  remaining : Volume
  cancelled : Bool
  executed : Bool
  triggered : Bool
deriving DecidableEq

namespace Order

def fresh (side : Option Side) (kind : OrderKind) (volume : Volume) : Order where
  id := .unassigned
  side := side
  kind := kind
  volume := volume
  remaining := volume
  cancelled := false
  executed := false
  triggered := false

def market (side : Side) (volume : Volume) : Order := fresh (some side) .market volume

def limit (side : Side) (volume : Volume) (price : Price) : Order := fresh (some side) (.limit price) volume

def stop (side : Side) (volume : Volume) (trigger : Price) : Order :=
  fresh (some side) (.stop trigger none) volume

def stopLimit (side : Side) (volume : Volume) (trigger limit : Price) : Order :=
  fresh (some side) (.stop trigger (some limit)) volume

def cancel (target : OrderId) : Order := fresh none (.cancel target) 0

/-- The volume traded so far; a record with more remaining than its volume goes round below zero. -/
def filled (order : Order) : Volume := order.volume.cyclicSub order.remaining

def limitPrice (order : Order) : Option Price := order.kind.limitPrice

def triggerPrice (order : Order) : Option Price := order.kind.triggerPrice

def isStop (order : Order) : Bool :=
  match order.kind with
  | .stop _ _ => true
  | _ => false

def isCancel (order : Order) : Bool :=
  match order.kind with
  | .cancel _ => true
  | _ => false

def isMarketLike (order : Order) : Bool :=
  match order.kind with
  | .market | .stop _ none => true
  | _ => false

def isActive (order : Order) : Bool :=
  !order.cancelled && !order.executed && !order.isCancel && (!order.isStop || order.triggered)

def isTriggeredBy (order : Order) (price : Price) : Bool :=
  match order.triggerPrice, order.side with
  | some trigger, some side => side.crosses trigger price
  | _, _ => false

def carriesState (order : Order) : Bool :=
  order.remaining != order.volume || order.cancelled || order.executed || order.triggered

def fill? (order : Order) (volume : Volume) : Option Order :=
  if volume = 0 ∨ order.remaining < volume then none
  else
    let remaining := order.remaining - volume
    some { order with remaining, executed := order.executed || remaining = 0 }

end Order
end LimitBook
