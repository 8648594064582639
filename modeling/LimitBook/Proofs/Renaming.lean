import LimitBook.Proofs.Ledger.Replay

/-! Renamings of sides and prices. A renaming may turn the market round, as long as of the prices that it knows one is
within another exactly if it was before; then it keeps which offer is better and which trade crosses a trigger. -/
namespace LimitBook

section Renamed
variable (side : Side → Side) (price : Price → Price)

def OrderKind.rename : OrderKind → OrderKind
  | market => market
  | limit bound => limit (price bound)
  | stop trigger bound => stop (price trigger) (bound.map price)
  | cancel target => cancel target

def Order.rename (order : Order) : Order := { order with side := order.side.map side, kind := order.kind.rename price }

def Trade.rename (trade : Trade) : Trade := { trade with price := price trade.price }

def Offer.rename (offer : Offer) : Offer := { offer with price := price offer.price }

def Event.rename : Event → Event
  | rested id own limit remaining => rested id (side own) (price limit) remaining
  | stopPending id trigger => stopPending id (price trigger)
  | matched trade => matched (trade.rename price)
  | stopTriggered id crossing => stopTriggered id (price crossing)
  | event => event

def Rejection.rename : Rejection → Rejection
  | noSide kind => noSide (kind.rename price)
  | priceNotPositive offending => priceNotPositive (price offending)
  | offTick offending tick => offTick (price offending) tick
  | cause => cause

def Refusal.rename : Refusal → Refusal
  | rejected cause => rejected (cause.rename price)
  | refusal => refusal

variable {side price} {order : Order} {events : List Event}

@[simp] theorem OrderKind.limitPrice_rename (kind : OrderKind) :
    (kind.rename price).limitPrice = kind.limitPrice.map price := by
  cases kind <;> rfl

@[simp] theorem OrderKind.triggerPrice_rename (kind : OrderKind) :
    (kind.rename price).triggerPrice = kind.triggerPrice.map price := by
  cases kind <;> rfl

@[simp] theorem OrderKind.prices_rename (kind : OrderKind) : (kind.rename price).prices = kind.prices.map price := by
  cases kind with
  | stop trigger bound => cases bound <;> rfl
  | _ => rfl

@[simp] theorem Order.isStop_rename : (order.rename side price).isStop = order.isStop := by
  unfold isStop rename
  cases order.kind <;> rfl

@[simp] theorem Order.isCancel_rename : (order.rename side price).isCancel = order.isCancel := by
  unfold isCancel rename
  cases order.kind <;> rfl

@[simp] theorem Order.isLive_rename : (order.rename side price).isLive = order.isLive := by
  unfold isLive
  rw [isCancel_rename]
  rfl

@[simp] theorem Order.isPending_rename : (order.rename side price).isPending = order.isPending := by
  unfold isPending
  rw [isStop_rename]
  rfl

@[simp] theorem Order.isActive_rename : (order.rename side price).isActive = order.isActive := by
  unfold isActive
  rw [isCancel_rename, isStop_rename]
  rfl

/-- Renaming an event and a record commutes with what the event does to the record. -/
theorem Event.effect_rename (event : Event) (order : Order) :
    (event.rename side price).effect (order.rename side price) = (event.effect order).rename side price := by
  have both : ∀ (named : Prop) [Decidable named] (changed : Order),
      (if named then changed.rename side price else order.rename side price)
        = (if named then changed else order).rename side price :=
    fun _ _ _ => (apply_ite (Order.rename side price) _ _ _).symm
  cases event with
  | matched trade => exact both (order.id = trade.taker ∨ order.id = trade.maker) (order.take trade.volume)
  | stopTriggered id crossing => exact both (order.id = id) order.fire
  | cancelled id reason => exact both (order.id = id) order.withdraw
  | _ => rfl

theorem Event.price_rename (event : Event) (last : Option Price) :
    (event.rename side price).price (last.map price) = (event.price last).map price := by
  cases event <;> rfl

theorem Event.trades_rename : trades (events.map (rename side price)) = (trades events).map (Trade.rename price) := by
  have same : ∀ event : Event, (event.rename side price).trade? = event.trade?.map (Trade.rename price) := by
    intro event
    cases event <;> rfl
  unfold trades
  rw [List.filterMap_map, List.map_filterMap]
  exact List.filterMap_congr fun event _ => same event

end Renamed

/-- New names for sides and prices. Of the prices that it knows it keeps which are within which. -/
structure Renaming where
  side : Side → Side
  price : Price → Price
  knows : Price → Prop
  side_opposite : ∀ own, side own.opposite = (side own).opposite
  within_eq : ∀ own {limit other}, knows limit → knows other →
    (side own).within (price limit) (price other) = own.within limit other

namespace Renaming

def same : Renaming where
  side := id
  price := id
  knows _ := True
  side_opposite _ := rfl
  within_eq _ _ _ _ _ := rfl

def mirror (price : Price → Price) (knows : Price → Prop)
    (turns : ∀ low high, knows low → knows high → low < high → price high < price low) : Renaming where
  side := Side.opposite
  price := price
  knows := knows
  side_opposite _ := rfl
  within_eq := by
    intro own limit other limitKnown otherKnown
    have below := turns limit other limitKnown otherKnown
    have above := turns other limit otherKnown limitKnown
    simp only [Fixed.lt_iff_raw] at below above
    rcases Int.lt_trichotomy limit.raw other.raw with lt | eq | gt
    · have turned := below lt
      cases own <;> simp only [Side.opposite, Side.within, Fixed.le_iff_raw, decide_eq_decide] <;> omega
    · obtain rfl := Fixed.ext eq
      cases own <;> simp [Side.opposite, Side.within, Fixed.le_iff_raw]
    · have turned := above gt
      cases own <;> simp only [Side.opposite, Side.within, Fixed.le_iff_raw, decide_eq_decide] <;> omega

variable (names : Renaming)

def order : Order → Order := Order.rename names.side names.price

def trade : Trade → Trade := Trade.rename names.price

def offer : Offer → Offer := Offer.rename names.price

def event : Event → Event := Event.rename names.side names.price

def index : IndexKind → IndexKind
  | .bids => (names.side .buy).indexKind
  | .asks => (names.side .sell).indexKind
  | .stops => .stops

def rejection : Rejection → Rejection := Rejection.rename names.price

def refusal : Refusal → Refusal := Refusal.rename names.price

section Same

@[simp] theorem order_same : same.order = id := by
  have kinds : ∀ kind : OrderKind, kind.rename id = kind := by
    intro kind
    cases kind <;> simp [OrderKind.rename]
  funext order
  simp [Renaming.order, Order.rename, same, kinds]

@[simp] theorem index_same : same.index = id := by
  funext kind
  cases kind <;> rfl

@[simp] theorem trade_same : same.trade = id := rfl

@[simp] theorem event_same : same.event = id := by
  funext event
  cases event <;> rfl

@[simp] theorem rejection_same : same.rejection = id := by
  funext cause
  cases cause with
  | noSide kind => cases kind <;> simp [rejection, Rejection.rename, OrderKind.rename, same]
  | _ => rfl

@[simp] theorem refusal_same : same.refusal = id := by
  funext refusal
  cases refusal with
  | rejected cause => exact congrArg Refusal.rejected (congrFun rejection_same cause)
  | _ => rfl

end Same

variable {names}

theorem side_inj {one other : Side} : names.side one = names.side other ↔ one = other := by
  have turned := names.side_opposite one
  constructor
  · intro equal
    by_contra apart
    have opposite : other = one.opposite := by
      cases one <;> cases other <;> first | rfl | exact absurd rfl apart
    rw [← opposite, ← equal] at turned
    exact (names.side one).opposite_ne turned.symm
  · rintro rfl
    rfl

theorem index_indexKind (own : Side) : names.index own.indexKind = (names.side own).indexKind := by cases own <;> rfl

theorem index_inj {one other : IndexKind} : names.index one = names.index other ↔ one = other := by
  have sides : ∀ left right : Side, left.indexKind = right.indexKind ↔ left = right := by
    intro left right
    cases left <;> cases right <;> simp [Side.indexKind]
  have stops : ∀ own : Side, own.indexKind ≠ .stops := by
    intro own
    cases own <;> simp [Side.indexKind]
  cases one <;> cases other <;> simp [index, sides, side_inj, stops, (stops _).symm]

theorem crosses_eq (own : Side) {trigger price : Price} (triggerKnown : names.knows trigger)
    (priceKnown : names.knows price) :
    (names.side own).crosses (names.price trigger) (names.price price) = own.crosses trigger price := by
  have reversed : ∀ (side : Side) (limit other : Price), side.crosses limit other = !side.within limit other := by
    intro side limit other
    rw [Bool.eq_not_iff, Ne, Bool.eq_iff_iff]
    cases side <;> simp only [Side.crosses, Side.within, decide_eq_true_eq, Fixed.lt_iff_raw,
      Fixed.le_iff_raw] <;> omega
  rw [reversed, reversed, names.within_eq own triggerKnown priceKnown]

/-- One offer comes before another if it is the better one, or no worse and older. -/
theorem before_eq_within {side : Side} {left right : Offer} : Offer.before side left right
    = (!side.within left.price right.price || (side.within right.price left.price && left.maker ≤ right.maker)) := by
  rw [Bool.eq_iff_iff, Offer.before_iff]
  cases side <;>
    simp only [Side.within, Bool.or_eq_true, Bool.and_eq_true, Bool.not_eq_true', decide_eq_true_eq,
      decide_eq_false_iff_not, Fixed.le_iff_raw, OrderId.le_iff_number] <;> omega

theorem before_eq (own : Side) {left right : Offer} (leftKnown : names.knows left.price)
    (rightKnown : names.knows right.price) :
    Offer.before (names.side own) (names.offer left) (names.offer right) = Offer.before own left right := by
  rw [before_eq_within, before_eq_within]
  simp only [offer, Offer.rename, names.within_eq own leftKnown rightKnown, names.within_eq own rightKnown leftKnown]
  rfl

end Renaming
end LimitBook
