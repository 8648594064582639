import LimitBook.Event
import LimitBook.PriceIndex

/-! Where an order stands. Its record decides which index has to list it, and an event decides how
the record goes on; of a regular record the flags and the volumes agree. -/
namespace LimitBook

theorem OrderKind.mem_prices_iff {kind : OrderKind} {price : Price} :
    price ∈ kind.prices ↔ kind.limitPrice = some price ∨ kind.triggerPrice = some price := by
  cases kind with
  | market => simp [prices, limitPrice, triggerPrice]
  | limit own => simp [prices, limitPrice, triggerPrice, eq_comm]
  | stop trigger bound => simp [prices, limitPrice, triggerPrice, eq_comm, or_comm]
  | cancel target => simp [prices, limitPrice, triggerPrice]

namespace Order

def isPending (order : Order) : Bool := order.isStop && !order.triggered && !order.cancelled

/-- The index that has to list an order and its price there: a pending stop waits at its trigger, an
active order rests at its limit. -/
def place (order : Order) : Option (IndexKind × Price) :=
  if order.isPending then order.triggerPrice.map fun trigger => (.stops, trigger)
  else if order.isActive then
    match order.side, order.limitPrice with
    | some side, some limit => some (side.indexKind, limit)
    | _, _ => none
  else none

def take (order : Order) (volume : Volume) : Order :=
  { order with
    remaining := order.remaining - volume
    executed := order.executed || order.remaining - volume = 0 }

def fire (order : Order) : Order := { order with triggered := true }

def withdraw (order : Order) : Order := { order with cancelled := true }

def changedAt (id : OrderId) (change : Order → Order) (order : Order) : Order :=
  if order.id = id then change order else order

@[simp] theorem id_fire (order : Order) : order.fire.id = order.id := rfl

@[simp] theorem cancelled_withdraw (order : Order) : order.withdraw.cancelled = true := rfl

theorem fill?_eq_take {order : Order} {volume : Volume} (positive : volume ≠ 0)
    (within : volume ≤ order.remaining) : order.fill? volume = some (order.take volume) := by
  have allowed : ¬ (volume = 0 ∨ order.remaining < volume) := by
    rw [Volume.le_iff_units] at within
    rw [Volume.lt_iff_units]
    rintro (zero | short)
    · exact positive zero
    · omega
  simp only [fill?, allowed, if_false, take]

theorem isActive_iff {order : Order} :
    order.isActive = true ↔ order.cancelled = false ∧ order.executed = false ∧ order.isCancel = false
      ∧ (order.isStop = true → order.triggered = true) := by
  unfold isActive
  cases order.cancelled <;> cases order.executed <;> cases order.isCancel <;> cases order.isStop <;>
    cases order.triggered <;> decide

theorem isPending_iff {order : Order} :
    order.isPending = true ↔ order.isStop = true ∧ order.triggered = false ∧ order.cancelled = false := by
  unfold isPending
  cases order.isStop <;> cases order.triggered <;> cases order.cancelled <;> decide

theorem not_isActive_of_isPending {order : Order} (pending : order.isPending = true) :
    order.isActive = false := by
  obtain ⟨stop, waiting, -⟩ := isPending_iff.mp pending
  cases active : order.isActive with
  | false => rfl
  | true => exact absurd ((isActive_iff.mp active).2.2.2 stop) (by simp [waiting])

theorem not_isPending_of_isActive {order : Order} (active : order.isActive = true) : order.isPending = false := by
  rw [← Bool.not_eq_true]
  intro pending
  rw [not_isActive_of_isPending pending] at active
  cases active

theorem isStop_of_triggerPrice {order : Order} {trigger : Price} (given : order.triggerPrice = some trigger) :
    order.isStop = true := by
  unfold triggerPrice OrderKind.triggerPrice at given
  unfold isStop
  split at given <;> simp_all

theorem isStop_of_isTriggeredBy {order : Order} {price : Price} (crossed : order.isTriggeredBy price = true) :
    order.isStop = true := by
  unfold isTriggeredBy at crossed
  split at crossed
  · rename_i trigger side given sided
    exact isStop_of_triggerPrice given
  · cases crossed

theorem isTriggeredBy_of_stop {order : Order} {side : Side} {trigger price : Price} {limit : Option Price}
    (kind : order.kind = .stop trigger limit) (sided : order.side = some side) :
    order.isTriggeredBy price = side.crosses trigger price := by
  simp [isTriggeredBy, triggerPrice, kind, OrderKind.triggerPrice, sided]

theorem triggerPrice_of_isStop {order : Order} (stop : order.isStop = true) :
    ∃ trigger, order.triggerPrice = some trigger := by
  unfold isStop at stop
  unfold triggerPrice OrderKind.triggerPrice
  split at stop
  · rename_i trigger limit kind
    exact ⟨trigger, rfl⟩
  · cases stop

theorem isCancel_of_isStop {order : Order} (stop : order.isStop = true) : order.isCancel = false := by
  unfold isStop at stop
  unfold isCancel
  split at stop
  · rename_i trigger limit kind
    simp [kind]
  · cases stop

theorem place_eq_stops_iff {order : Order} {price : Price} :
    order.place = some (.stops, price) ↔ order.isPending = true ∧ order.triggerPrice = some price := by
  unfold place
  split
  · rename_i pending
    simp [pending]
  · rename_i waiting
    rw [Bool.not_eq_true] at waiting
    simp only [waiting, Bool.false_eq_true, false_and, iff_false]
    split
    · split
      · rename_i side _ _ _
        cases side <;> simp [Side.indexKind]
      · simp
    · simp

theorem place_eq_side_iff {order : Order} {side : Side} {price : Price} :
    order.place = some (side.indexKind, price)
      ↔ order.isActive = true ∧ order.side = some side ∧ order.limitPrice = some price := by
  unfold place
  split
  · rename_i pending
    simp only [not_isActive_of_isPending pending, Bool.false_eq_true, false_and, iff_false]
    cases order.triggerPrice <;> cases side <;> simp [Side.indexKind]
  split
  · rename_i active
    simp only [active, true_and]
    split
    · rename_i own limit sided limited
      rw [sided, limited]
      cases own <;> cases side <;> simp [Side.indexKind]
    · rename_i unplaced
      constructor
      · intro none
        cases none
      · rintro ⟨sided, limited⟩
        exact absurd limited (unplaced side price sided)
  · rename_i inactive
    simp [inactive]

theorem place_cases {order : Order} {kind : IndexKind} {price : Price} (placed : order.place = some (kind, price)) :
    (kind = .stops ∧ order.isPending = true ∧ order.triggerPrice = some price)
      ∨ ∃ side, kind = side.indexKind ∧ order.isActive = true ∧ order.side = some side
        ∧ order.limitPrice = some price := by
  cases kind with
  | stops => exact .inl ⟨rfl, place_eq_stops_iff.mp placed⟩
  | bids => exact .inr ⟨.buy, rfl, place_eq_side_iff.mp placed⟩
  | asks => exact .inr ⟨.sell, rfl, place_eq_side_iff.mp placed⟩

structure Regular (order : Order) : Prop where
  sided : order.isCancel = false → order.side ≠ none
  positive : order.isCancel = false → order.volume ≠ 0
  remaining_le : order.remaining ≤ order.volume
  executed_iff : order.isCancel = false → (order.executed = true ↔ order.remaining = 0)
  not_both : order.cancelled = true → order.executed = false
  stop_of_triggered : order.triggered = true → order.isStop = true
  /-- A stop that has not fired has not traded. -/
  whole : order.isStop = true → order.triggered = false → order.remaining = order.volume
  /-- A cancel order stays as it came. -/
  inert : order.isCancel = true →
    order.remaining = order.volume ∧ order.cancelled = false ∧ order.executed = false

end Order

def Event.effect (event : Event) (order : Order) : Order :=
  match event with
  | .matched trade => if order.id = trade.taker ∨ order.id = trade.maker then order.take trade.volume else order
  | .stopTriggered id _ => if order.id = id then order.fire else order
  | .cancelled id _ => if order.id = id then order.withdraw else order
  | _ => order

def Event.price (event : Event) (last : Option Price) : Option Price :=
  match event with
  | .matched trade => some trade.price
  | _ => last

namespace Order

/-- A place follows from the side, the kind and the flags; a fill changes it only by exhausting the
order. -/
theorem place_take {order : Order} {volume : Volume} (active : order.isActive = true) :
    (order.take volume).place = if (order.take volume).executed then none else order.place := by
  obtain ⟨-, open?, -, -⟩ := isActive_iff.mp active
  have waiting := not_isPending_of_isActive active
  have same : (order.take volume).isPending = order.isPending := rfl
  split
  · rename_i exhausted
    have inactive : (order.take volume).isActive = false := by
      cases still : (order.take volume).isActive with
      | false => rfl
      | true => simp [(isActive_iff.mp still).2.1] at exhausted
    simp [place, same, waiting, inactive]
  · rename_i left
    have still : (order.take volume).isActive = order.isActive := by
      rw [Bool.not_eq_true] at left
      simp only [isActive, left, open?]
      rfl
    simp only [place, same, still]
    rfl

theorem active_or_executed_take {order : Order} (active : order.isActive = true) (volume : Volume) :
    (order.take volume).isActive = true ∨ (order.take volume).executed = true := by
  obtain ⟨live, -, trades, fired⟩ := isActive_iff.mp active
  cases exhausted : (order.take volume).executed with
  | true => exact .inr rfl
  | false => exact .inl (isActive_iff.mpr ⟨live, exhausted, trades, fired⟩)

@[simp] theorem place_withdraw (order : Order) : order.withdraw.place = none := by
  simp [place, isPending, isActive, withdraw]

theorem place_of_active {order : Order} (active : order.isActive = true) {side : Side}
    (sided : order.side = some side) : order.place = order.limitPrice.map fun limit => (side.indexKind, limit) := by
  cases limited : order.limitPrice with
  | some limit => exact place_eq_side_iff.mpr ⟨active, sided, limited⟩
  | none =>
    have waiting := not_isPending_of_isActive active
    simp [place, waiting, limited]

theorem remaining_pos {order : Order} (regular : order.Regular) (active : order.isActive = true) :
    order.remaining ≠ 0 := by
  obtain ⟨-, unfilled, trades, -⟩ := isActive_iff.mp active
  intro nothing
  rw [(regular.executed_iff trades).mpr nothing] at unfilled
  cases unfilled

namespace Regular
variable {order : Order}

theorem take (regular : order.Regular) (active : order.isActive = true) (volume : Volume) :
    (order.take volume).Regular := by
  obtain ⟨live, unfilled, trades, fired⟩ := isActive_iff.mp active
  have bound := Volume.le_iff_units.mp regular.remaining_le
  exact {
    sided := regular.sided
    positive := regular.positive
    remaining_le := by
      rw [Volume.le_iff_units]
      simp only [Order.take, Volume.units_sub]
      omega
    executed_iff := fun _ => by simp [Order.take, unfilled]
    not_both := fun marked => by
      rw [show (order.take volume).cancelled = order.cancelled from rfl, live] at marked
      cases marked
    stop_of_triggered := regular.stop_of_triggered
    whole := fun stop waiting => by
      rw [show (order.take volume).triggered = order.triggered from rfl, fired stop] at waiting
      cases waiting
    inert := fun cancel => by
      rw [show (order.take volume).isCancel = order.isCancel from rfl, trades] at cancel
      cases cancel }

theorem withdraw (regular : order.Regular) (trades : order.isCancel = false) (unfilled : order.executed = false) :
    order.withdraw.Regular where
  sided := regular.sided
  positive := regular.positive
  remaining_le := regular.remaining_le
  executed_iff := regular.executed_iff
  not_both := fun _ => unfilled
  stop_of_triggered := regular.stop_of_triggered
  whole := regular.whole
  inert := fun cancel => by
    rw [show order.withdraw.isCancel = order.isCancel from rfl, trades] at cancel
    cases cancel

theorem fire (regular : order.Regular) (stop : order.isStop = true) :
    order.fire.Regular where
  sided := regular.sided
  positive := regular.positive
  remaining_le := regular.remaining_le
  executed_iff := regular.executed_iff
  not_both := regular.not_both
  stop_of_triggered := fun _ => stop
  whole := nofun
  inert := regular.inert

theorem remaining_of_executed (regular : order.Regular) (executed : order.executed = true) : order.remaining = 0 := by
  have trades : order.isCancel = false := by
    cases cancel : order.isCancel with
    | false => rfl
    | true => simp [(regular.inert cancel).2.2] at executed
  exact (regular.executed_iff trades).mp executed

theorem executed_of_isPending (regular : order.Regular) (pending : order.isPending = true) :
    order.executed = false := by
  obtain ⟨stop, waiting, -⟩ := isPending_iff.mp pending
  have trades := isCancel_of_isStop stop
  cases filled : order.executed with
  | false => rfl
  | true =>
    have nothing := (regular.executed_iff trades).mp filled
    exact absurd (regular.whole stop waiting ▸ nothing) (regular.positive trades)

end Regular

@[simp] theorem id_effect (event : Event) (order : Order) : (event.effect order).id = order.id := by
  unfold Event.effect
  split <;> try split
  all_goals rfl

end Order
end LimitBook
