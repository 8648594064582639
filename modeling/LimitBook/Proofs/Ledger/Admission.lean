import LimitBook.Book
import LimitBook.Proofs.Config
import LimitBook.Proofs.Ledger.Coherence

/-! New records. An order is admitted if it brings no number, has not been carried out in part and lies on
the grid; its record is regular and enters the index that has to list it. -/
namespace LimitBook

namespace Config

def InLots (config : Config) (volume : Volume) : Prop := ∀ lot, config.lotSize = some lot → lot.units ∣ volume.units

def OnTick (config : Config) (price : Price) : Prop := ∀ tick, config.tickSize = some tick → tick.raw ∣ price.raw

structure Quotes (config : Config) (price : Price) : Prop where
  positive : 0 < price
  onTick : config.OnTick price

private theorem TakesPrice.quotes {config : Config} {price : Price} (takes : config.TakesPrice price) :
    config.Quotes price :=
  ⟨takes.positive, fun tick given => (takes.onTick tick given).2⟩

end Config

namespace Order
variable {config : Config} {order : Order}

structure Admissible (config : Config) (order : Order) : Prop where
  unnumbered : order.id = .unassigned
  whole : order.remaining = order.volume
  live : order.cancelled = false
  unfilled : order.executed = false
  waiting : order.triggered = false
  onGrid : config.check order = .onGrid

def numbered (order : Order) (id : OrderId) : Order := { order with id }

@[simp] theorem id_numbered (order : Order) (id : OrderId) : (order.numbered id).id = id := rfl

theorem carriesState_eq_false_iff : order.carriesState = false ↔ order.remaining = order.volume
    ∧ order.cancelled = false ∧ order.executed = false ∧ order.triggered = false := by
  simp [carriesState, and_assoc]

namespace Admissible

theorem takes (admissible : Admissible config order) (trades : order.isCancel = false) : config.Takes order := by
  rcases Config.check_eq_onGrid_iff.mp admissible.onGrid with cancel | takes
  · rw [trades] at cancel
    cases cancel
  · exact takes

theorem traded (admissible : Admissible config order) (trades : order.isCancel = false) :
    order.side ≠ none ∧ order.volume ≠ 0 := by
  have takes := admissible.takes trades
  refine ⟨takes.sided, fun empty => ?_⟩
  exact Nat.ne_of_gt takes.positive (Volume.eq_zero_iff.mp empty)

/-- An admitted order carries no price off the grid, be it the trigger of a stop or its limit. -/
theorem quotes (admissible : Admissible config order) {price : Price} (carried : price ∈ order.kind.prices) :
    config.Quotes price := by
  cases cancel : order.isCancel with
  | true =>
    unfold Order.isCancel at cancel
    split at cancel
    · rename_i target kind
      rw [kind] at carried
      cases carried
    · cases cancel
  | false => exact ((admissible.takes cancel).takesPrice carried).quotes

theorem inLots (admissible : Admissible config order) (trades : order.isCancel = false) : config.InLots order.volume :=
  fun lot given => ((admissible.takes trades).volume lot given).2

theorem regular (admissible : Admissible config order) (id : OrderId) : (order.numbered id).Regular where
  sided := fun trades => (admissible.traded trades).1
  positive := fun trades => (admissible.traded trades).2
  remaining_le := Nat.le_of_eq (congrArg Volume.units admissible.whole)
  executed_iff := by
    intro trades
    have positive := (admissible.traded trades).2
    rw [← admissible.whole] at positive
    simp [Order.numbered, admissible.unfilled, positive]
  not_both := fun _ => admissible.unfilled
  stop_of_triggered := fun fired => absurd (admissible.waiting.symm.trans fired) Bool.false_ne_true
  whole := fun _ _ => admissible.whole
  inert := fun _ => ⟨admissible.whole, admissible.live, admissible.unfilled⟩

theorem isActive_eq (admissible : Admissible config order) : order.isActive = (!order.isCancel && !order.isStop) := by
  simp [isActive, admissible.live, admissible.unfilled, admissible.waiting]

theorem isPending_eq (admissible : Admissible config order) : order.isPending = order.isStop := by
  simp [isPending, admissible.live, admissible.waiting]

/-- An admitted order trades at once, waits as a stop, or withdraws another one. -/
theorem kind_cases (admissible : Admissible config order) : order.isActive = true
    ∨ (order.isActive = false ∧ ∃ trigger limit, order.kind = .stop trigger limit)
    ∨ (order.isActive = false ∧ ∃ target, order.kind = .cancel target) := by
  rw [admissible.isActive_eq, isCancel, isStop]
  cases kind : order.kind with
  | market => exact .inl rfl
  | limit price => exact .inl rfl
  | stop trigger limit => exact .inr (.inl ⟨rfl, trigger, limit, rfl⟩)
  | cancel target => exact .inr (.inr ⟨rfl, target, rfl⟩)

end Admissible

@[simp] theorem place_numbered (order : Order) (id : OrderId) : (order.numbered id).place = order.place := rfl

@[simp] theorem kind_numbered (order : Order) (id : OrderId) : (order.numbered id).kind = order.kind := rfl

@[simp] theorem isPending_numbered (order : Order) (id : OrderId) :
    (order.numbered id).isPending = order.isPending := rfl

@[simp] theorem isActive_numbered (order : Order) (id : OrderId) : (order.numbered id).isActive = order.isActive := rfl

end Order

theorem Book.objection_eq_none_iff {book : Book} {order : Order} :
    book.objection order = none ↔ order.Admissible book.config := by
  have assigned : order.id.isAssigned = true ↔ order.id ≠ .unassigned := by
    simp [OrderId.isAssigned, OrderId.unassigned, OrderId.ext_iff]
  constructor
  · intro agrees
    unfold objection at agrees
    split at agrees
    · cases agrees
    rename_i unassigned
    rw [assigned, not_not] at unassigned
    split at agrees
    · cases agrees
    rename_i untouched
    obtain ⟨whole, live, unfilled, waiting⟩ := Order.carriesState_eq_false_iff.mp (Bool.not_eq_true _ ▸ untouched)
    split at agrees
    · rename_i onGrid
      exact ⟨unassigned, whole, live, unfilled, waiting, onGrid⟩
    · cases agrees
    · rename_i undefined
      exact absurd undefined (Config.check_ne_undefined book.sound order)
  · intro admissible
    have unassigned : order.id.isAssigned = false := by
      rw [← Bool.not_eq_true, assigned, not_not]
      exact admissible.unnumbered
    have untouched := Order.carriesState_eq_false_iff.mpr
      ⟨admissible.whole, admissible.live, admissible.unfilled, admissible.waiting⟩
    unfold objection
    rw [unassigned, untouched]
    simp only [Bool.false_eq_true, if_false]
    split
    · rfl
    · rename_i offGrid
      rw [admissible.onGrid] at offGrid
      cases offGrid
    · rename_i undefined
      rw [admissible.onGrid] at undefined
      cases undefined

namespace Ledger
variable {config : Config} {ledger : Ledger} {carried : Option OrderId} {order : Order}

def admitted (ledger : Ledger) (order : Order) : Ledger :=
  (ledger.store order).enlist (order.numbered ledger.nextId)

section Store

@[simp] theorem size_store (ledger : Ledger) (order : Order) :
    (ledger.store order).orders.size = ledger.orders.size + 1 := by simp [store]

@[simp] theorem index_store (ledger : Ledger) (order : Order) (kind : IndexKind) :
    (ledger.store order).index kind = ledger.index kind := by cases kind <;> rfl

@[simp] theorem cancelled_store (ledger : Ledger) (order : Order) :
    (ledger.store order).cancelled = ledger.cancelled := rfl

@[simp] theorem lastPrice_store (ledger : Ledger) (order : Order) :
    (ledger.store order).lastPrice = ledger.lastPrice := rfl

theorem Coherent.number_nextId (coherent : ledger.Coherent carried)
    (room : ledger.orders.size + 1 < 0x1_0000_0000_0000_0000) : ledger.nextId.number = ledger.orders.size + 1 := by
  rw [coherent.counted, Nat.mod_eq_of_lt room]

theorem Coherent.get?_store (coherent : ledger.Coherent carried)
    (room : ledger.orders.size + 1 < 0x1_0000_0000_0000_0000) (id : OrderId) :
    (ledger.store order).get? id
      = if id = ledger.nextId then some (order.numbered ledger.nextId) else ledger.get? id := by
  have number := coherent.number_nextId room
  unfold get?
  by_cases new : id = ledger.nextId
  · subst new
    simp [store, number, Order.numbered]
  · have apart : id.number ≠ ledger.orders.size + 1 := fun same => new (OrderId.ext (same.trans number.symm))
    rw [if_neg new]
    split
    · rfl
    · simp only [store]
      rw [Array.getElem?_push, if_neg (by omega)]

theorem Coherent.get?_nextId (coherent : ledger.Coherent carried)
    (room : ledger.orders.size + 1 < 0x1_0000_0000_0000_0000) : ledger.get? ledger.nextId = none := by
  cases found : ledger.get? ledger.nextId with
  | none => rfl
  | some other =>
    have bound := number_le_size found
    rw [coherent.number_nextId room] at bound
    omega

theorem Coherent.ne_nextId (coherent : ledger.Coherent carried)
    (room : ledger.orders.size + 1 < 0x1_0000_0000_0000_0000)
    {id : OrderId} {record : Order} (found : ledger.get? id = some record) : id ≠ ledger.nextId := by
  rintro rfl
  rw [coherent.get?_nextId room] at found
  cases found

end Store

@[simp] theorem size_admitted (ledger : Ledger) (order : Order) :
    (ledger.admitted order).orders.size = ledger.orders.size + 1 := by
  simp [admitted]

theorem Coherent.get?_admitted (coherent : ledger.Coherent carried)
    (room : ledger.orders.size + 1 < 0x1_0000_0000_0000_0000) (id : OrderId) :
    (ledger.admitted order).get? id
      = if id = ledger.nextId then some (order.numbered ledger.nextId) else ledger.get? id := by
  rw [admitted, get?_enlist, coherent.get?_store room]

/-- An admission keeps every record that there was. -/
theorem Coherent.get?_admitted_of_some (coherent : ledger.Coherent carried)
    (room : ledger.orders.size + 1 < 0x1_0000_0000_0000_0000) {id : OrderId} {record : Order}
    (found : ledger.get? id = some record) : (ledger.admitted order).get? id = some record := by
  rw [coherent.get?_admitted room, if_neg (coherent.ne_nextId room found), found]

/-- A new order is in flight if it trades at once. -/
theorem coherent_admitted (coherent : ledger.Coherent none) (room : ledger.orders.size + 1 < 0x1_0000_0000_0000_0000)
    (admissible : order.Admissible config) :
    (ledger.admitted order).Coherent (if order.isActive then some ledger.nextId else none) where
  numbered := by
    intro id record found
    rw [coherent.get?_admitted room] at found
    split at found
    · rename_i new
      obtain rfl := Option.some.inj found
      exact new.symm
    · exact coherent.numbered found
  bounded := by
    rw [size_admitted]
    exact room
  counted := by
    rw [size_admitted, admitted, nextId_enlist]
    change (ledger.nextId.number + 1) % _ = _
    rw [coherent.number_nextId room]
  regular := by
    intro id record found
    rw [coherent.get?_admitted room] at found
    split at found
    · obtain rfl := Option.some.inj found
      exact admissible.regular _
    · exact coherent.regular found
  listed := by
    intro kind entry
    rw [coherent.get?_admitted room, admitted, mem_enlist, index_store, coherent.listed, Order.id_numbered,
      Order.place_numbered]
    by_cases new : entry.id = ledger.nextId
    · simp [new, coherent.get?_nextId room]
    · simp [new]
  withdrawn := by
    intro id
    rw [coherent.get?_admitted room, admitted, cancelled_enlist, cancelled_store, coherent.withdrawn]
    by_cases new : id = ledger.nextId
    · simp [new, coherent.get?_nextId room, Order.numbered, admissible.live]
    · simp [new]
  limited := by
    intro id record found active unlimited
    rw [coherent.get?_admitted room] at found
    split at found
    · rename_i new
      obtain rfl := Option.some.inj found
      rw [Order.isActive_numbered] at active
      rw [active, new]
      rfl
    · cases coherent.limited found active unlimited

end Ledger
end LimitBook
