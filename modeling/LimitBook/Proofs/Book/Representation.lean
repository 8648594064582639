import LimitBook.Proofs.Book.History

/-! The representation of a book between calls: what its records, its three indexes and the cancelled
numbers say of each other while nothing is in flight. -/
namespace LimitBook

namespace Ledger

structure Represented (ledger : Ledger) : Prop where
  numbered : ∀ place order, ledger.orders[place]? = some order → order.id.number = place + 1
  counted : ledger.nextId.number = ledger.orders.size + 1
  bids : ∀ entry, entry ∈ ledger.bids ↔ ∃ order ∈ ledger.orders, order.id = entry.id
    ∧ order.side = some .buy ∧ order.isActive = true ∧ order.limitPrice = some entry.price
  asks : ∀ entry, entry ∈ ledger.asks ↔ ∃ order ∈ ledger.orders, order.id = entry.id
    ∧ order.side = some .sell ∧ order.isActive = true ∧ order.limitPrice = some entry.price
  stops : ∀ entry, entry ∈ ledger.stops ↔ ∃ order ∈ ledger.orders, order.id = entry.id
    ∧ order.triggerPrice = some entry.price ∧ order.triggered = false ∧ order.cancelled = false
  once : ledger.bids.toList.Nodup ∧ ledger.asks.toList.Nodup ∧ ledger.stops.toList.Nodup
  waiting : ∀ order ∈ ledger.orders, order.isStop = true → order.triggered = false → order.cancelled = false →
    order.remaining = order.volume ∧ order.executed = false
  cancelled : ∀ id, id ∈ ledger.cancelled ↔ ∃ order ∈ ledger.orders, order.id = id ∧ order.cancelled = true
  filled : ∀ order ∈ ledger.orders, order.isCancel = false →
    order.remaining ≤ order.volume ∧ (order.executed = true ↔ order.remaining = 0)
  apart : ∀ order ∈ ledger.orders, ¬ (order.cancelled = true ∧ order.executed = true)
  fired : ∀ order ∈ ledger.orders, order.triggered = true → order.isStop = true
  /-- Market orders, and stops that have become market orders, are never left open. -/
  closed : ∀ order ∈ ledger.orders,
    order.kind = .market ∨ (order.isStop = true ∧ order.triggered = true ∧ order.limitPrice = none) →
      order.executed = true ∨ order.cancelled = true

variable {ledger : Ledger} {carried : Option OrderId}

private theorem Coherent.mem_records_iff (coherent : ledger.Coherent carried) {order : Order} :
    order ∈ ledger.orders ↔ ledger.get? order.id = some order := by
  rw [← Array.mem_toList_iff, coherent.mem_orders_iff]

private theorem Coherent.exists_record_iff (coherent : ledger.Coherent carried) {id : OrderId}
    {property : Order → Prop} :
    (∃ order, ledger.get? id = some order ∧ property order)
      ↔ ∃ order ∈ ledger.orders, order.id = id ∧ property order := by
  constructor
  · rintro ⟨order, found, holds⟩
    have own := coherent.numbered found
    exact ⟨order, coherent.mem_records_iff.mpr (by rw [own]; exact found), own, holds⟩
  · rintro ⟨order, stored, rfl, holds⟩
    exact ⟨order, coherent.mem_records_iff.mp stored, holds⟩

theorem Coherent.mem_side_iff (coherent : ledger.Coherent carried) (side : Side) {entry : Entry} :
    entry ∈ ledger.index side.indexKind ↔ ∃ order ∈ ledger.orders, order.id = entry.id
      ∧ order.side = some side ∧ order.isActive = true ∧ order.limitPrice = some entry.price := by
  rw [coherent.listed, coherent.exists_record_iff]
  simp only [Order.place_eq_side_iff, and_left_comm]

theorem Coherent.mem_stops_iff (coherent : ledger.Coherent carried) {entry : Entry} :
    entry ∈ ledger.index .stops ↔ ∃ order ∈ ledger.orders, order.id = entry.id
      ∧ order.triggerPrice = some entry.price ∧ order.triggered = false ∧ order.cancelled = false := by
  rw [coherent.listed, coherent.exists_record_iff]
  have waits : ∀ order : Order, order.place = some (.stops, entry.price)
      ↔ order.triggerPrice = some entry.price ∧ order.triggered = false ∧ order.cancelled = false := by
    intro order
    rw [Order.place_eq_stops_iff, Order.isPending_iff]
    constructor
    · rintro ⟨⟨-, untouched, live⟩, given⟩
      exact ⟨given, untouched, live⟩
    · rintro ⟨given, untouched, live⟩
      exact ⟨⟨Order.isStop_of_triggerPrice given, untouched, live⟩, given⟩
  simp only [waits]

private theorem nodup_toList (index : PriceIndex) : index.toList.Nodup := by
  refine index.ascending.imp ?_
  rintro entry _ below rfl
  exact Entry.lt_irrefl entry below

private theorem Coherent.closed (coherent : ledger.Coherent none) {order : Order} (stored : order ∈ ledger.orders)
    (unlimited : order.kind = .market ∨ (order.isStop = true ∧ order.triggered = true ∧ order.limitPrice = none)) :
    order.executed = true ∨ order.cancelled = true := by
  have found := coherent.mem_records_iff.mp stored
  by_contra left
  rw [not_or, Bool.not_eq_true, Bool.not_eq_true] at left
  have bare : order.limitPrice = none ∧ order.isCancel = false ∧ (order.isStop = true → order.triggered = true) := by
    rcases unlimited with kind | ⟨stop, fired, bare⟩
    · simp [Order.limitPrice, Order.isCancel, Order.isStop, kind, OrderKind.limitPrice]
    · exact ⟨bare, Order.isCancel_of_isStop stop, fun _ => fired⟩
  have active := Order.isActive_iff.mpr ⟨left.2, left.1, bare.2⟩
  cases coherent.limited found active bare.1

/-- Between calls a coherent ledger that has numbers left is represented as it should be. -/
theorem Coherent.represented (coherent : ledger.Coherent none)
    (left : ledger.orders.size < 0xffff_ffff_ffff_ffff) : ledger.Represented where
  numbered := by
    intro place order stored
    obtain ⟨within, -⟩ := Array.getElem?_eq_some_iff.mp stored
    rw [getElem?_orders ledger (by omega)] at stored
    rw [coherent.numbered stored]
  counted := coherent.number_nextId (by omega)
  bids := fun _ => coherent.mem_side_iff .buy
  asks := fun _ => coherent.mem_side_iff .sell
  stops := fun _ => coherent.mem_stops_iff
  once := ⟨nodup_toList _, nodup_toList _, nodup_toList _⟩
  waiting := by
    intro order stored stop untouched live
    have regular := coherent.regular (coherent.mem_records_iff.mp stored)
    exact ⟨regular.whole stop untouched,
      regular.executed_of_isPending (Order.isPending_iff.mpr ⟨stop, untouched, live⟩)⟩
  cancelled := by
    intro id
    rw [coherent.withdrawn, coherent.exists_record_iff]
  filled := by
    intro order stored trades
    have regular := coherent.regular (coherent.mem_records_iff.mp stored)
    exact ⟨regular.remaining_le, regular.executed_iff trades⟩
  apart := by
    rintro order stored ⟨withdrawn, executed⟩
    have regular := coherent.regular (coherent.mem_records_iff.mp stored)
    rw [regular.not_both withdrawn] at executed
    cases executed
  fired := fun _ stored => (coherent.regular (coherent.mem_records_iff.mp stored)).stop_of_triggered
  closed := fun _ => coherent.closed

end Ledger

namespace Book

/-- After every history of an opened book its ledger is represented as it should be, as long as the
64-bit numbers of its orders have not run out. -/
theorem represented_after {config : Config} {fresh : Book} (opened : open? config = .ok fresh) (orders : List Order)
    (left : (fresh.after orders).ledger.orders.size < 0xffff_ffff_ffff_ffff) :
    (fresh.after orders).ledger.Represented := by
  obtain ⟨standing, -⟩ := standing_after opened orders
  obtain ⟨-, moves⟩ := standing.running_of_size (by omega)
  exact (moves.coherent Ledger.coherent_empty).represented left

/-- A bid, a sell stop that a sale at the bid fires, and a cancel order that comes too late. -/
theorem represented_after_stop : ∃ fresh, open? (Config.cents "ACME") = .ok fresh ∧
    let orders := [.limit .buy 1 (.ofCents 100), .stop .sell 1 (.ofCents 101), .market .sell 1, .cancel (.ofNumber 1)]
    (fresh.after orders).ledger.orders.size < 0xffff_ffff_ffff_ffff
      ∧ (fresh.after orders).ledger.orders.toList.map (fun order => (order.executed, order.cancelled, order.triggered))
        = [(true, false, false), (false, true, true), (true, false, false), (false, false, false)]
      ∧ (fresh.after orders).ledger.Represented :=
  ⟨_, rfl, by decide +kernel, by decide +kernel,
    represented_after (rfl : open? (Config.cents "ACME") = _) _ (by decide +kernel)⟩

end Book
end LimitBook
