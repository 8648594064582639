import LimitBook.Proofs.Book.History
import LimitBook.Proofs.Ledger.Conservation

/-! Conservation over histories of a book: what its orders no longer have left is what the trades that it
returned have taken from them. -/
namespace LimitBook

structure Balanced (records : List Order) (trades : List Trade) : Prop where
  settled : ∀ order ∈ records, order.remaining.units + Trade.volumeOf order.id trades = order.volume.units
  distinct : (records.map Order.id).Nodup
  paired : ∀ trade ∈ trades, trade.taker ≠ trade.maker ∧ trade.taker ∈ records.map Order.id
    ∧ trade.maker ∈ records.map Order.id

namespace Balanced
variable {records : List Order} {trades : List Trade}

private theorem sum_volumes (balanced : Balanced records trades) : (records.map fun order => order.volume.units).sum
    = (records.map fun order => order.remaining.units).sum + 2 * Trade.total trades := by
  have each : records.map (fun order => order.volume.units)
      = records.map fun order => order.remaining.units + Trade.volumeOf order.id trades :=
    List.map_congr_left fun order member => (balanced.settled order member).symm
  have traded := Trade.sum_volumeOf balanced.distinct balanced.paired
  rw [List.map_map] at traded
  rw [each, List.sum_map_add]
  exact congrArg _ traded

private theorem concat (balanced : Balanced records trades) {order : Order} (whole : order.remaining = order.volume)
    (idle : Trade.volumeOf order.id trades = 0) (new : order.id ∉ records.map Order.id) :
    Balanced (records ++ [order]) trades where
  settled := by
    intro other member
    rcases List.mem_append.mp member with old | last
    · exact balanced.settled other old
    · obtain rfl := List.mem_singleton.mp last
      rw [idle, whole, Nat.add_zero]
  distinct := by
    rw [List.map_append]
    refine balanced.distinct.append (List.nodup_singleton _) ?_
    intro id old last
    obtain rfl := List.mem_singleton.mp last
    exact new old
  paired := by
    intro trade member
    obtain ⟨apart, taker, maker⟩ := balanced.paired trade member
    rw [List.map_append]
    exact ⟨apart, List.mem_append_left _ taker, List.mem_append_left _ maker⟩

end Balanced

private theorem Ledger.Accounted.balanced {ledger : Ledger} {carried : Option OrderId} {trades : List Trade}
    (accounted : ledger.Accounted trades) (coherent : ledger.Coherent carried) :
    Balanced ledger.orders.toList trades where
  settled := fun _ stored => accounted.settled (coherent.mem_orders_iff.mp stored)
  distinct := List.pairwise_map.mpr coherent.pairwise_orders
  paired := by
    intro trade member
    have known : ∀ {id}, (∃ order, ledger.get? id = some order) → id ∈ ledger.orders.toList.map Order.id := by
      rintro id ⟨order, found⟩
      have own := coherent.numbered found
      exact List.mem_map.mpr ⟨order, coherent.mem_orders_iff.mpr (by rw [own]; exact found), own⟩
    obtain ⟨apart, taker, maker⟩ := accounted.paired trade member
    exact ⟨apart, known taker, known maker⟩

namespace Book

private theorem Standing.balanced {book : Book} {events : List Event} (standing : book.Standing events) :
    Balanced book.ledger.orders.toList (Event.trades events) := by
  cases standing with
  | running _ moves => exact moves.accounted.balanced (moves.coherent Ledger.coherent_empty)
  | @spent fault full earlier order faulted moves spent admissible stored trades =>
    have coherent := moves.coherent Ledger.coherent_empty
    -- The last record carries the number zero, which no other record has.
    have wrapped : full.nextId = .unassigned := by
      apply OrderId.ext
      rw [coherent.counted, spent]
      rfl
    have absent : full.get? .unassigned = none := rfl
    have records : book.ledger.orders.toList = full.orders.toList ++ [order.numbered .unassigned] := by
      rw [stored, Ledger.store, wrapped]
      exact Array.toList_push
    rw [records, trades]
    refine (moves.accounted.balanced coherent).concat admissible.whole (moves.accounted.unknown absent) ?_
    intro member
    obtain ⟨other, old, zero⟩ := List.mem_map.mp member
    have found := coherent.mem_orders_iff.mp old
    rw [zero] at found
    exact absurd (found.symm.trans absent) (by simp)

/-- After every history of an opened book each order has traded exactly what it no longer has left, in the
trades that the book returned; over all orders every returned trade counts twice; and the book returned the
trades that it carried out, each once and in their order. -/
theorem conserves_volume {config : Config} {fresh : Book} (opened : open? config = .ok fresh) (orders : List Order) :
    let records := (fresh.after orders).ledger.orders.toList
    let trades := fresh.returned orders
    (∀ order ∈ records, (order.volume.units : Int) - order.remaining.units = Trade.volumeOf order.id trades)
      ∧ (records.map fun order => order.volume.units).sum
        = (records.map fun order => order.remaining.units).sum + 2 * Trade.total trades
      ∧ trades = Event.trades (fresh.audit orders) := by
  intro records trades
  obtain ⟨standing, returned, -⟩ := standing_after opened orders
  have balanced : Balanced records trades := by
    have all := standing.balanced
    rw [← returned] at all
    exact all
  refine ⟨?_, balanced.sum_volumes, returned⟩
  intro order stored
  have settled := balanced.settled order stored
  omega

/-- A buyer takes from an offer and rests with what is left, which a later seller takes. -/
theorem conserves_volume_two_trades : ∃ fresh, open? (Config.cents "ACME") = .ok fresh ∧
    let orders := [.limit .sell 1 (.ofCents 100), .limit .buy (.ofUnits 3) (.ofCents 100),
      .market .sell (.ofUnits 2)]
    let records := (fresh.after orders).ledger.orders.toList
    let trades := fresh.returned orders
    trades = [⟨.ofNumber 2, .ofNumber 1, 1, .ofCents 100⟩, ⟨.ofNumber 3, .ofNumber 2, .ofUnits 2, .ofCents 100⟩]
      ∧ (∀ order ∈ records, (order.volume.units : Int) - order.remaining.units = Trade.volumeOf order.id trades)
      ∧ (records.map fun order => order.volume.units).sum
        = (records.map fun order => order.remaining.units).sum + 2 * Trade.total trades
      ∧ trades = Event.trades (fresh.audit orders) :=
  ⟨_, rfl, by decide +kernel, conserves_volume (rfl : open? (Config.cents "ACME") = _) _⟩

end Book
end LimitBook
