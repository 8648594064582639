import LimitBook.Proofs.Ledger.Conservation

/-! The grid. An order is looked at once, when it is admitted, and as a whole; what it has left after any trades
is still made of whole lots, and every trade takes place at a price that an admitted order carries. -/
namespace LimitBook

structure Trade.OnGrid (trade : Trade) (config : Config) : Prop where
  volume : config.InLots trade.volume
  price : config.Quotes trade.price

private theorem Trade.dvd_volumeOf {lot : Nat} {id : OrderId} {trades : List Trade}
    (whole : ∀ trade ∈ trades, lot ∣ trade.volume.units) :
    lot ∣ volumeOf id trades := by
  apply List.dvd_sum
  intro units summed
  obtain ⟨trade, member, rfl⟩ := List.mem_map.mp summed
  exact whole trade (List.mem_of_mem_filter member)

namespace Ledger
variable {config : Config} {ledger next : Ledger} {before later carried : Option OrderId} {events : List Event}
  {trades : List Trade}

def InLots (ledger : Ledger) (config : Config) : Prop :=
  ∀ id order, ledger.get? id = some order → order.isCancel = false → config.InLots order.remaining

/-- What is left of an order that was admitted is its volume less what it has traded. -/
theorem Accounted.inLots (accounted : ledger.Accounted trades) (rooted : ledger.Rooted config)
    (whole : ∀ trade ∈ trades, config.InLots trade.volume) : ledger.InLots config := by
  intro id order found trading lot given
  obtain ⟨origin, admissible, goesOn⟩ := rooted id order found
  have volume : lot.units ∣ order.volume.units := by
    rw [goesOn.sameVolume]
    exact admissible.inLots (goesOn.isCancel_eq.symm.trans trading) lot given
  have traded : lot.units ∣ Trade.volumeOf id trades :=
    Trade.dvd_volumeOf fun trade member => whole trade member lot given
  rw [← accounted.settled found] at volume
  exact (Nat.dvd_add_left traded).mp volume

/-- A fair trade is as big as what one of its ends has left, and takes place at the limit of the other. -/
theorem Fair.onGrid {trade : Trade} {taker maker : Order} {side : Side} (fair : ledger.Fair trade taker maker side)
    (rooted : ledger.Rooted config) (lots : ledger.InLots config) : trade.OnGrid config where
  volume := by
    rcases fair.exhausts with taken | given
    · rw [← taken]
      exact lots _ taker fair.takerFound (Order.isActive_iff.mp fair.takerActive).2.2.1
    · rw [← given]
      exact lots _ maker fair.makerFound (Order.isActive_iff.mp fair.makerActive).2.2.1
  price := rooted.quotes_of_mem_prices fair.makerFound (OrderKind.mem_prices_iff.mpr (.inl fair.price))

theorem Move.onGrid (move : Move config ledger before events next later) (rooted : ledger.Rooted config)
    (lots : ledger.InLots config) : ∀ trade ∈ Event.trades events, trade.OnGrid config := by
  intro trade reported
  cases move with
  | trade fair =>
    obtain rfl := List.mem_singleton.mp reported
    exact fair.onGrid rooted lots
  | enrol | close | park | rest | discard | trigger | withdraw | ignore | reject => cases reported

/-- No history leaves the grid: while all trades so far are on it, every order has whole lots left for the next one. -/
theorem Moves.onGrid (moves : Moves config .empty none events next later) :
    ∀ trade ∈ Event.trades events, trade.OnGrid config := by
  generalize origin : Ledger.empty = start at moves
  generalize nobody : none = flying at moves
  induction moves with
  | refl => simp
  | tail moves move ih =>
    subst origin nobody
    have early := ih rfl
    have rooted := moves.rooted coherent_empty rooted_empty
    have lots := moves.accounted.inLots rooted fun trade member => (early trade member).volume
    intro trade reported
    rw [Event.trades_append] at reported
    rcases List.mem_append.mp reported with past | now
    · exact early trade past
    · exact move.onGrid rooted lots trade now

/-- The last price is the price of a trade. -/
theorem Moves.traded_at (moves : Moves config ledger before events next later)
    (coherent : ledger.Coherent before) {price : Price} (last : next.lastPrice = some price) :
    ledger.lastPrice = some price ∨ ∃ trade ∈ Event.trades events, trade.price = price := by
  rw [moves.lastPrice_eq coherent, Event.prices_eq, Option.or_eq_some_iff] at last
  rcases last with traded | ⟨-, start⟩
  · obtain ⟨trade, latest, rfl⟩ := Option.map_eq_some_iff.mp traded
    exact .inr ⟨trade, List.mem_of_getLast? latest, rfl⟩
  · exact .inl start

end Ledger
end LimitBook
