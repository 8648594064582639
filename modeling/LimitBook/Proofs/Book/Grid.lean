import LimitBook.Proofs.Book.History
import LimitBook.Proofs.Ledger.Grid
import LimitBook.Proofs.Ledger.Levels

/-! The grid of a book. Whatever orders it is given, all that it has left to trade, all that it returns and all that it
shows stays on the grid on which it admits orders. -/
namespace LimitBook

structure Snapshot.OnGrid (snapshot : Snapshot) (config : Config) : Prop where
  bids : ∀ level ∈ snapshot.bids, config.Quotes level.price
  asks : ∀ level ∈ snapshot.asks, config.Quotes level.price
  spread : ∀ price, snapshot.spread = some price → config.OnTick price
  lastPrice : ∀ price, snapshot.lastPrice = some price → config.Quotes price

private theorem Config.onTick_of_spreadOf {config : Config} {bid ask : Option Price} {price : Price}
    (spread : spreadOf bid ask = some price)
    (bids : ∀ best, bid = some best → config.Quotes best) (asks : ∀ least, ask = some least → config.Quotes least) :
    config.OnTick price := by
  intro tick given
  obtain ⟨best, least, bidding, asking, difference⟩ := spreadOf_eq_some_iff.mp spread
  rw [difference]
  exact Int.dvd_sub ((asks least asking).onTick tick given) ((bids best bidding).onTick tick given)

namespace Book
open Ledger (Moves)

structure OnGrid (book : Book) (trades : List Trade) (config : Config) : Prop where
  remaining : ∀ order ∈ book.ledger.orders.toList, order.isCancel = false → config.InLots order.remaining
  trades : ∀ trade ∈ trades, trade.OnGrid config
  listed : ∀ kind, ∀ entry ∈ book.ledger.index kind, config.Quotes entry.price
  lastPrice : ∀ price, book.ledger.lastPrice = some price → config.Quotes price
  bestBid : ∀ price, book.bestBid = some price → config.Quotes price
  bestAsk : ∀ price, book.bestAsk = some price → config.Quotes price
  spread : ∀ price, book.spread = some price → config.OnTick price
  snapshot : ∀ depth, ∃ snapshot, book.snapshot depth = .ok snapshot ∧ snapshot.OnGrid config

variable {config : Config} {book : Book} {events : List Event}

private theorem Standing.remaining_inLots (standing : book.Standing events) {order : Order}
    (stored : order ∈ book.ledger.orders.toList)
    (trading : order.isCancel = false) : book.config.InLots order.remaining := by
  have reached : ∀ {ledger : Ledger} {past : List Event}, Moves book.config .empty none past ledger none →
      order ∈ ledger.orders.toList → book.config.InLots order.remaining := by
    intro ledger past moves member
    have found := (moves.coherent Ledger.coherent_empty).mem_orders_iff.mp member
    have rooted := moves.rooted Ledger.coherent_empty Ledger.rooted_empty
    exact moves.accounted.inLots rooted (fun trade made => (moves.onGrid trade made).volume) _ order found trading
  cases standing with
  | running _ moves => exact reached moves stored
  | @spent _ full _ new _ moves _ admissible last _ =>
    rw [last, Ledger.store, Array.toList_push, List.mem_append] at stored
    rcases stored with earlier | now
    · exact reached moves earlier
    · obtain rfl := List.mem_singleton.mp now
      change book.config.InLots new.remaining
      rw [admissible.whole]
      exact admissible.inLots trading

private theorem quotes_of_bestPrice {index : PriceIndex} {highestFirst : Bool} {price : Price}
    (listed : ∀ entry ∈ index, config.Quotes entry.price) (best : index.bestPrice highestFirst = some price) :
    config.Quotes price := by
  obtain ⟨entry, member, rfl⟩ := PriceIndex.exists_entry_of_bestPrice best
  exact listed entry member

/-- Levels and their spread come of the entries of the two sides. -/
theorem snapshot_onGrid (listed : ∀ kind, ∀ entry ∈ book.ledger.index kind, config.Quotes entry.price)
    (records : ∀ kind, ∀ entry ∈ book.ledger.index kind, ∃ order, book.ledger.get? entry.id = some order)
    (last : ∀ price, book.ledger.lastPrice = some price → config.Quotes price) (depth : Nat) :
    ∃ snapshot, book.snapshot depth = .ok snapshot ∧ snapshot.OnGrid config := by
  obtain ⟨bids, bidding, buyers⟩ := Ledger.depth_eq (listed (Side.indexKind .buy)) (records _) depth
  obtain ⟨asks, asking, sellers⟩ := Ledger.depth_eq (listed (Side.indexKind .sell)) (records _) depth
  refine ⟨.ofLevels book.config.instrument bids asks book.ledger.lastPrice (.ofNat book.pendingStops), ?_,
    buyers, sellers, ?_, last⟩
  · rw [snapshot, bidding, asking]
    rfl
  · intro price spread
    have heads : ∀ {levels : List Level}, (∀ level ∈ levels, config.Quotes level.price) →
        ∀ best, levels.head?.map Level.price = some best → config.Quotes best := by
      intro levels shown best first
      obtain ⟨level, leads, rfl⟩ := Option.map_eq_some_iff.mp first
      exact shown level (List.mem_of_head? leads)
    exact Config.onTick_of_spreadOf spread (heads buyers) (heads sellers)

/-- The grid on which orders are admitted is closed under trading. After every history of an opened book: with a
lot, what every order that trades has left, and the volume of every trade that was returned, is a multiple of
it; with a tick, the price of every trade, the last price, the best prices, the prices of all levels and the
spread are multiples of it; and with or without them all these prices but the spread, and those at which the
indexes list orders, are positive. -/
theorem stays_on_grid {config : Config} {fresh : Book} (opened : open? config = .ok fresh) (orders : List Order) :
    (fresh.after orders).OnGrid (fresh.returned orders) config := by
  obtain ⟨standing, returned, same, -⟩ := standing_after opened orders
  obtain ⟨full, earlier, halts, audit, moves, alike⟩ := history_after opened orders
  have coherent := moves.coherent Ledger.coherent_empty
  have rooted := moves.rooted Ledger.coherent_empty Ledger.rooted_empty
  have listed : ∀ kind, ∀ entry ∈ (fresh.after orders).ledger.index kind, config.Quotes entry.price := by
    intro kind entry member
    rw [alike.entries] at member
    exact rooted.quotes coherent member
  have records : ∀ kind, ∀ entry ∈ (fresh.after orders).ledger.index kind,
      ∃ order, (fresh.after orders).ledger.get? entry.id = some order := by
    intro kind entry member
    rw [alike.entries] at member
    obtain ⟨order, found, -⟩ := coherent.listed.mp member
    exact ⟨order, (alike.records _).trans found⟩
  have last : ∀ price, (fresh.after orders).ledger.lastPrice = some price → config.Quotes price := by
    intro price shown
    rw [alike.lastPrice] at shown
    rcases moves.traded_at Ledger.coherent_empty shown with before | ⟨trade, reported, rfl⟩
    · cases before
    · exact (moves.onGrid trade reported).price
  have bestBid : ∀ price, (fresh.after orders).bestBid = some price → config.Quotes price :=
    fun _ => quotes_of_bestPrice (listed .bids)
  have bestAsk : ∀ price, (fresh.after orders).bestAsk = some price → config.Quotes price :=
    fun _ => quotes_of_bestPrice (listed .asks)
  exact {
    remaining := fun order stored trading => same ▸ standing.remaining_inLots stored trading
    trades := by
      rw [returned, audit, Event.trades_append, Event.trades_halted, List.append_nil]
      exact moves.onGrid
    listed := listed
    lastPrice := last
    bestBid := bestBid
    bestAsk := bestAsk
    spread := fun price spread => Config.onTick_of_spreadOf spread bestBid bestAsk
    snapshot := snapshot_onGrid listed records last }

/-- Lots of 10 and ticks of 5. A purchase takes one ask and part of another, and fires a stop that takes more of it. -/
theorem stays_on_grid_partial_fills :
    let config := (Config.plain "ACME").withGrid (some (.ofCents 5)) (some (.ofUnits 10))
    let orders := [.limit .sell (.ofUnits 20) (.ofCents 105), .limit .sell (.ofUnits 40) (.ofCents 110),
      .limit .buy (.ofUnits 10) (.ofCents 95),
      .stopLimit .buy (.ofUnits 20) (.ofCents 100) (.ofCents 110), .market .buy (.ofUnits 30)]
    ∃ fresh, open? config = .ok fresh
      ∧ (fresh.returned orders).map Trade.volume = [.ofUnits 20, .ofUnits 10, .ofUnits 20]
      ∧ (fresh.after orders).spread = some (.ofCents 15)
      ∧ (fresh.after orders).OnGrid (fresh.returned orders) config :=
  ⟨_, rfl, by decide +kernel, by decide +kernel, stays_on_grid (rfl : open? _ = _) _⟩

end Book
end LimitBook
