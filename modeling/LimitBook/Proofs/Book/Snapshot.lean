import LimitBook.Proofs.Book.History
import LimitBook.Proofs.Ledger.Resting

/-! Snapshots of a book, recounted from its records and from the trades that it has returned. -/
namespace LimitBook

structure Snapshot.Recounts (snapshot : Snapshot) (book : Book) (trades : List Trade) (depth : Nat) : Prop where
  instrument : snapshot.instrument = book.config.instrument
  bids : snapshot.bids = (book.ledger.levels .buy).take depth
  asks : snapshot.asks = (book.ledger.levels .sell).take depth
  best : 0 < depth → snapshot.bestBid = book.bestBid ∧ snapshot.bestAsk = book.bestAsk ∧ snapshot.spread = book.spread
  bidVolume : (book.ledger.levels .buy).length ≤ depth →
      totalVolume snapshot.bids = .capped (book.ledger.restingUnits .buy)
  askVolume : (book.ledger.levels .sell).length ≤ depth →
      totalVolume snapshot.asks = .capped (book.ledger.restingUnits .sell)
  lastPrice : snapshot.lastPrice = trades.getLast?.map Trade.price
  pendingStops : snapshot.pendingStops.toNat = book.ledger.waiting.length

namespace Book
open Ledger (Moves)

structure Recounted (book : Book) (trades : List Trade) : Prop where
  limited : ∀ side, ∀ order ∈ book.ledger.resting side, ∃ price, order.limitPrice = some price
  limits : ∀ side price, price ∈ book.ledger.limits side ↔ ∃ order ∈ book.ledger.resting side,
      order.limitPrice = some price
  bestFirst : ∀ side, (book.ledger.limits side).Pairwise side.leads
  snapshot : ∀ depth, ∃ snapshot, book.snapshot depth = .ok snapshot ∧ snapshot.Recounts book trades depth
  nested : ∀ {shallow deep : Nat} {less more : Snapshot}, shallow ≤ deep → book.snapshot shallow = .ok less →
    book.snapshot deep = .ok more → less.bids <+: more.bids ∧ less.asks <+: more.asks

variable {config : Config} {book : Book} {events : List Event} {trades : List Trade}

private theorem head?_take_levels {ledger : Ledger} {side : Side} {depth : Nat} (positive : 0 < depth) :
    ((ledger.levels side).take depth).head?.map Level.price = (ledger.limits side).head? := by
  rw [List.head?_take, if_neg (Nat.ne_of_gt positive), Ledger.levels, List.head?_map, Option.map_map]
  exact congrFun Option.map_id _

theorem snapshot_eq (tallied : book.ledger.Tallied) (depth : Nat) :
    book.snapshot depth = .ok (.ofLevels book.config.instrument ((book.ledger.levels .buy).take depth)
      ((book.ledger.levels .sell).take depth) book.ledger.lastPrice (.ofNat book.pendingStops)) := by
  rw [snapshot, tallied.depth, tallied.depth]
  rfl

private theorem recounts (tallied : book.ledger.Tallied)
    (last : book.ledger.lastPrice = trades.getLast?.map Trade.price) (depth : Nat) :
    (Snapshot.ofLevels book.config.instrument ((book.ledger.levels .buy).take depth)
      ((book.ledger.levels .sell).take depth) book.ledger.lastPrice
        (.ofNat book.pendingStops)).Recounts book trades depth where
  instrument := rfl
  bids := rfl
  asks := rfl
  best := by
    intro positive
    have bid : book.bestBid = (book.ledger.limits .buy).head? := tallied.best .buy
    have ask : book.bestAsk = (book.ledger.limits .sell).head? := tallied.best .sell
    refine ⟨?_, ?_, ?_⟩
    · rw [bid, ← head?_take_levels positive]
      rfl
    · rw [ask, ← head?_take_levels positive]
      rfl
    · rw [spread, bid, ask, ← head?_take_levels positive, ← head?_take_levels positive]
      rfl
  bidVolume := by
    intro all
    rw [← tallied.total, Snapshot.ofLevels, List.take_of_length_le all]
  askVolume := by
    intro all
    rw [← tallied.total, Snapshot.ofLevels, List.take_of_length_le all]
  lastPrice := last
  pendingStops := by
    rw [← tallied.stops]
    exact Nat.mod_eq_of_lt tallied.few

private theorem recounted_of_tallied (tallied : book.ledger.Tallied)
    (last : book.ledger.lastPrice = trades.getLast?.map Trade.price) :
    book.Recounted trades where
  limited := tallied.limited
  limits := fun _ _ => Ledger.mem_limits
  bestFirst := fun _ => Ledger.pairwise_limits
  snapshot := fun depth => ⟨_, snapshot_eq tallied depth, recounts tallied last depth⟩
  nested := by
    intro shallow deep less more deeper first second
    rw [snapshot_eq tallied] at first second
    obtain rfl := Except.ok.inj first
    obtain rfl := Except.ok.inj second
    exact ⟨List.take_prefix_take_left deeper, List.take_prefix_take_left deeper⟩

/-- After every history of an opened book a snapshot of any depth succeeds. Its levels are the first of the
limits at which open orders of a side rest, each once and the best first, with the exact sum of what these
orders have left, cut down to 64 bits; a deeper snapshot begins with the same levels. One level is enough for
the best prices and the spread of the book, all of them for what rests on a side. The last price is that of the
latest trade returned, and the stops counted are those that wait. -/
theorem snapshots_recount {fresh : Book} (opened : open? config = .ok fresh) (orders : List Order) :
    (fresh.after orders).Recounted (fresh.returned orders) := by
  obtain ⟨standing, returned, -, -⟩ := standing_after opened orders
  rw [returned]
  have traded : ∀ {past : List Event} {full : Ledger} {config : Config}, Moves config .empty none past full none →
      full.lastPrice = (Event.trades past).getLast?.map Trade.price := by
    intro past full config moves
    rw [moves.lastPrice_eq Ledger.coherent_empty, Event.prices_eq]
    exact Option.or_none
  cases standing with
  | running _ moves => exact recounted_of_tallied (moves.coherent Ledger.coherent_empty).tallied (traded moves)
  | spent _ moves spent _ stored same =>
    have coherent := moves.coherent Ledger.coherent_empty
    refine recounted_of_tallied ?_ ?_
    · rw [stored]
      exact coherent.tallied.congr (Ledger.alike_store spent _) (coherent.records_store spent _)
    · rw [stored, same, Ledger.lastPrice_store]
      exact traded moves

/-- Two bids at one price that together exceed 64 bits, two asks, of which a purchase takes part of the first,
and a stop. -/
theorem snapshots_recount_full_level : ∃ fresh, open? (Config.cents "ACME") = .ok fresh ∧
    let orders := [.limit .buy .greatest (.ofCents 100), .limit .buy 1 (.ofCents 100),
      .limit .sell (.ofUnits 3) (.ofCents 105), .limit .sell 1 (.ofCents 107), .market .buy 1,
      .stop .sell 1 (.ofCents 90)]
    ((fresh.after orders).snapshot 1).toOption = some ⟨"ACME", [⟨.ofCents 100, .greatest⟩],
        [⟨.ofCents 105, .ofUnits 2⟩], some (.ofCents 5), some (.ofCents 105), 1⟩
      ∧ (fresh.after orders).Recounted (fresh.returned orders) :=
  ⟨_, rfl, by decide +kernel, snapshots_recount (rfl : open? (Config.cents "ACME") = _) _⟩

end Book
end LimitBook
