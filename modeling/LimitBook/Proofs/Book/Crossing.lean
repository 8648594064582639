import LimitBook.Proofs.Book.History
import LimitBook.Proofs.Ledger.Crossing
import LimitBook.Proofs.Ledger.Depth

/-! The spread of a book. Between calls no bid reaches an ask, so that the spread is positive wherever there is one. -/
namespace LimitBook

namespace Book

structure Uncrossed (book : Book) : Prop where
  best : ∀ bid ask, book.bestBid = some bid → book.bestAsk = some ask → bid < ask
  limits : ∀ one two buyer seller bid ask, book.ledger.get? one = some buyer → book.ledger.get? two = some seller →
    buyer.isActive = true → seller.isActive = true → buyer.side = some .buy → seller.side = some .sell →
    buyer.limitPrice = some bid → seller.limitPrice = some ask → bid < ask
  spread_iff : (∃ price, book.spread = some price ∧ 0 < price) ↔ 0 < book.openCount .buy ∧ 0 < book.openCount .sell
  spread_positive : ∀ price, book.spread = some price → 0 < price

/-- Uncrossed prices that are positive differ by a price. -/
theorem spreadOf_eq {bid ask : Price} (positive : 0 < bid) (apart : bid < ask) :
    ∃ price, spreadOf (some bid) (some ask) = some price ∧ 0 < price := by
  have low : (0 : Int) < bid.raw := positive
  have gap : bid.raw < ask.raw := apart
  have high := ask.upper
  have bounds : -0x8000_0000_0000_0000 ≤ ask.raw - bid.raw ∧ ask.raw - bid.raw < 0x8000_0000_0000_0000 := by omega
  refine ⟨⟨ask.raw - bid.raw, bounds.1, bounds.2⟩, ?_, ?_⟩
  · exact spreadOf_eq_some_iff.mpr ⟨bid, ask, rfl, rfl, rfl⟩
  · change (0 : Int) < ask.raw - bid.raw
    omega

private theorem spread_eq_some {book : Book} {price : Price} (spread : book.spread = some price) :
    ∃ bid ask, book.bestBid = some bid ∧ book.bestAsk = some ask := by
  obtain ⟨bid, ask, best, least, -⟩ := spreadOf_eq_some_iff.mp spread
  exact ⟨bid, ask, best, least⟩

/-- After every history of an opened book the best bid is below the best ask, no active buyer's limit reaches an
active seller's, and the spread is a positive price exactly when both sides have orders. -/
theorem never_crossed {config : Config} {fresh : Book} (opened : open? config = .ok fresh) (orders : List Order) :
    (fresh.after orders).Uncrossed := by
  let book := fresh.after orders
  obtain ⟨full, earlier, halts, -, moves, alike⟩ := history_after opened orders
  have coherent := moves.coherent Ledger.coherent_empty
  have uncrossed := moves.uncrossed Ledger.coherent_empty Ledger.uncrossed_empty
  have rooted := moves.rooted Ledger.coherent_empty Ledger.rooted_empty
  have bids : book.ledger.bids = full.index .bids := alike.entries .bids
  have asks : book.ledger.asks = full.index .asks := alike.entries .asks
  have apart : ∀ bid ask, book.bestBid = some bid → book.bestAsk = some ask → 0 < bid ∧ bid < ask := by
    intro bid ask best least
    rw [bestBid, bids] at best
    rw [bestAsk, asks] at least
    obtain ⟨buying, bidding, rfl⟩ := PriceIndex.exists_entry_of_bestPrice best
    obtain ⟨selling, asking, rfl⟩ := PriceIndex.exists_entry_of_bestPrice least
    exact ⟨rooted.positive coherent .buy bidding, uncrossed buying bidding selling asking nofun nofun⟩
  have spread : ∀ bid ask, book.bestBid = some bid → book.bestAsk = some ask →
      ∃ price, book.spread = some price ∧ 0 < price := by
    intro bid ask best least
    obtain ⟨positive, below⟩ := apart bid ask best least
    rw [Book.spread, best, least]
    exact spreadOf_eq positive below
  refine ⟨fun bid ask best least => (apart bid ask best least).2, ?_, ⟨?_, ?_⟩, ?_⟩
  · intro one two buyer seller bid ask stored there buys sells buying selling limited offered
    rw [alike.records] at stored there
    have bidding : (⟨bid, one⟩ : Entry) ∈ full.index .bids :=
      coherent.listed.mpr ⟨buyer, stored, Order.place_eq_side_iff.mpr ⟨buys, buying, limited⟩⟩
    have asking : (⟨ask, two⟩ : Entry) ∈ full.index .asks :=
      coherent.listed.mpr ⟨seller, there, Order.place_eq_side_iff.mpr ⟨sells, selling, offered⟩⟩
    exact uncrossed _ bidding _ asking nofun nofun
  · rintro ⟨price, given, -⟩
    obtain ⟨bid, ask, best, least⟩ := spread_eq_some given
    exact ⟨PriceIndex.exists_bestPrice_iff.mp ⟨bid, best⟩, PriceIndex.exists_bestPrice_iff.mp ⟨ask, least⟩⟩
  · rintro ⟨buyers, sellers⟩
    obtain ⟨bid, best⟩ := PriceIndex.exists_bestPrice_iff.mpr buyers
    obtain ⟨ask, least⟩ := PriceIndex.exists_bestPrice_iff.mpr sellers
    exact spread bid ask best least
  · intro price given
    obtain ⟨bid, ask, best, least⟩ := spread_eq_some given
    obtain ⟨other, same, positive⟩ := spread bid ask best least
    obtain rfl := Option.some.inj (given.symm.trans same)
    exact positive

/-- A sell stop fires with a limit below two bids, takes the better one that is left and rests above the other. -/
theorem never_crossed_stop_limit : ∃ fresh, open? (Config.cents "ACME") = .ok fresh ∧
    let book := fresh.after [.limit .buy 1 (.ofCents 100), .limit .buy 1 (.ofCents 99),
      .limit .buy 1 (.ofCents 90),
      .stopLimit .sell (.ofUnits 3) (.ofCents 101) (.ofCents 98), .market .sell 1]
    book.spread = some (.ofCents 8) ∧ book.Uncrossed :=
  ⟨_, rfl, by decide +kernel, never_crossed (rfl : open? (Config.cents "ACME") = _) _⟩

end Book
end LimitBook
