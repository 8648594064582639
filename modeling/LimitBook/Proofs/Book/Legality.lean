import LimitBook.Proofs.Book.History
import LimitBook.Proofs.Ledger.Legality

/-! Legal trades of a book. Whatever orders a book is given, each of its trades is one that the two orders may make as
they stand at that moment, so that there are no more trades than orders that can trade. -/
namespace LimitBook.Book
open Replay (picture)

variable {config : Config} {fresh book : Book} {events : List Event}

private theorem Standing.allows (standing : book.Standing events) (order : Order) {earlier rest : List Event}
    {trade : Trade} (reported : (book.add order).events = earlier ++ .matched trade :: rest) :
    ∃ taker maker side, ((picture book.ledger [order]).run earlier).Allows trade taker maker side := by
  have member : .matched trade ∈ (book.add order).events := by
    rw [reported]
    exact List.mem_append_right _ List.mem_cons_self
  cases standing.call order with
  | taken _ coherent room admissible added accepted =>
    rw [added] at reported
    exact Ledger.accept_allows coherent room admissible ((congrArg Outcome.events accepted).trans reported)
  | refused _ _ added | spent _ _ _ added | halted _ added =>
    rw [added] at member
    simp at member

private theorem Standing.length_trades_le (standing : book.Standing events) :
    (Event.trades events).length ≤ (book.ledger.orders.toList.filter fun order => !order.isCancel).length := by
  cases standing with
  | running _ moves =>
    have executed := moves.executions Ledger.coherent_empty
    have bound := (moves.coherent Ledger.coherent_empty).executions_le
    omega
  | @spent _ full _ order _ moves _ _ stored trades =>
    have executed := moves.executions Ledger.coherent_empty
    have bound := (moves.coherent Ledger.coherent_empty).executions_le
    have grown : (full.orders.toList.filter fun order => !order.isCancel).length
        ≤ (book.ledger.orders.toList.filter fun order => !order.isCancel).length := by
      simp [stored, Ledger.store]
    rw [trades]
    omega

/-- In every history of an opened book an order that was cancelled is named by no later trade. -/
theorem untraded_after (opened : open? config = .ok fresh) (orders : List Order) {earlier rest : List Event}
    {id : OrderId}
    {reason : CancelReason} (cancelled : fresh.audit orders = earlier ++ .cancelled id reason :: rest) {trade : Trade}
    (traded : trade ∈ Event.trades rest) : trade.names id = false := by
  obtain ⟨full, known, halts, audit, moves, -⟩ := history_after opened orders
  have struck : ∀ event ∈ halts.map Event.halted, event ≠ .cancelled id reason := by
    simp
  rw [audit] at cancelled
  rcases List.append_eq_append_iff.mp cancelled with ⟨more, -, late⟩ | ⟨more, early, late⟩
  · exact absurd rfl (struck _ (late ▸ List.mem_append_right _ List.mem_cons_self))
  cases more with
  | nil =>
    rw [List.nil_append] at late
    exact absurd rfl (struck _ (late ▸ List.mem_cons_self))
  | cons first more =>
    obtain ⟨rfl, rfl⟩ := List.cons.inj late
    rw [early] at moves
    change trade ∈ Event.trades (more ++ halts.map .halted) at traded
    rw [Event.trades_append, Event.trades_halted, List.append_nil] at traded
    exact moves.untraded Ledger.coherent_empty traded

/-- Whatever orders an opened book was given: every trade that it returns for one more order is between two
different orders that stand on opposite sides and may trade at that moment, at the limit of the maker and within
that of the taker, and uses up one of them. It has returned no more trades than it has taken in orders that
trade, and none that names an order cancelled before. -/
theorem trades_legal (opened : open? config = .ok fresh) (orders : List Order) :
    let book := fresh.after orders
    (∀ order, (book.add order).trades = Event.trades (book.add order).events
        ∧ ∀ earlier trade rest, (book.add order).events = earlier ++ .matched trade :: rest →
          ∃ taker maker side, ((picture book.ledger [order]).run earlier).Allows trade taker maker side)
      ∧ (fresh.returned orders).length ≤ (book.ledger.orders.toList.filter fun order => !order.isCancel).length
      ∧ ∀ earlier id reason rest, fresh.audit orders = earlier ++ .cancelled id reason :: rest →
        ∀ trade ∈ Event.trades rest, trade.names id = false := by
  intro book
  obtain ⟨standing, returned, -⟩ := standing_after opened orders
  refine ⟨fun order => ⟨(standing.add order).2.1, fun earlier trade rest => standing.allows order⟩, ?_, ?_⟩
  · rw [returned]
    exact standing.length_trades_le
  · intro earlier id reason rest cancelled trade
    exact untraded_after opened orders cancelled

/-- A sale fires a stop-limit order, which trades with what is left of a bid and rests until it is withdrawn. -/
theorem trades_legal_stop_limit : ∃ fresh, open? (Config.cents "ACME") = .ok fresh ∧
    let orders := [.limit .buy (.ofUnits 2) (.ofCents 100),
      .stopLimit .sell (.ofUnits 3) (.ofCents 101) (.ofCents 98), .market .sell 1,
      .cancel (.ofNumber 2), .limit .buy 1 (.ofCents 98)]
    let book := fresh.after orders
    fresh.returned orders = [⟨.ofNumber 3, .ofNumber 1, 1, .ofCents 100⟩, ⟨.ofNumber 2, .ofNumber 1, 1, .ofCents 100⟩]
      ∧ Event.withdrawals (fresh.audit orders) = [.ofNumber 2]
      ∧ (∀ order, (book.add order).trades = Event.trades (book.add order).events
        ∧ ∀ earlier trade rest, (book.add order).events = earlier ++ .matched trade :: rest →
          ∃ taker maker side, ((picture book.ledger [order]).run earlier).Allows trade taker maker side)
      ∧ (fresh.returned orders).length ≤ (book.ledger.orders.toList.filter fun order => !order.isCancel).length
      ∧ ∀ earlier id reason rest, fresh.audit orders = earlier ++ .cancelled id reason :: rest →
        ∀ trade ∈ Event.trades rest, trade.names id = false :=
  ⟨_, rfl, by decide +kernel, by decide +kernel, trades_legal (rfl : open? (Config.cents "ACME") = _) _⟩

end LimitBook.Book
