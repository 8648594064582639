import LimitBook.Proofs.Book.History
import LimitBook.Proofs.Ledger.Acceptance

/-! Cascades of a book. The trades of a call stand in the order in which the new order and the stops were carried out,
and no order takes in two calls. -/
namespace LimitBook.Book

variable {config : Config} {fresh : Book}

/-- The takers of earlier calls have had their turn: none of them is new, and none waits. -/
theorem taken_before (opened : open? config = .ok fresh) (orders : List Order) {trade : Trade}
    (earlier : trade ∈ fresh.returned orders) :
    ∃ order, (fresh.after orders).ledger.get? trade.taker = some order ∧ order.isPending = false := by
  obtain ⟨-, returned, -⟩ := standing_after opened orders
  obtain ⟨full, events, halts, audit, moves, alike⟩ := history_after opened orders
  rw [returned, audit, Event.trades_append, Event.trades_halted, List.append_nil] at earlier
  rw [alike.records]
  exact moves.took Ledger.coherent_empty earlier

/-- The trades of an accepted order are its own and then those of the stops that fired, block after block; every stop
fires at the price of the trade that first crosses its trigger, in the order of these trades and of admission; and no
taker has taken in an earlier call. -/
theorem trades_in_turn (opened : open? config = .ok fresh) (orders : List Order) {order : Order} {trades : List Trade}
    (accepted : ((fresh.after orders).add order).answer = .ok trades) :
    let book := fresh.after orders
    (∃ own blocks, book.ledger.InTurn trades (Event.firings (book.add order).events) own blocks)
      ∧ ∀ trade ∈ trades, ∀ other ∈ fresh.returned orders, other.taker ≠ trade.taker := by
  intro book
  obtain ⟨standing, -⟩ := standing_after opened orders
  cases standing.call order with
  | taken _ coherent room admissible added taken moves =>
    rw [added] at accepted ⊢
    obtain rfl := Except.ok.inj accepted
    obtain ⟨own, firings, reported⟩ := Ledger.accept_reported coherent room admissible
    rw [taken] at reported
    have turns := reported.inTurn coherent room moves
    refine ⟨⟨own, _, turns⟩, ?_⟩
    intro trade member other earlier same
    obtain ⟨record, found, idle⟩ := taken_before opened orders earlier
    rw [same] at found
    have traded := reported.trades
    dsimp only at traded
    rw [traded, List.mem_append, List.mem_flatMap] at member
    rcases member with first | ⟨firing, fired, later⟩
    · rw [reported.first trade first, coherent.get?_nextId room] at found
      cases found
    · obtain ⟨stop, waits, pending⟩ := reported.orderly.waiting firing fired
      rw [firing.taken trade later, waits] at found
      obtain rfl := Option.some.inj found
      rw [pending] at idle
      cases idle
  | refused _ _ added | spent _ _ _ added | halted _ added =>
    rw [added] at accepted
    cases accepted

/-- A market order fires two of three stops at once, and the trade of the younger one fires the third. -/
theorem trades_in_turn_three_stops : ∃ fresh, open? (Config.cents "ACME") = .ok fresh ∧
    let orders := [.limit .sell 1 (.ofCents 101), .limit .sell 1 (.ofCents 102),
      .limit .sell 1 (.ofCents 103), .limit .sell 1 (.ofCents 104),
      .stop .buy 1 (.ofCents 100), .stop .buy 1 (.ofCents 102),
      .stop .buy 1 (.ofCents 100)]
    let trades := [⟨.ofNumber 8, .ofNumber 1, 1, .ofCents 101⟩,
      ⟨.ofNumber 5, .ofNumber 2, 1, .ofCents 102⟩,
      ⟨.ofNumber 7, .ofNumber 3, 1, .ofCents 103⟩,
      ⟨.ofNumber 6, .ofNumber 4, 1, .ofCents 104⟩]
    let book := fresh.after orders
    (book.add (.market .buy 1)).answer = .ok trades
      ∧ (∃ own blocks, book.ledger.InTurn trades (Event.firings (book.add (.market .buy 1)).events) own blocks)
      ∧ ∀ trade ∈ trades, ∀ other ∈ fresh.returned orders, other.taker ≠ trade.taker :=
  ⟨_, rfl, by decide +kernel, trades_in_turn (rfl : open? (Config.cents "ACME") = _) _ (by decide +kernel)⟩

end LimitBook.Book
