import LimitBook.Proofs.Book.History
import LimitBook.Proofs.Ledger.Continuity
import LimitBook.Proofs.Ledger.Replay

/-! Permanence. No call takes anything back, whatever the book it is made on; and in a book that was opened and
given any orders, the record of an order that is closed never changes again. -/
namespace LimitBook

private theorem Order.isLive_eq_false_iff {order : Order} :
    order.isLive = false ↔ order.executed = true ∨ order.cancelled = true ∨ order.isCancel = true := by
  unfold isLive
  cases order.executed <;> cases order.cancelled <;> cases order.isCancel <;> decide

namespace Ledger
variable {config : Config} {ledger next : Ledger} {before later : Option OrderId} {events : List Event} {id : OrderId}
  {record : Order}

/-- No move is about an order that is closed. -/
theorem Move.effects_of_closed (move : Move config ledger before events next later) (coherent : ledger.Coherent before)
    (found : ledger.get? id = some record) (closed : record.isLive = false) : Event.effects events record = record := by
  have numbered := coherent.numbered found
  have apart : ∀ {other : OrderId} {order : Order}, ledger.get? other = some order → order.isLive = true →
      record.id ≠ other := by
    rintro other order there live rfl
    rw [numbered, found] at there
    obtain rfl := Option.some.inj there
    rw [closed] at live
    cases live
  cases move with
  | enrol | park | close | rest | ignore | reject => rfl
  | trade fair =>
    have taking := apart fair.takerFound (Order.isLive_of_isActive fair.takerActive)
    have making := apart fair.makerFound (Order.isLive_of_isActive fair.makerActive)
    exact if_neg (not_or.mpr ⟨taking, making⟩)
  | discard there active => exact if_neg (apart there (Order.isLive_of_isActive active))
  | trigger there pending =>
    obtain ⟨stop, -, live⟩ := Order.isPending_iff.mp pending
    have unfilled := (coherent.regular there).executed_of_isPending pending
    refine if_neg (apart there ?_)
    simp [Order.isLive, Order.isCancel_of_isStop stop, unfilled, live]
  | withdraw there withdrawable => exact if_neg (apart there (isWithdrawable_iff_isLive.mp withdrawable).2)

private theorem Move.keeps_closed (move : Move config ledger before events next later)
    (coherent : ledger.Coherent before)
    (found : ledger.get? id = some record) (closed : record.isLive = false) : next.get? id = some record := by
  rw [move.get?_eq_effects coherent found, move.effects_of_closed coherent found closed]

private theorem Moves.keeps_closed (moves : Moves config ledger before events next later)
    (coherent : ledger.Coherent before)
    (found : ledger.get? id = some record) (closed : record.isLive = false) : next.get? id = some record := by
  induction moves with
  | refl => exact found
  | tail moves move ih => exact move.keeps_closed (moves.coherent coherent) (ih coherent) closed

end Ledger

namespace Book
variable {book fresh : Book} {config : Config} {events : List Event} {place : Nat} {record : Order}

theorem advances_add (book : Book) (order : Order) (room : book.ledger.nextId.number < 0xffff_ffff_ffff_ffff) :
    book.ledger.Advances (book.add order).book.ledger := by
  have same : book.ledger.Advances book.ledger := ⟨.refl book.ledger, Nat.le_refl _⟩
  have accepted := Ledger.advances_accept order room
  unfold add
  split
  · exact same
  split
  · exact same
  split
  · rename_i reached
    rw [reached] at accepted
    exact accepted
  · rename_i reached
    rw [reached] at accepted
    exact accepted

private theorem Standing.keeps_closed (standing : book.Standing events) (order : Order)
    (stored : book.ledger.orders[place]? = some record) (closed : record.isLive = false) :
    (book.add order).book.ledger.orders[place]? = some record := by
  obtain ⟨within, -⟩ := Array.getElem?_eq_some_iff.mp stored
  cases standing.call order with
  | @taken next _ _ coherent room _ added _ moves =>
    have fits : place + 1 < 0x1_0000_0000_0000_0000 := by omega
    rw [Ledger.getElem?_orders _ fits] at stored
    rw [added, Ledger.getElem?_orders _ fits]
    exact moves.keeps_closed coherent stored closed
  | refused _ _ added =>
    rw [added]
    exact stored
  | spent _ _ _ added =>
    rw [added]
    change (book.ledger.orders.push _)[place]? = some record
    rw [Array.getElem?_push_lt within, ← Array.getElem?_eq_getElem within, stored]
  | halted _ added =>
    rw [added]
    exact stored

/-- Records only go forward. Whatever book an order is given to, coherent or not, and wherever the call stops:
every record stays at its place, keeps its number, side, kind and volume, has no more left to trade than before
and loses no flag; no cancelled number is dropped, and the next number does not go back. After any history of an
opened book, an order that is executed or cancelled, and every cancel order, keeps its record for ever. -/
theorem records_go_forward :
    (∀ (book : Book) (order : Order), book.ledger.nextId.number < 0xffff_ffff_ffff_ffff →
        book.ledger.Advances (book.add order).book.ledger)
      ∧ ∀ (config : Config) (fresh : Book), open? config = .ok fresh →
        ∀ (orders more : List Order) (place : Nat) (record : Order),
        (fresh.after orders).ledger.orders[place]? = some record →
        record.executed = true ∨ record.cancelled = true ∨ record.isCancel = true →
          (fresh.after (orders ++ more)).ledger.orders[place]? = some record := by
  refine ⟨advances_add, ?_⟩
  intro config fresh opened orders more place record stored closed
  -- The calls to come are added one by one; the book stands after each of them.
  induction more using List.reverseRecOn with
  | nil =>
    rw [List.append_nil]
    exact stored
  | append_singleton more order ih =>
    obtain ⟨standing, -⟩ := standing_after opened (orders ++ more)
    rw [← List.append_assoc, after_concat]
    exact standing.keeps_closed order ih (Order.isLive_eq_false_iff.mpr closed)

/-- A sale meets an ask that its index lists among the bids, and the book halts. In another book a sold out ask
outlives a cancel order and a trade of others. -/
theorem records_go_forward_wrong_side :
    (∃ book : Book, book.fault = none ∧ (book.add (.market .sell 1)).book.isHalted = true
        ∧ book.ledger.nextId.number < 0xffff_ffff_ffff_ffff
        ∧ book.ledger.Advances (book.add (.market .sell 1)).book.ledger)
      ∧ ∃ fresh record, open? (Config.cents "ACME") = .ok fresh ∧
        let orders := [.limit .sell 1 (.ofCents 100), .market .buy 1]
        let more := [.cancel .first, .limit .sell 1 (.ofCents 101), .market .buy 1]
        (fresh.after orders).ledger.orders[0]? = some record
          ∧ (record.executed = true ∨ record.cancelled = true ∨ record.isCancel = true)
          ∧ (fresh.after (orders ++ more)).ledger.orders[0]? = some record := by
  obtain ⟨advances, keeps⟩ := records_go_forward
  refine ⟨⟨⟨.cents "ACME", by rfl, (Ledger.empty.store (.limit .sell 1 (.ofCents 100))).enter .bids
    ⟨.ofCents 99, .first⟩, none⟩, rfl, by decide +kernel, by decide +kernel, advances _ _ (by decide +kernel)⟩, ?_⟩
  refine ⟨_, (Order.limit .sell 1 (.ofCents 100)).numbered .first |>.take 1, rfl, by decide +kernel,
    .inl (by decide), ?_⟩
  exact keeps _ _ (rfl : open? (Config.cents "ACME") = _) _ _ 0 _ (by decide +kernel) (.inl (by decide))

end Book
end LimitBook
