import LimitBook.Proofs.Book.History
import LimitBook.Proofs.Ledger.Calls
import LimitBook.Proofs.Ledger.Priority

/-! Price and time priority. Wherever a book carries an order out, matching is one walk through the offers of
the other side, best price first and oldest order first. -/
namespace LimitBook

namespace Book
open Ledger (CascadeCalls)

structure Enters (book : Book) (order : Order) (listed : Ledger) : Prop where
  running : book.fault = none
  agreed : book.objection order = none
  stored : ∃ record, (book.ledger.store order).find book.ledger.nextId = .ok record
    ∧ (record.kind = .market ∨ ∃ price, record.kind = .limit price)
    ∧ listed = (book.ledger.store order).list book.ledger.nextId record

/-- Giving `order` to a book calls `execute` for `taker` in `state`: first for the order itself, and then for the
stops that its trades fire, directly or not. -/
inductive Executes (book : Book) (order : Order) : Ledger → OrderId → Prop
  | own {listed : Ledger} (enters : book.Enters order listed) : Executes book order listed book.ledger.nextId
  | stop {listed next state : Ledger} {taker : OrderId} {trades : List Trade} (enters : book.Enters order listed)
      (executes : (listed.execute book.ledger.nextId).Reaches next trades)
      (calls : CascadeCalls next (trades.map Trade.price) state taker) : Executes book order state taker

variable {book : Book} {order : Order} {listed state : Ledger} {taker : OrderId} {events : List Event}

theorem Enters.ready (enters : book.Enters order listed) (standing : book.Standing events) :
    listed.Coherent (some book.ledger.nextId) ∧ listed.InFlight book.ledger.nextId := by
  obtain ⟨running, agreed, record, found, kind, rfl⟩ := enters
  have admissible := objection_eq_none_iff.mp agreed
  cases standing with
  | spent faulted =>
    rw [running] at faulted
    cases faulted
  | running _ moves =>
    have coherent := moves.coherent Ledger.coherent_empty
    have bounded := coherent.bounded
    have room : book.ledger.orders.size + 1 < 0x1_0000_0000_0000_0000 := by
      -- Otherwise the record would have the number zero, under which nothing is found.
      by_contra full
      have wrapped : book.ledger.nextId.number = 0 := by
        rw [coherent.counted, show book.ledger.orders.size + 1 = 0x1_0000_0000_0000_0000 by omega]
      have absent := Ledger.ne_unassigned_of_get? (Ledger.get?_of_find found)
      exact absent wrapped
    have same : record = order.numbered book.ledger.nextId := by
      have stored := Ledger.get?_of_find found
      rw [coherent.get?_store room, if_pos rfl] at stored
      exact (Option.some.inj stored).symm
    subst same
    have active : order.isActive = true := by
      rw [admissible.isActive_eq, Order.isCancel, Order.isStop]
      rw [Order.kind_numbered] at kind
      rcases kind with kind | ⟨price, kind⟩ <;> rw [kind] <;> rfl
    have admitted : (book.ledger.store order).list book.ledger.nextId (order.numbered book.ledger.nextId)
        = book.ledger.admitted order :=
      Ledger.list_eq_enlist ((Order.isActive_numbered order book.ledger.nextId).trans active)
    have settled := Ledger.coherent_admitted coherent room admissible
    rw [if_pos active] at settled
    rw [admitted]
    exact ⟨settled, Ledger.inFlight_admitted coherent room admissible active⟩

/-- Whenever a book that stands carries an order out, its ledger is coherent with that order in flight. -/
theorem Executes.ready (executes : book.Executes order state taker) (standing : book.Standing events) :
    state.Coherent (some taker) ∧ state.InFlight taker := by
  cases executes with
  | own enters => exact enters.ready standing
  | stop enters executed calls =>
    obtain ⟨coherent, flying⟩ := enters.ready standing
    have carried := Ledger.execute_carries .standard coherent flying
    obtain ⟨rfl, -⟩ := executed
    exact calls.ready (carried.moves.coherent coherent)

/-- In every state in which a book carries an order out, matching answers with the trades of the walk through
the offers that meet its limit, reports just these trades, and leaves of the ledger what they leave of it. -/
theorem sweep_walks_offers {config : Config} {fresh : Book} (opened : open? config = .ok fresh) (orders : List Order)
    (executes : (fresh.after orders).Executes order state taker) :
    ∃ record side, state.get? taker = some record ∧ record.side = some side
      ∧ let trades := Offer.walk taker record.remaining (state.offers side record.limitPrice)
        (state.sweep taker).answer = .ok trades ∧ (state.sweep taker).events = trades.map .matched
          ∧ Ledger.LeftBy trades state (state.sweep taker).ledger := by
  obtain ⟨standing, -⟩ := standing_after opened orders
  obtain ⟨coherent, flying⟩ := executes.ready standing
  obtain ⟨carried, -, -⟩ := Ledger.sweep_carries config coherent flying
  obtain ⟨record, side, found, sided, ready⟩ := flying
  have events := Ledger.sweep_events coherent found sided ready
  have answer := carried.answer
  have moves := carried.moves
  rw [events] at moves answer
  rw [Event.trades_matched] at answer
  exact ⟨record, side, found, sided, answer, events, moves.leftBy coherent⟩

/-- A market order that takes from two of three offers. -/
theorem sweep_walks_offers_market : ∃ fresh, open? (Config.cents "ACME") = .ok fresh ∧
    let book := fresh.after [.limit .sell (.ofUnits 2) (.ofCents 101), .limit .sell 1 (.ofCents 100),
      .limit .sell (.ofUnits 5) (.ofCents 101)]
    let trades := [⟨.ofNumber 4, .ofNumber 2, 1, .ofCents 100⟩, ⟨.ofNumber 4, .ofNumber 1, 1, .ofCents 101⟩]
    ∃ listed, book.Executes (.market .buy (.ofUnits 2)) listed book.ledger.nextId
      ∧ (listed.sweep book.ledger.nextId).answer = .ok trades
      ∧ ∃ record side, listed.get? book.ledger.nextId = some record ∧ record.side = some side
        ∧ let walked := Offer.walk book.ledger.nextId record.remaining (listed.offers side record.limitPrice)
          (listed.sweep book.ledger.nextId).answer = .ok walked
            ∧ (listed.sweep book.ledger.nextId).events = walked.map .matched
            ∧ Ledger.LeftBy walked listed (listed.sweep book.ledger.nextId).ledger := by
  refine ⟨_, rfl, ?_⟩
  intro book trades
  let order : Order := .market .buy (.ofUnits 2)
  have enters : book.Enters order
      ((book.ledger.store order).list book.ledger.nextId (order.numbered book.ledger.nextId)) :=
    ⟨by decide +kernel, by decide +kernel, _, Ledger.find_of_get? (by decide +kernel), .inl rfl, rfl⟩
  exact ⟨_, .own enters, by decide +kernel,
    sweep_walks_offers (rfl : open? (Config.cents "ACME") = _) _ (.own enters)⟩

end Book
end LimitBook
