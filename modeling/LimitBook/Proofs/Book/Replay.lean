import LimitBook.Proofs.Book.History
import LimitBook.Proofs.Ledger.Replay

/-! Audits of a book. The events of a history and the orders that were given rebuild the book, and every event is borne
out by those before it. -/
namespace LimitBook

/-- A replay that shows what a book holds, with every order told of. A book that has run out of numbers keeps one order
more, under none. -/
structure Replay.Rebuilds (replay : Replay) (book : Book) : Prop where
  orders : book.isHalted = false → replay.waiting = [] ∧ replay.records = book.ledger.orders.toList
  records : ∀ id, replay.find? id = book.ledger.get? id
  cancelled : replay.cancelled = book.ledger.cancelled
  lastPrice : replay.lastPrice = book.ledger.lastPrice

structure Response.Faithful (response : Response) : Prop where
  trades : Event.trades response.events = response.trades
  accepted_iff : (∃ id, .accepted id ∈ response.events) ↔ ∃ trades, response.answer = .ok trades

namespace Book
open Replay (picture)

variable {config : Config} {fresh : Book}

/-- The events of some calls, replayed over their orders and others that come after them, lead to a picture of the book
in which the others still wait. -/
theorem replay_audit (opened : open? config = .ok fresh) (orders others : List Order) :
    ∃ full waiting, (Replay.start (orders ++ others)).Consistent (fresh.audit orders)
      ∧ (Replay.start (orders ++ others)).run (fresh.audit orders) = picture full waiting
      ∧ (fresh.after orders).ledger.Alike full
      ∧ ((fresh.after orders).fault = none → full = (fresh.after orders).ledger ∧ waiting = others) := by
  -- The last order meets the picture that those before it have left, and is the first that waits there.
  induction orders using List.reverseRecOn generalizing others with
  | nil =>
    obtain ⟨-, empty, -⟩ := open?_eq opened
    refine ⟨.empty, others, Replay.consistent_nil _, rfl, ?_⟩
    rw [after_nil, empty]
    exact ⟨.refl _, fun _ => ⟨rfl, rfl⟩⟩
  | append_singleton orders order ih =>
    obtain ⟨standing, -⟩ := standing_after opened orders
    obtain ⟨full, waiting, consistent, reached, alike, running⟩ := ih (order :: others)
    rw [List.append_assoc, List.singleton_append, audit_concat, after_concat, Replay.run_append, reached]
    cases standing.call order with
    | taken unfaulted coherent room admissible added accepted =>
      obtain ⟨rfl, rfl⟩ := running unfaulted
      obtain ⟨shown, next⟩ := Ledger.accept_replays coherent room admissible others
      rw [accepted] at shown next
      rw [added]
      refine ⟨_, others, consistent.append ?_, next, .refl _, fun _ => ⟨rfl, rfl⟩⟩
      rw [reached]
      exact shown
    | refused unfaulted _ added =>
      obtain ⟨rfl, rfl⟩ := running unfaulted
      rw [added]
      refine ⟨_, others, consistent.append ?_, rfl, .refl _, fun _ => ⟨rfl, rfl⟩⟩
      rw [reached]
      exact Replay.consistent_singleton (List.cons_ne_nil order others)
    | spent unfaulted spent _ added =>
      obtain ⟨rfl, rfl⟩ := running unfaulted
      rw [added]
      refine ⟨_, _, consistent.append ?_, rfl, Ledger.alike_store spent _, nofun⟩
      exact Replay.consistent_singleton trivial
    | halted faulted added =>
      rw [added, List.append_nil]
      refine ⟨full, waiting, consistent, rfl, alike, ?_⟩
      intro unfaulted
      rw [unfaulted] at faulted
      cases faulted

private theorem Standing.faithful {book : Book} {events : List Event} (standing : book.Standing events)
    (order : Order) :
    (book.add order).Faithful := by
  refine ⟨(standing.add order).2.1.symm, ?_⟩
  cases standing.call order with
  | taken _ coherent room _ added accepted =>
    rw [Ledger.accept_eq coherent room] at accepted
    have first := congrArg Outcome.events accepted
    dsimp only at first
    rw [added, ← first]
    exact ⟨fun _ => ⟨_, rfl⟩, fun _ => ⟨book.ledger.nextId, List.mem_cons_self⟩⟩
  | refused _ _ added | spent _ _ _ added | halted _ added =>
    rw [added]
    simp

private theorem faithful_responses (opened : open? config = .ok fresh) (orders : List Order) :
    ∀ response ∈ fresh.responses orders, response.Faithful := by
  induction orders using List.reverseRecOn with
  | nil => simp [responses]
  | append_singleton orders order ih =>
    obtain ⟨standing, -⟩ := standing_after opened orders
    intro response member
    rw [responses_concat, List.mem_append] at member
    rcases member with earlier | last
    · exact ih response earlier
    · obtain rfl := List.mem_singleton.mp last
      exact standing.faithful order

/-- The events of every history of an opened book, replayed over the orders that it was given, rebuild its
records, the cancelled numbers and the last price; each event is borne out by those before it; the events of a
call say whether it took the order in and which trades it returned; and no order is reported as withdrawn or as
fired twice. -/
theorem audit_rebuilds (opened : open? config = .ok fresh) (orders : List Order) :
    let events := fresh.audit orders
    ((Replay.start orders).run events).Rebuilds (fresh.after orders) ∧ (Replay.start orders).Consistent events
      ∧ (∀ response ∈ fresh.responses orders, response.Faithful)
      ∧ (Event.withdrawals events).Nodup ∧ ((Event.firings events).map Prod.fst).Nodup := by
  intro events
  obtain ⟨shown, waiting, consistent, reached, alike, running⟩ := replay_audit opened orders []
  rw [List.append_nil] at consistent reached
  refine ⟨?_, consistent, faithful_responses opened orders, marked_once opened orders .withdrawn fun _ => rfl, ?_⟩
  · rw [reached]
    refine ⟨?_, ?_, alike.cancelled.symm, alike.lastPrice.symm⟩
    · intro unhalted
      have unfaulted : (fresh.after orders).fault = none :=
        Option.not_isSome_iff_eq_none.mp (Bool.not_eq_true _ ▸ unhalted)
      obtain ⟨rfl, rfl⟩ := running unfaulted
      exact ⟨rfl, rfl⟩
    · intro id
      rw [Replay.find?_picture, alike.records]
  · rw [← Ledger.Mark.set_fired]
    exact marked_once opened orders .fired fun _ => rfl

/-- A stop-limit order fires and rests, its rest is withdrawn, a market order finds nobody, and a cancel order
comes late. -/
theorem audit_rebuilds_stop_limit : ∃ fresh, open? (Config.cents "ACME") = .ok fresh ∧
    let orders := [.limit .buy 1 (.ofCents 100), .limit .buy 1 (.ofCents 99),
      .stopLimit .sell (.ofUnits 3) (.ofCents 101) (.ofCents 98), .market .sell 1,
      .cancel (.ofNumber 3), .market .buy 1, .cancel (.ofNumber 3)]
    let events := fresh.audit orders
    events = [
        .accepted (.ofNumber 1), .rested (.ofNumber 1) .buy (.ofCents 100) 1,
        .accepted (.ofNumber 2), .rested (.ofNumber 2) .buy (.ofCents 99) 1,
        .accepted (.ofNumber 3), .stopPending (.ofNumber 3) (.ofCents 101),
        .accepted (.ofNumber 4), .matched ⟨.ofNumber 4, .ofNumber 1, 1, .ofCents 100⟩,
        .stopTriggered (.ofNumber 3) (.ofCents 100), .matched ⟨.ofNumber 3, .ofNumber 2, 1, .ofCents 99⟩,
        .rested (.ofNumber 3) .sell (.ofCents 98) (.ofUnits 2),
        .accepted (.ofNumber 5), .cancelled (.ofNumber 3) .requested,
        .accepted (.ofNumber 6), .cancelled (.ofNumber 6) .unfilledMarket,
        .accepted (.ofNumber 7), .cancelIgnored (.ofNumber 7) (.ofNumber 3)]
      ∧ ((Replay.start orders).run events).Rebuilds (fresh.after orders) ∧ (Replay.start orders).Consistent events
      ∧ (∀ response ∈ fresh.responses orders, response.Faithful)
      ∧ (Event.withdrawals events).Nodup ∧ ((Event.firings events).map Prod.fst).Nodup :=
  ⟨_, rfl, by decide +kernel, audit_rebuilds (rfl : open? (Config.cents "ACME") = _) _⟩

end Book
end LimitBook
