import LimitBook.Proofs.Book.ClosedOrders
import LimitBook.Proofs.Book.Permanence

/-! Withdrawals. A cancel order takes a live target out of the one index that lists it and marks it; on any
other target it has no effect but its own record. A second cancel order with the same target is always passed
over. -/
namespace LimitBook

private theorem Order.admissible_cancel (config : Config) (target : OrderId) :
    (Order.cancel target).Admissible config :=
  ⟨rfl, rfl, rfl, rfl, rfl, rfl⟩

namespace Ledger

structure Withdrawn (ledger : Ledger) (request order : Order) (next : Ledger) : Prop where
  orders : next.orders.toList
    = ledger.orders.toList.map (Order.changedAt order.id Order.withdraw) ++ [request.numbered ledger.nextId]
  nextId : next.nextId = ledger.nextId.next
  struck : ∃ kind price, order.place = some (kind, price) ∧ (⟨price, order.id⟩ : Entry) ∈ ledger.index kind
    ∧ next.index kind = (ledger.index kind).erase ⟨price, order.id⟩
    ∧ ∀ other, other ≠ kind → next.index other = ledger.index other
  cancelled : order.id ∉ ledger.cancelled ∧ next.cancelled = ledger.cancelled.insert order.id
  lastPrice : next.lastPrice = ledger.lastPrice

def Settled (ledger : Ledger) (id : OrderId) : Prop := ∀ record, ledger.get? id = some record → record.isLive = false

variable {config : Config} {ledger : Ledger} {request order : Order} {target : OrderId}

private theorem withdrawn_discard (coherent : ledger.Coherent none)
    (room : ledger.orders.size + 1 < 0x1_0000_0000_0000_0000)
    (admissible : request.Admissible config) (kind : request.kind = .cancel target)
    (found : ledger.get? target = some order) (live : order.isLive = true) :
    ledger.Withdrawn request order (((ledger.store request).delist order).discard target order) := by
  have settled := coherent_admitted coherent room admissible
  have fresh := coherent.ne_nextId room found
  have stored : (ledger.admitted request).get? target = some order := coherent.get?_admitted_of_some room found
  have numbered := coherent.numbered found
  have revises := discard_revises settled stored .requested
  have records := revises.toList_orders settled
  rw [admitted_of_cancel admissible kind] at revises records
  obtain ⟨index, price, placed⟩ := coherent.exists_place_of_isLive found live
  have listed : (⟨price, order.id⟩ : Entry) ∈ ledger.index index :=
    coherent.listed.mpr ⟨order, numbered ▸ found, placed⟩
  exact {
    orders := by
      have last : (Event.cancelled target .requested).effect (request.numbered ledger.nextId)
          = request.numbered ledger.nextId := if_neg fresh.symm
      rw [records, store, Array.toList_push, List.map_append, List.map_singleton, numbered]
      exact congrArg _ (congrArg (fun record => [record]) last)
    nextId := revises.nextId
    struck := by
      refine ⟨index, price, placed, listed, ?_, fun other apart => ?_⟩
      · rw [index_discard, delist, placed, index_setIndex, if_pos rfl, index_store]
      · rw [index_discard, delist, placed, index_setIndex, if_neg apart, index_store]
    cancelled := by
      constructor
      · intro marked
        obtain ⟨record, there, withdrawn⟩ := coherent.withdrawn.mp marked
        rw [numbered, found] at there
        obtain rfl := Option.some.inj there
        simp [Order.isLive, withdrawn] at live
      · rw [numbered]
        simp [discard]
    lastPrice := revises.lastPrice }

private theorem Withdrawn.settled {next : Ledger} (withdrawn : ledger.Withdrawn request order next)
    (found : ledger.get? order.id = some order) : next.Settled order.id := by
  intro record there
  have positive := ne_unassigned_of_get? found
  have bound := number_le_size found
  rw [get?, if_neg positive, ← Array.getElem?_toList] at found there
  rw [withdrawn.orders, List.getElem?_append_left (by simp only [List.length_map, Array.length_toList]; omega),
    List.getElem?_map, found] at there
  obtain rfl := Option.some.inj there
  simp [Order.changedAt, Order.isLive]

private theorem accept_cancel_cases (coherent : ledger.Coherent none)
    (room : ledger.orders.size + 1 < 0x1_0000_0000_0000_0000)
    (admissible : request.Admissible config) (kind : request.kind = .cancel target) :
    (ledger.Settled target ∧ ledger.accept request
        = ⟨ledger.store request, [.accepted ledger.nextId, .cancelIgnored ledger.nextId target], .ok []⟩)
      ∨ ∃ order next, ledger.get? target = some order ∧ order.isLive = true ∧ ledger.Withdrawn request order next
        ∧ ledger.accept request = ⟨next, [.accepted ledger.nextId, .cancelled target .requested], .ok []⟩ := by
  have settled := coherent_admitted coherent room admissible
  have stored : ledger.admitted request = ledger.store request := admitted_of_cancel admissible kind
  rw [accept_of_cancel coherent room admissible kind]
  rw [admissible.isActive_eq, Order.isCancel, kind] at settled
  rcases withdraw_cases settled ledger.nextId target with ⟨closed, passes⟩ | ⟨order, found, withdrawable, withdraws⟩
  · left
    rw [passes, stored]
    refine ⟨fun record found => ?_, rfl⟩
    apply coherent.not_live_of_ignored room admissible kind closed
    exact coherent.get?_admitted_of_some room found
  · right
    obtain ⟨earlier, live⟩ := isWithdrawable_iff_isLive.mp withdrawable
    have fresh : target ≠ ledger.nextId := by
      rintro rfl
      rw [settled.numbered found] at earlier
      exact absurd earlier (Nat.lt_irrefl _)
    rw [coherent.get?_admitted room, if_neg fresh] at found
    rw [withdraws, stored]
    exact ⟨order, _, found, live, withdrawn_discard coherent room admissible kind found live, rfl⟩

end Ledger

namespace Book
variable {config : Config} {book : Book} {events : List Event} {request order : Order} {target : OrderId}

def Ignores (book : Book) (request : Order) (target : OrderId) : Prop :=
  book.add request = ⟨{ book with ledger := book.ledger.store request },
    [.accepted book.ledger.nextId, .cancelIgnored book.ledger.nextId target], .ok []⟩

def Honours (book : Book) (request : Order) (target : OrderId) (order : Order) : Prop :=
  ∃ next, book.ledger.Withdrawn request order next ∧ book.add request
    = ⟨{ book with ledger := next }, [.accepted book.ledger.nextId, .cancelled target .requested], .ok []⟩

private theorem Standing.cancel_cases (standing : book.Standing events)
    (room : book.ledger.orders.size + 1 < 0x1_0000_0000_0000_0000)
    (admissible : request.Admissible book.config) (kind : request.kind = .cancel target) :
    (book.ledger.Settled target ∧ book.Ignores request target)
      ∨ ∃ order, book.ledger.get? target = some order ∧ order.isLive = true ∧ book.Honours request target order := by
  obtain ⟨unfaulted, moves⟩ := standing.running_of_size (by omega)
  rcases Ledger.accept_cancel_cases (moves.coherent Ledger.coherent_empty) room admissible kind with
    ⟨closed, accepted⟩ | ⟨order, next, found, live, withdrawn, accepted⟩
  · exact .inl ⟨closed, add_of_accepted unfaulted admissible accepted⟩
  · exact .inr ⟨order, found, live, next, withdrawn, add_of_accepted unfaulted admissible accepted⟩

private theorem Standing.size_le_add (standing : book.Standing events) (order : Order) :
    book.ledger.orders.size ≤ (book.add order).book.ledger.orders.size := by
  cases standing.call order with
  | taken _ _ _ _ added _ _ size =>
    rw [added]
    exact size ▸ Nat.le_succ _
  | refused _ _ added => rw [added]
  | spent _ _ _ added =>
    rw [added]
    exact (Ledger.size_store ..).symm ▸ Nat.le_succ _
  | halted _ added => rw [added]

/-- A number without a live order gets none, unless it is the number of a new order that is no cancel order. -/
theorem Standing.settled_add (standing : book.Standing events) (settled : book.ledger.Settled target)
    (known : target.number ≤ book.ledger.orders.size ∨ order.isCancel = true) :
    (book.add order).book.ledger.Settled target := by
  cases standing.call order with
  | @taken next _ _ coherent room _ added accepted moves size =>
    rw [added]
    intro record found
    change next.get? target = some record at found
    rw [← Bool.not_eq_true]
    intro live
    cases there : book.ledger.get? target with
    | some old =>
      obtain ⟨later, last, goesOn⟩ := moves.goesOn coherent there
      obtain rfl := Option.some.inj (found.symm.trans last)
      exact absurd (goesOn.isLive live) (Bool.not_eq_true _ ▸ settled old there)
    | none =>
      -- Only the new order can be found under a number that was not given out before.
      have positive := Ledger.ne_unassigned_of_get? found
      have bound := Ledger.number_le_size found
      have last : target.number - 1 = book.ledger.orders.size := by
        rcases Ledger.get?_eq_none_iff.mp there with zero | beyond
        · exact absurd zero positive
        · omega
      have cancel : order.isCancel = true := known.resolve_left (by omega)
      have continues := Ledger.continues_accept book.ledger order
      rw [accepted] at continues
      obtain ⟨new, stored, goesOn⟩ := continues.records _ (order.numbered book.ledger.nextId) Array.getElem?_push_size
      rw [Ledger.get?, if_neg positive, last, stored] at found
      obtain rfl := Option.some.inj found
      have inert : new.isCancel = true := goesOn.isCancel_eq.trans cancel
      simp [Order.isLive, inert] at live
  | refused _ _ added =>
    rw [added]
    exact settled
  | spent _ spent _ added =>
    rw [added]
    intro record found
    exact settled record ((Ledger.alike_store spent order).records target ▸ found)
  | halted _ added =>
    rw [added]
    exact settled

private theorem Standing.settled_after (standing : book.Standing events) (settled : book.ledger.Settled target)
    {more : List Order} (known : target.number ≤ book.ledger.orders.size ∨ ∀ order ∈ more, order.isCancel = true) :
    (book.after more).ledger.Settled target := by
  induction more generalizing book events with
  | nil => exact settled
  | cons order rest ih =>
    have first := known.imp_right fun cancels => cancels order List.mem_cons_self
    have others := known.imp (Nat.le_trans · (standing.size_le_add order))
      fun cancels later member => cancels later (List.mem_cons_of_mem _ member)
    exact ih (standing.add order).1 (standing.settled_add settled first) others

/-- What a cancel order comes to. A live target is withdrawn, any other is passed over; and so is every target
when the order is given again, at once or after other orders, as long as none of them takes a number that the
first one named in advance. -/
structure Cancels (book : Book) (request : Order) (target : OrderId) : Prop where
  live : ∀ order, book.ledger.get? target = some order → order.isLive = true → book.Honours request target order
  settled : book.ledger.Settled target → book.Ignores request target
  again : ∀ more : List Order, target ≤ book.ledger.nextId ∨ (∀ order ∈ more, order.isCancel = true) →
    ((book.add request).book.after more).ledger.orders.size + 1 < 0x1_0000_0000_0000_0000 →
      ((book.add request).book.after more).Ignores request target

/-- After every history of an opened book that has a number left, a cancel order has exactly the effect that it
asks for. It returns no trades and is stored under the next number. A target that is live loses its one index
entry, a pending stop at its trigger and any other order at its limit, is marked and counted as cancelled, and
keeps what it has left; for any other target, known or not, nothing else changes. Given again the order is
passed over. -/
theorem cancels_only_target {fresh : Book} (opened : open? config = .ok fresh) (orders : List Order)
    (room : (fresh.after orders).ledger.orders.size + 1 < 0x1_0000_0000_0000_0000) {request : Order} {target : OrderId}
    (admissible : request.Admissible config) (kind : request.kind = .cancel target) :
    (fresh.after orders).Cancels request target := by
  obtain ⟨standing, -, same, -⟩ := standing_after opened orders
  rw [← same] at admissible
  have cancel : request.isCancel = true := by rw [Order.isCancel, kind]
  have cases := standing.cancel_cases room admissible kind
  have coherent := (standing.running_of_size (by omega)).2.coherent Ledger.coherent_empty
  -- Live or not before, the target is settled once the order has been given.
  have given : ((fresh.after orders).add request).book.ledger.Settled target
      ∧ ((fresh.after orders).add request).book.ledger.orders.size = (fresh.after orders).ledger.orders.size + 1 := by
    rcases cases with ⟨settled, ignored⟩ | ⟨order, found, live, next, withdrawn, added⟩
    · refine ⟨standing.settled_add settled (.inr cancel), ?_⟩
      rw [ignored]
      exact Ledger.size_store ..
    · rw [added]
      have numbered := coherent.numbered found
      refine ⟨numbered ▸ withdrawn.settled (numbered ▸ found), ?_⟩
      simpa using congrArg List.length withdrawn.orders
  refine ⟨?_, ?_, ?_⟩
  · intro order found live
    rcases cases with ⟨settled, -⟩ | ⟨other, there, -, honoured⟩
    · exact absurd live (Bool.not_eq_true _ ▸ settled order found)
    · obtain rfl := Option.some.inj (there.symm.trans found)
      exact honoured
  · intro closed
    rcases cases with ⟨-, ignored⟩ | ⟨order, found, live, -⟩
    · exact ignored
    · exact absurd live (Bool.not_eq_true _ ▸ closed order found)
  · intro more known left
    have whole : fresh.after (orders ++ request :: more) = ((fresh.after orders).add request).book.after more :=
      after_append ..
    obtain ⟨last, -, still, -⟩ := standing_after opened (orders ++ request :: more)
    rw [whole] at last still
    have known : target.number ≤ ((fresh.after orders).add request).book.ledger.orders.size
        ∨ ∀ order ∈ more, order.isCancel = true := by
      refine known.imp_left fun early => ?_
      rw [OrderId.le_iff_number, coherent.number_nextId room] at early
      exact given.2 ▸ early
    have settled := (standing.add request).1.settled_after given.1 known
    rw [same, ← still] at admissible
    rcases last.cancel_cases left admissible kind with ⟨-, ignored⟩ | ⟨order, found, live, -⟩
    · exact ignored
    · exact absurd live (Bool.not_eq_true _ ▸ settled order found)

/-- A stop has fired and rests at its limit. It is withdrawn from the bids, and after another order the same
cancel order is passed over. -/
theorem cancels_only_target_fired_stop : ∃ fresh, open? (Config.cents "ACME") = .ok fresh ∧
    let orders := [.limit .sell 1 (.ofCents 100),
      .stopLimit .buy (.ofUnits 3) (.ofCents 99) (.ofCents 101), .market .buy 1]
    let book := fresh.after orders
    let target : OrderId := .ofNumber 2
    book.ledger.orders.size + 1 < 0x1_0000_0000_0000_0000 ∧ (Order.cancel target).Admissible (Config.cents "ACME")
      ∧ (Order.cancel target).kind = .cancel target ∧ book.Cancels (.cancel target) target
      ∧ book.ledger.bids.toList = [⟨.ofCents 101, target⟩]
      ∧ (book.add (.cancel target)).book.ledger.bids.toList = [] :=
  ⟨_, rfl, by decide +kernel, Order.admissible_cancel .., rfl,
    cancels_only_target (rfl : open? (Config.cents "ACME") = _) _ (by decide +kernel) (Order.admissible_cancel ..) rfl,
    by decide +kernel, by decide +kernel⟩

end Book
end LimitBook
