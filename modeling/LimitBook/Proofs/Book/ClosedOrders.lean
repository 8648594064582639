import LimitBook.Proofs.Book.Lockstep

/-! Closed orders. Of an order that was executed or cancelled, and of a cancel order, a book reads nothing any
more but that it is closed. Books that agree in what is open answer alike from then on. -/
namespace LimitBook

/-- While nothing is in flight every order that is live has its place in an index. -/
theorem Ledger.Coherent.exists_place_of_isLive {ledger : Ledger} {id : OrderId} {order : Order}
    (coherent : ledger.Coherent none) (found : ledger.get? id = some order) (live : order.isLive = true) :
    ∃ kind price, order.place = some (kind, price) := by
  cases pending : order.isPending with
  | true =>
    obtain ⟨trigger, given⟩ := Order.triggerPrice_of_isStop (Order.isPending_iff.mp pending).1
    exact ⟨.stops, trigger, Order.place_eq_stops_iff.mpr ⟨pending, given⟩⟩
  | false =>
    have active : order.isActive = true := by
      rw [Order.isActive_eq_isLive, live, pending]
      rfl
    obtain ⟨side, sided⟩ :=
      Option.ne_none_iff_exists'.mp ((coherent.regular found).sided (Order.isActive_iff.mp active).2.2.1)
    cases limited : order.limitPrice with
    | none => cases coherent.limited found active limited
    | some limit => exact ⟨side.indexKind, limit, Order.place_eq_side_iff.mpr ⟨active, sided, limited⟩⟩

/-- A ledger with nothing in flight lists every order that is live. -/
theorem Ledger.Coherent.exists_entry_of_isLive {ledger : Ledger} {id : OrderId} {order : Order}
    (coherent : ledger.Coherent none) (found : ledger.get? id = some order) (live : order.isLive = true) :
    ∃ kind, ∃ entry ∈ ledger.index kind, entry.id = id := by
  obtain ⟨kind, price, placed⟩ := coherent.exists_place_of_isLive found live
  exact ⟨kind, ⟨price, id⟩, coherent.listed.mpr ⟨order, found, placed⟩, rfl⟩

def Likeness.live : Likeness .same where
  rel order other := other = order ∨ (other.id = order.id ∧ order.isLive = false ∧ other.isLive = false)
  last _ _ := True
  resembles := by
    rintro order other (rfl | ⟨same, closed, also⟩)
    · exact .refl other
    · have vacuous : ∀ {property : Prop}, order.isLive = true → property := by
        intro property live
        rw [closed] at live
        cases live
      exact ⟨same, also.trans closed.symm, vacuous, vacuous, vacuous, vacuous, vacuous, fun _ _ => trivial⟩
  effect := by
    intro event order other related
    rw [Renaming.event_same]
    rcases related with rfl | ⟨same, closed, also⟩
    · exact .inl rfl
    · rw [← Bool.not_eq_true] at closed also
      refine .inr ⟨?_, ?_, ?_⟩
      · rw [id, Order.id_effect, Order.id_effect, same]
      · exact Bool.not_eq_true _ ▸ mt (Order.GoesOn.effect event order).isLive closed
      · exact Bool.not_eq_true _ ▸ mt (Order.GoesOn.effect event other).isLive also
  price := fun _ _ _ _ => trivial
  fresh := by
    intro order id _
    rw [Renaming.order_same]
    exact .inl rfl

namespace Book

/-- Books that agree in what is open: in their three indexes, in the records of the orders listed there and in
the next number. A book that has run out of numbers has counted on to the first one again, so that it also has
to be told from one that has not. -/
structure SharesOpen (book other : Book) : Prop where
  config : other.config = book.config
  isHalted : other.isHalted = book.isHalted
  nextId : other.ledger.nextId = book.ledger.nextId
  indexes : ∀ kind, other.ledger.index kind = book.ledger.index kind
  records : ∀ kind, ∀ entry ∈ book.ledger.index kind, other.ledger.get? entry.id = book.ledger.get? entry.id

end Book

namespace Likeness
variable {ledger other : Ledger} {book copy : Book} {id : OrderId}

/-- Ledgers that list the same orders, with the same records, agree in all that is live. -/
theorem between_of_listed (coherent : ledger.Coherent none) (also : other.Coherent none)
    (nextId : other.nextId = ledger.nextId) (indexes : ∀ kind, other.index kind = ledger.index kind)
    (records : ∀ kind, ∀ entry ∈ ledger.index kind, other.get? entry.id = ledger.get? entry.id) :
    live.Between ledger other none := by
  have size : other.orders.size = ledger.orders.size := by
    have numbers := congrArg OrderId.number nextId
    have bounded := coherent.bounded
    have rebounded := also.bounded
    rw [coherent.counted, also.counted] at numbers
    omega
  have agree : ∀ {id order}, ledger.get? id = some order → order.isLive = true → other.get? id = some order := by
    intro id order found live
    obtain ⟨kind, entry, listed, rfl⟩ := coherent.exists_entry_of_isLive found live
    rw [records kind entry listed, found]
  have reagree : ∀ {id copy}, other.get? id = some copy → copy.isLive = true → ledger.get? id = some copy := by
    intro id copy there live
    obtain ⟨kind, entry, listed, rfl⟩ := also.exists_entry_of_isLive there live
    rw [indexes] at listed
    rw [← records kind entry listed, there]
  refine ⟨coherent, also, size, fun id => ?_, trivial⟩
  cases found : ledger.get? id with
  | none =>
    have absent := found
    rw [Ledger.get?_eq_none_iff, ← size, ← Ledger.get?_eq_none_iff] at absent
    rw [absent]
    exact .none
  | some order =>
    cases there : other.get? id with
    | none =>
      rw [Ledger.get?_eq_none_iff, size, ← Ledger.get?_eq_none_iff, found] at there
      cases there
    | some copy =>
      refine .some ?_
      by_cases live : order.isLive = true
      · exact .inl (Option.some.inj (there.symm.trans (agree found live)))
      by_cases relive : copy.isLive = true
      · exact .inl (Option.some.inj ((reagree there relive).symm.trans found))
      · exact .inr ⟨(also.numbered there).trans (coherent.numbered found).symm, Bool.not_eq_true _ ▸ live,
          Bool.not_eq_true _ ▸ relive⟩

private theorem Between.get?_of_listed (between : live.Between ledger other none) {kind : IndexKind} {entry : Entry}
    (listed : entry ∈ ledger.index kind) : other.get? entry.id = ledger.get? entry.id := by
  obtain ⟨order, found, placed⟩ := between.coherent.listed.mp listed
  obtain ⟨copy, there, related⟩ := between.found found
  have live : order.isLive = true := by
    rcases Order.place_cases placed with ⟨-, pending, -⟩ | ⟨-, -, active, -⟩
    · exact (between.coherent.regular found).isLive_of_isPending pending
    · exact Order.isLive_of_isActive active
  rcases related with rfl | ⟨-, closed, -⟩
  · rw [found, there]
  · rw [live] at closed
    cases closed

private theorem Books.sharesOpen (books : live.Books book copy) : book.SharesOpen copy where
  config := books.config
  isHalted := congrArg Option.isSome books.fault
  nextId := books.nextId
  indexes := by
    intro kind
    exact books.index kind
  records := by
    intro kind entry listed
    cases books with
    | running _ _ _ between => exact between.get?_of_listed listed
    | spent _ _ _ between spent stored restored =>
      rw [stored, Ledger.index_store] at listed
      rw [stored, restored, (Ledger.alike_store spent _).records, (Ledger.alike_store (between.size ▸ spent) _).records]
      exact between.get?_of_listed listed

end Likeness

namespace Book
variable {config : Config} {fresh book other : Book} {events : List Event} {order : Order}

/-- The one fault that a book can meet is that there is no number left. -/
theorem Standing.fault_add (standing : book.Standing events) (order : Order) :
    (book.add order).book.fault = book.fault ∨ (book.add order).book.fault = some (.unknownOrder .unassigned) := by
  cases standing with
  | running unfaulted moves =>
    have coherent := moves.coherent Ledger.coherent_empty
    by_cases admissible : order.Admissible book.config
    · rcases coherent.room_or_spent with room | spent
      · obtain ⟨next, more, added, -⟩ := add_of_admissible unfaulted coherent room admissible
        rw [added]
        exact .inl rfl
      · rw [add_of_spent unfaulted coherent spent admissible]
        exact .inr rfl
    · obtain ⟨cause, added⟩ := add_of_refused unfaulted admissible
      rw [added]
      exact .inl rfl
  | spent faulted =>
    rw [add_of_halted faulted]
    exact .inl rfl

private theorem fault_after (opened : open? config = .ok fresh) (orders : List Order) :
    (fresh.after orders).fault = none ∨ (fresh.after orders).fault = some (.unknownOrder .unassigned) := by
  induction orders using List.reverseRecOn with
  | nil => exact .inl (open?_eq opened).2.2
  | append_singleton orders order ih =>
    obtain ⟨standing, -⟩ := standing_after opened orders
    rw [after_concat]
    rcases standing.fault_add order with same | spent
    · rw [same]
      exact ih
    · exact .inr spent

/-- Books that have halted at the same fault refuse everything. -/
theorem SharesOpen.halted {fault : Fault} (shares : book.SharesOpen other) (faulted : book.fault = some fault)
    (also : other.fault = some fault) (orders : List Order) :
    List.Forall₂ (fun one two => two.answer = one.answer ∧ two.events = one.events ∧ one.book.SharesOpen two.book)
      (book.responses orders) (other.responses orders) := by
  induction orders with
  | nil => exact .nil
  | cons order rest ih =>
    rw [responses, responses, add_of_halted faulted, add_of_halted also]
    exact .cons ⟨rfl, rfl, shares⟩ ih

/-- Orders that are closed have no influence. Let two histories of a book lead to the same next number, the same
entries of the three indexes and the same records of the orders listed there, whatever the records of other
orders, the cancelled numbers and the last prices are: given the same orders from then on, both books answer and
report the same at every step, and they still agree in what is open. -/
theorem closed_orders_inert (opened : open? config = .ok fresh) (first second : List Order)
    (shares : (fresh.after first).SharesOpen (fresh.after second)) (orders : List Order) :
    List.Forall₂ (fun one two => two.answer = one.answer ∧ two.events = one.events ∧ one.book.SharesOpen two.book)
      ((fresh.after first).responses orders) ((fresh.after second).responses orders) := by
  have halts : ∀ book : Book, book.isHalted = true ↔ book.fault ≠ none := by
    intro book
    unfold isHalted
    rw [Option.isSome_iff_ne_none]
  obtain ⟨standing, -⟩ := standing_after opened first
  obtain ⟨restanding, -⟩ := standing_after opened second
  rcases fault_after opened first with running | spent
  · have rerunning : (fresh.after second).fault = none := by
      by_contra faulted
      rw [← Ne, ← halts, shares.isHalted, halts, running] at faulted
      exact faulted rfl
    have coherent := (standing.moves running).coherent Ledger.coherent_empty
    have also := (restanding.moves rerunning).coherent Ledger.coherent_empty
    have books : Likeness.live.Books (fresh.after first) (fresh.after second) :=
      .running shares.config running rerunning
        (Likeness.between_of_listed coherent also shares.nextId shares.indexes shares.records)
    obtain ⟨alike, -⟩ := books.responses fun order _ => Renaming.suits_same (fresh.after first) order
    rw [Renaming.order_same, List.map_id] at alike
    exact alike.imp fun one two ⟨renames, still⟩ => ⟨renames.same.1, renames.same.2, still.sharesOpen⟩
  · have respent : (fresh.after second).fault = some (.unknownOrder .unassigned) := by
      refine (fault_after opened second).resolve_left fun rerunning => ?_
      have halted := (halts _).mpr (show (fresh.after first).fault ≠ none by simp [spent])
      rw [← shares.isHalted, halts] at halted
      exact halted rerunning
    exact shares.halted spent respent orders

/-- One book has seen a trade, another a cancelled bid, and both hold the same ask. -/
theorem closed_orders_inert_one_ask : ∃ fresh, open? (Config.cents "ACME") = .ok fresh ∧
    let first := [.limit .sell 1 (.ofCents 101), .market .buy 1, .limit .sell (.ofUnits 2) (.ofCents 103)]
    let second := [.limit .buy 1 (.ofCents 99), .cancel .first, .limit .sell (.ofUnits 2) (.ofCents 103)]
    (fresh.after second).returned [.cancel .first, .market .buy 1] = [⟨.ofNumber 5, .ofNumber 3, 1, .ofCents 103⟩]
      ∧ (fresh.after first).SharesOpen (fresh.after second)
      ∧ List.Forall₂ (fun one two => two.answer = one.answer ∧ two.events = one.events ∧ one.book.SharesOpen two.book)
        ((fresh.after first).responses [.cancel .first, .market .buy 1])
        ((fresh.after second).responses [.cancel .first, .market .buy 1]) := by
  refine ⟨_, rfl, ?_⟩
  intro first second
  refine ⟨by decide +kernel,
    (fun shares => ⟨shares, closed_orders_inert (rfl : open? (Config.cents "ACME") = _) first second shares _⟩) ?_⟩
  refine ⟨by decide +kernel, by decide +kernel, by decide +kernel, fun kind => SortedSet.ext ?_, fun kind => ?_⟩
  · cases kind <;> decide +kernel
  · simp only [SortedSet.mem_iff]
    cases kind <;> decide +kernel

end Book
end LimitBook
