import LimitBook.Proofs.Book.History
import LimitBook.Proofs.Ledger.Lockstep

/-! Books in lockstep. Books with alike ledgers that are given the same orders, up to a renaming, answer the
same, and their ledgers stay alike. -/
namespace LimitBook

structure Response.Renames (names : Renaming) (one other : Response) : Prop where
  events : other.events = one.events.map names.event
  answer : other.answer = (one.answer.mapError names.refusal).map (List.map names.trade)
  message : ∀ refusal, one.answer = .error refusal → (names.refusal refusal).message = refusal.message

theorem Response.Renames.same {one other : Response} (renames : one.Renames .same other) :
    other.answer = one.answer ∧ other.events = one.events := by
  obtain ⟨events, answer, -⟩ := renames
  rw [Renaming.event_same, List.map_id] at events
  rw [Renaming.refusal_same, Renaming.trade_same, List.map_id_fun] at answer
  refine ⟨?_, events⟩
  rw [answer]
  cases one.answer <;> rfl

structure Renaming.Suits (names : Renaming) (book : Book) (order : Order) : Prop where
  objection : book.objection (names.order order) = (book.objection order).map names.rejection
  message : ∀ cause, book.objection order = some cause → (names.rejection cause).message = cause.message
  known : ∀ price ∈ order.kind.prices, names.knows price

private theorem Book.objection_congr {book other : Book} (same : other.config = book.config) (order : Order) :
    other.objection order = book.objection order := by
  obtain ⟨config, sound, ledger, fault⟩ := book
  obtain ⟨otherConfig, otherSound, otherLedger, otherFault⟩ := other
  obtain rfl : otherConfig = config := same
  rfl

private theorem Book.config_add (book : Book) (order : Order) : (book.add order).book.config = book.config := by
  unfold add
  split
  · rfl
  · split
    · rfl
    · split <;> rfl

/-- Everything suits if all keep their names. -/
theorem Renaming.suits_same (book : Book) (order : Order) : same.Suits book order := by
  refine ⟨?_, fun cause _ => ?_, fun _ _ => trivial⟩
  · rw [order_same, rejection_same, Option.map_id]
    rfl
  · rw [rejection_same]
    rfl

private theorem Renaming.Suits.congr {names : Renaming} {book other : Book} {order : Order}
    (suits : names.Suits book order) (same : other.config = book.config) : names.Suits other order := by
  refine ⟨?_, ?_, suits.known⟩
  · rw [Book.objection_congr same, Book.objection_congr same]
    exact suits.objection
  · rw [Book.objection_congr same]
    exact suits.message

namespace Likeness

variable {names : Renaming} {like : Likeness names} {book other : Book} {order : Order}

inductive Books (like : Likeness names) (book other : Book) : Prop
  | running (config : other.config = book.config) (unfaulted : book.fault = none) (also : other.fault = none)
      (between : like.Between book.ledger other.ledger none)
  | spent {fault : Fault} {full spare : Ledger} {last : Order} (config : other.config = book.config)
      (faulted : book.fault = some fault) (also : other.fault = some fault) (between : like.Between full spare none)
      (spent : full.orders.size + 1 = 0x1_0000_0000_0000_0000)
      (stored : book.ledger = full.store last) (restored : other.ledger = spare.store (names.order last))

namespace Books

theorem config (books : like.Books book other) : other.config = book.config := by
  cases books with
  | running config | spent config => exact config

theorem fault (books : like.Books book other) : other.fault = book.fault := by
  cases books with
  | running _ unfaulted also => rw [unfaulted, also]
  | spent _ faulted also => rw [faulted, also]

theorem nextId (books : like.Books book other) : other.ledger.nextId = book.ledger.nextId := by
  cases books with
  | running _ _ _ between => exact between.nextId
  | spent _ _ _ between _ stored restored =>
    rw [stored, restored]
    exact congrArg OrderId.next between.nextId

theorem mem_index_iff (books : like.Books book other) {kind : IndexKind} {entry : Entry} :
    entry ∈ other.ledger.index (names.index kind)
      ↔ ∃ own ∈ book.ledger.index kind, entry = ⟨names.price own.price, own.id⟩ := by
  cases books with
  | running _ _ _ between => exact between.mem_index_iff
  | spent _ _ _ between _ stored restored =>
    rw [stored, restored, Ledger.index_store, Ledger.index_store]
    exact between.mem_index_iff

theorem index {like : Likeness .same} (books : like.Books book other) (kind : IndexKind) :
    other.ledger.index kind = book.ledger.index kind := by
  cases books with
  | running _ _ _ between => exact between.index kind
  | spent _ _ _ between _ stored restored =>
    rw [stored, restored, Ledger.index_store, Ledger.index_store]
    exact between.index kind

theorem last (books : like.Books book other) : like.last book.ledger.lastPrice other.ledger.lastPrice := by
  cases books with
  | running _ _ _ between => exact between.last
  | spent _ _ _ between _ stored restored =>
    rw [stored, restored]
    exact between.last

theorem cancelled (books : like.Books book other)
    (same : ∀ {order copy}, like.rel order copy → copy.cancelled = order.cancelled) :
    other.ledger.cancelled = book.ledger.cancelled := by
  cases books with
  | running _ _ _ between => exact between.cancelled same
  | spent _ _ _ between _ stored restored =>
    rw [stored, restored]
    exact between.cancelled same

/-- What agrees on all pairs of regular records, and on every new one, agrees on all records. -/
theorem map_orders {α : Type} {one two : Order → α} (books : like.Books book other)
    (same : ∀ {order copy}, order.Regular → copy.Regular → like.rel order copy → two copy = one order)
    (fresh : ∀ order id, two ((names.order order).numbered id) = one (order.numbered id)) :
    other.ledger.orders.map two = book.ledger.orders.map one := by
  cases books with
  | running _ _ _ between =>
    exact between.map_orders fun found there => same (between.coherent.regular found) (between.also.regular there)
  | @spent fault full spare last _ _ _ between _ stored restored =>
    have others : spare.orders.map two = full.orders.map one :=
      between.map_orders fun found there => same (between.coherent.regular found) (between.also.regular there)
    rw [stored, restored, Ledger.store, Ledger.store]
    simp only [Array.map_push, others, between.nextId]
    exact congrArg _ (fresh last full.nextId)

end Books

/-- Alike books answer the same order alike, and are alike again. -/
theorem Books.add (books : like.Books book other) (suits : names.Suits book order) :
    (book.add order).Renames names (other.add (names.order order))
      ∧ like.Books (book.add order).book (other.add (names.order order)).book := by
  cases books with
  | running config unfaulted also between =>
    cases objected : book.objection order with
    | some cause =>
      have reobjected : other.objection (names.order order) = some (names.rejection cause) := by
        rw [Book.objection_congr config, suits.objection, objected]
        rfl
      rw [Book.add_of_objection unfaulted objected, Book.add_of_objection also reobjected]
      have message := suits.message cause objected
      refine ⟨⟨?_, rfl, ?_⟩, .running config unfaulted also between⟩
      · change [Event.rejected (names.rejection cause).message] = _
        rw [message]
        rfl
      · intro refusal refused
        obtain rfl := Except.error.inj refused
        exact message
    | none =>
      have agreed : other.objection (names.order order) = none := by
        rw [Book.objection_congr config, suits.objection, objected]
        rfl
      have admissible := Book.objection_eq_none_iff.mp objected
      have readmissible := Book.objection_eq_none_iff.mp agreed
      rcases between.coherent.room_or_spent with room | spent
      · obtain ⟨next, events, added, accepted, -⟩ := Book.add_of_admissible unfaulted between.coherent room admissible
        obtain ⟨renext, reports, readded, reaccepted, -⟩ :=
          Book.add_of_admissible also between.also (between.size ▸ room) readmissible
        have agree := between.accept room admissible readmissible suits.known
        rw [accepted, reaccepted] at agree
        rw [added, readded]
        refine ⟨⟨agree.events, congrArg Except.ok agree.trades, ?_⟩, .running config unfaulted also agree.between⟩
        intro refusal refused
        cases refused
      · rw [Book.add_of_spent unfaulted between.coherent spent admissible,
          Book.add_of_spent also between.also (between.size.symm ▸ spent) readmissible]
        refine ⟨⟨rfl, rfl, ?_⟩, .spent config rfl rfl between spent rfl rfl⟩
        intro refusal refused
        obtain rfl := Except.error.inj refused
        rfl
  | spent config faulted also between spent stored restored =>
    rw [Book.add_of_halted faulted, Book.add_of_halted also]
    refine ⟨⟨rfl, rfl, ?_⟩, .spent config faulted also between spent stored restored⟩
    intro refusal refused
    obtain rfl := Except.error.inj refused
    rfl

/-- Alike books answer the same orders alike, one after another. -/
theorem Books.responses {orders : List Order} (books : like.Books book other)
    (suits : ∀ order ∈ orders, names.Suits book order) :
    List.Forall₂ (fun one two => one.Renames names two ∧ like.Books one.book two.book)
        (book.responses orders) (other.responses (orders.map names.order))
      ∧ like.Books (book.after orders) (other.after (orders.map names.order)) := by
  induction orders generalizing book other with
  | nil => exact ⟨.nil, books⟩
  | cons order rest ih =>
    obtain ⟨first, next⟩ := books.add (suits order List.mem_cons_self)
    obtain ⟨others, last⟩ := ih next fun order member =>
      (suits order (List.mem_cons_of_mem _ member)).congr (book.config_add _)
    exact ⟨.cons ⟨first, next⟩ others, last⟩

end Likeness
end LimitBook
