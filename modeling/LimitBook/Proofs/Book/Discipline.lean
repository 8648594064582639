import LimitBook.Proofs.Book.Permanence

/-! Discipline in errors. On any book, coherent or not, an order is admitted and carried out, or refused without
a trace, or it raises a fault. The first fault stays until the book is reset, and until then no order is
admitted. -/
namespace LimitBook

private theorem Fault.kind_cases (fault : Fault) :
    fault.kind = .invariantViolation ∨ fault.kind = .structuralFault := by
  cases fault <;> simp [kind]

def Response.raised (response : Response) : Option Fault :=
  match response.answer with
  | .error (.faulted fault) => some fault
  | _ => none

namespace Book

inductive Command
  | add (order : Order)
  | reset

def obey (book : Book) : Command → Book
  | .add order => (book.add order).book
  | .reset => book.reset

def run (book : Book) (commands : List Command) : Book := commands.foldl obey book

structure Admits (book : Book) (order : Order) (response : Response) : Prop where
  nextId : response.book.ledger.nextId.number = book.ledger.nextId.number + 1
  size : response.book.ledger.orders.size = book.ledger.orders.size + 1
  record : ∃ record, response.book.ledger.orders[book.ledger.orders.size]? = some record
    ∧ (order.numbered book.ledger.nextId).GoesOn record
  carried : ∀ trades, response.answer = .ok trades → response.book.fault = none
  faulted : ∀ refusal, response.answer = .error refusal →
    (refusal.kind = .invariantViolation ∨ refusal.kind = .structuralFault)
      ∧ ∃ fault, refusal = .faulted fault ∧ response.book.fault = some fault
        ∧ response.events.getLast? = some (.halted refusal.message)

structure Disciplined (book : Book) (order : Order) : Prop where
  halted : ∀ fault, book.fault = some fault → ∃ refusal, book.add order = ⟨book, [], .error refusal⟩
    ∧ refusal.kind = .halted ∧ refusal.detail = fault.message
  refused : book.fault = none → ¬ order.Admissible book.config → ∃ refusal,
    book.add order = ⟨book, [.rejected refusal.message], .error refusal⟩ ∧ refusal.kind = .invalidOrder
  admitted : book.fault = none → order.Admissible book.config → book.Admits order (book.add order)

variable {book : Book} {order : Order}

private theorem admits_add (room : book.ledger.nextId.number < 0xffff_ffff_ffff_ffff) (running : book.fault = none)
    (admissible : order.Admissible book.config) : book.Admits order (book.add order) := by
  have continues := Ledger.continues_accept book.ledger order
  have stored : (book.ledger.store order).orders[book.ledger.orders.size]? = some (order.numbered book.ledger.nextId) :=
    Array.getElem?_push_size
  have record := continues.records _ _ stored
  have size := continues.size.trans (Ledger.size_store ..)
  have nextId : (book.ledger.accept order).ledger.nextId.number = book.ledger.nextId.number + 1 := by
    rw [continues.nextId]
    exact OrderId.number_next (by omega)
  unfold add
  rw [running, objection_eq_none_iff.mpr admissible]
  dsimp only
  -- Whether the order was carried out or not, the ledger has gone on from the one that stores it.
  split
  · rename_i reached
    rw [reached] at record size nextId
    refine ⟨nextId, size, record, fun _ _ => rfl, ?_⟩
    intro refusal answered
    cases answered
  · rename_i fault reached
    rw [reached] at record size nextId
    refine ⟨nextId, size, record, ?_, ?_⟩
    · intro trades answered
      cases answered
    intro refusal answered
    obtain rfl := Except.error.inj answered
    exact ⟨fault.kind_cases, fault, rfl, rfl, List.getLast?_concat⟩

theorem disciplined (room : book.ledger.nextId.number < 0xffff_ffff_ffff_ffff) (order : Order) :
    book.Disciplined order where
  halted := fun fault faulted => ⟨.halted fault, add_of_halted faulted, rfl, rfl⟩
  refused := by
    intro running refused
    obtain ⟨cause, added⟩ := add_of_refused running refused
    exact ⟨.rejected cause, added, rfl⟩
  admitted := admits_add room

section Runs

private theorem run_append (book : Book) (commands more : List Command) :
    book.run (commands ++ more) = (book.run commands).run more :=
  List.foldl_append

private theorem run_adds (book : Book) (orders : List Order) : book.run (orders.map .add) = book.after orders := by
  rw [run, List.foldl_map]
  rfl

/-- A fault stays, and a book without one keeps the fault that the order raises. -/
theorem fault_add (book : Book) (order : Order) :
    (book.add order).book.fault = book.fault.or (book.add order).raised := by
  unfold add
  split
  · rename_i fault faulted
    rw [faulted]
    rfl
  · rename_i running
    rw [running]
    split
    · exact running
    split
    · rfl
    · rfl

private theorem fault_after_eq (book : Book) (orders : List Order) :
    (book.after orders).fault = book.fault.or ((book.responses orders).findSome? Response.raised) := by
  induction orders generalizing book with
  | nil => exact Option.or_none.symm
  | cons order rest ih =>
    change ((book.add order).book.after rest).fault = _
    rw [ih, fault_add, responses, List.findSome?_cons, Option.or_assoc]
    cases (book.add order).raised <;> rfl

private theorem after_of_halted {fault : Fault} (faulted : book.fault = some fault) (orders : List Order) :
    book.after orders = book ∧ ∀ response ∈ book.responses orders, response = ⟨book, [], .error (.halted fault)⟩ := by
  induction orders with
  | nil => simp [responses]
  | cons order rest ih =>
    obtain ⟨same, answers⟩ := ih
    have added : book.add order = _ := add_of_halted faulted
    refine ⟨?_, ?_⟩
    · change (book.add order).book.after rest = book
      rw [added]
      exact same
    · rw [responses, added, List.forall_mem_cons]
      exact ⟨rfl, answers⟩

end Runs

/-- On any book whose numbers have not run out an order meets an earlier fault and changes nothing, is invalid
and changes nothing, or takes the next number; then it fails only by a fault, which halts the book. Over any run
the book keeps the first fault raised since it was last reset, and while it has one it admits no order. -/
theorem errors_disciplined (book : Book) :
    (∀ order, book.ledger.nextId.number < 0xffff_ffff_ffff_ffff → book.Disciplined order)
      ∧ ∀ commands orders, let reached := book.run commands
        (book.run (commands ++ orders.map .add)).fault
            = reached.fault.or ((reached.responses orders).findSome? Response.raised)
          ∧ (book.run (commands ++ .reset :: orders.map .add)).fault
            = (reached.reset.responses orders).findSome? Response.raised
          ∧ ∀ fault, reached.fault = some fault → book.run (commands ++ orders.map .add) = reached
            ∧ ∀ response ∈ reached.responses orders, response = ⟨reached, [], .error (.halted fault)⟩ := by
  refine ⟨fun order room => disciplined room order, ?_⟩
  intro commands orders reached
  have renewed : book.run (commands ++ .reset :: orders.map .add) = reached.reset.after orders := by
    rw [run_append, ← run_adds]
    rfl
  rw [renewed, run_append, run_adds]
  exact ⟨fault_after_eq reached orders, fault_after_eq reached.reset orders,
    fun fault faulted => after_of_halted faulted orders⟩

/-- A sale meets a bid that is not in the records, and a later order finds the book halted. -/
theorem errors_disciplined_stale_bid : ∃ book : Book,
    (book.ledger.nextId.number < 0xffff_ffff_ffff_ffff ∧ book.Disciplined (.market .sell 1)
        ∧ (book.add (.market .sell 1)).raised = some (.unknownOrder (.ofNumber 5)))
      ∧ (book.run [.add (.market .sell 1)]).fault = some (.unknownOrder (.ofNumber 5))
      ∧ book.run [.add (.market .sell 1), .add (.limit .buy 1 (.ofCents 99))] = book.run [.add (.market .sell 1)] := by
  let book : Book := ⟨.cents "ACME", rfl, Ledger.empty.enter .bids ⟨.ofCents 99, .ofNumber 5⟩, none⟩
  have faulted : (book.run [.add (.market .sell 1)]).fault = some (.unknownOrder (.ofNumber 5)) := by decide +kernel
  obtain ⟨single, runs⟩ := errors_disciplined book
  obtain ⟨-, -, stays⟩ := runs [.add (.market .sell 1)] [.limit .buy 1 (.ofCents 99)]
  exact ⟨book, ⟨by decide, single _ (by decide), by decide +kernel⟩, faulted, (stays _ faulted).1⟩

end Book
end LimitBook
