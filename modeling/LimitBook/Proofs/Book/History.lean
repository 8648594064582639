import LimitBook.Proofs.Ledger.Marks
import LimitBook.Proofs.Ledger.Runs
import Mathlib.Data.List.Induction

/-! Histories of books. A book that was opened and given any orders stands in one of two ways: it runs, and
its ledger was reached by moves, or it has used up the numbers and is halted. -/
namespace LimitBook

def Response.trades (response : Response) : List Trade :=
  match response.answer with
  | .ok trades => trades
  | .error _ => []

namespace Book
open Ledger (Moves Move)

def after (book : Book) (orders : List Order) : Book := orders.foldl (fun book order => (book.add order).book) book

def responses (book : Book) : List Order → List Response
  | [] => []
  | order :: rest => book.add order :: (book.add order).book.responses rest

def audit (book : Book) (orders : List Order) : List Event := (book.responses orders).flatMap Response.events

def returned (book : Book) (orders : List Order) : List Trade := (book.responses orders).flatMap Response.trades

@[simp] theorem after_nil (book : Book) : book.after [] = book := rfl

theorem after_concat (book : Book) (orders : List Order) (order : Order) :
    book.after (orders ++ [order]) = ((book.after orders).add order).book := by
  simp [after]

theorem responses_concat (book : Book) (orders : List Order) (order : Order) :
    book.responses (orders ++ [order]) = book.responses orders ++ [(book.after orders).add order] := by
  induction orders generalizing book with
  | nil => rfl
  | cons first rest ih =>
    simp only [List.cons_append, responses, ih, after, List.foldl_cons]

theorem audit_concat (book : Book) (orders : List Order) (order : Order) :
    book.audit (orders ++ [order]) = book.audit orders ++ ((book.after orders).add order).events := by
  simp [audit, responses_concat]

theorem returned_concat (book : Book) (orders : List Order) (order : Order) :
    book.returned (orders ++ [order]) = book.returned orders ++ ((book.after orders).add order).trades := by
  simp [returned, responses_concat]

theorem after_append (book : Book) (orders more : List Order) :
    book.after (orders ++ more) = (book.after orders).after more :=
  List.foldl_append

/-- What is at some place of a longer list is at its end or at a place of the shorter one. -/
theorem concat_eq_append_cons_iff {α : Type} {items before after : List α} {last item : α} :
    items ++ [last] = before ++ item :: after
      ↔ (items = before ∧ last = item ∧ after = [])
        ∨ ∃ rest, after = rest ++ [last] ∧ items = before ++ item :: rest := by
  constructor
  · intro same
    rcases List.eq_nil_or_concat' after with rfl | ⟨rest, other, rfl⟩
    · obtain ⟨rfl, single⟩ := List.append_inj' same rfl
      exact .inl ⟨rfl, (List.cons.inj single).1, rfl⟩
    · rw [← List.cons_append, ← List.append_assoc] at same
      obtain ⟨rfl, single⟩ := List.append_inj' same rfl
      exact .inr ⟨rest, by rw [(List.cons.inj single).1], rfl⟩
  · rintro (⟨rfl, rfl, rfl⟩ | ⟨rest, rfl, rfl⟩)
    · rfl
    · simp

section Add
variable {book : Book} {order : Order}

theorem add_of_halted {fault : Fault} (faulted : book.fault = some fault) :
    book.add order = ⟨book, [], .error (.halted fault)⟩ := by
  unfold add
  rw [faulted]

theorem add_of_objection {cause : Rejection} (running : book.fault = none)
    (objected : book.objection order = some cause) :
    book.add order = ⟨book, [.rejected cause.message], .error (.rejected cause)⟩ := by
  unfold add
  rw [running, objected]

theorem add_of_refused (running : book.fault = none) (refused : ¬ order.Admissible book.config) :
    ∃ cause, book.add order = ⟨book, [.rejected cause.message], .error (.rejected cause)⟩ := by
  cases objected : book.objection order with
  | none => exact absurd (objection_eq_none_iff.mp objected) refused
  | some cause => exact ⟨cause, add_of_objection running objected⟩

theorem add_of_accepted {next : Ledger} {events : List Event} {trades : List Trade} (running : book.fault = none)
    (admissible : order.Admissible book.config) (accepted : book.ledger.accept order = ⟨next, events, .ok trades⟩) :
    book.add order = ⟨{ book with ledger := next }, events, .ok trades⟩ := by
  unfold add
  rw [running, objection_eq_none_iff.mpr admissible]
  dsimp only
  rw [accepted]

theorem add_of_admissible (running : book.fault = none) (coherent : book.ledger.Coherent none)
    (room : book.ledger.orders.size + 1 < 0x1_0000_0000_0000_0000) (admissible : order.Admissible book.config) :
    ∃ next events, book.add order = ⟨{ book with ledger := next }, events, .ok (Event.trades events)⟩
      ∧ book.ledger.accept order = ⟨next, events, .ok (Event.trades events)⟩
      ∧ Moves book.config book.ledger none events next none ∧ next.orders.size = book.ledger.orders.size + 1 := by
  obtain ⟨next, events, accepted, moves, size⟩ := Ledger.accept_moves coherent room admissible
  exact ⟨next, events, add_of_accepted running admissible accepted, accepted, moves, size⟩

theorem add_of_spent (running : book.fault = none) (coherent : book.ledger.Coherent none)
    (spent : book.ledger.orders.size + 1 = 0x1_0000_0000_0000_0000) (admissible : order.Admissible book.config) :
    book.add order = ⟨{ book with ledger := book.ledger.store order, fault := some (.unknownOrder .unassigned) },
      [.halted (Fault.unknownOrder .unassigned).message], .error (.faulted (.unknownOrder .unassigned))⟩ := by
  unfold add
  rw [running, objection_eq_none_iff.mpr admissible]
  dsimp only
  rw [Ledger.accept_spent coherent spent]
  rfl

end Add

inductive Standing (book : Book) (events : List Event) : Prop
  | running (unfaulted : book.fault = none) (moves : Moves book.config .empty none events book.ledger none)
  | spent {fault : Fault} {full : Ledger} {earlier : List Event} {order : Order} (faulted : book.fault = some fault)
      (moves : Moves book.config .empty none earlier full none)
      (spent : full.orders.size + 1 = 0x1_0000_0000_0000_0000) (admissible : order.Admissible book.config)
      (stored : book.ledger = full.store order) (trades : Event.trades events = Event.trades earlier)

variable {book : Book} {order : Order} {events : List Event}

theorem Standing.moves (standing : book.Standing events) (unfaulted : book.fault = none) :
    Moves book.config .empty none events book.ledger none := by
  cases standing with
  | running _ moves => exact moves
  | spent faulted =>
    rw [unfaulted] at faulted
    cases faulted

inductive Call (book : Book) (order : Order) : Prop
  | taken {next : Ledger} {events : List Event} (unfaulted : book.fault = none) (coherent : book.ledger.Coherent none)
      (room : book.ledger.orders.size + 1 < 0x1_0000_0000_0000_0000) (admissible : order.Admissible book.config)
      (added : book.add order = ⟨{ book with ledger := next }, events, .ok (Event.trades events)⟩)
      (accepted : book.ledger.accept order = ⟨next, events, .ok (Event.trades events)⟩)
      (moves : Moves book.config book.ledger none events next none)
      (size : next.orders.size = book.ledger.orders.size + 1)
  | refused {cause : Rejection} (unfaulted : book.fault = none) (refused : ¬ order.Admissible book.config)
      (added : book.add order = ⟨book, [.rejected cause.message], .error (.rejected cause)⟩)
  | spent {fault : Fault} (unfaulted : book.fault = none)
      (spent : book.ledger.orders.size + 1 = 0x1_0000_0000_0000_0000) (admissible : order.Admissible book.config)
      (added : book.add order = ⟨{ book with ledger := book.ledger.store order, fault := some fault },
        [.halted fault.message], .error (.faulted fault)⟩)
  | halted {fault : Fault} (faulted : book.fault = some fault)
      (added : book.add order = ⟨book, [], .error (.halted fault)⟩)

theorem Standing.call (standing : book.Standing events) (order : Order) : book.Call order := by
  cases standing with
  | running unfaulted moves =>
    have coherent := moves.coherent Ledger.coherent_empty
    by_cases admissible : order.Admissible book.config
    · rcases coherent.room_or_spent with room | spent
      · obtain ⟨next, more, added, accepted, further, size⟩ := add_of_admissible unfaulted coherent room admissible
        exact .taken unfaulted coherent room admissible added accepted further size
      · exact .spent unfaulted spent admissible (add_of_spent unfaulted coherent spent admissible)
    · obtain ⟨cause, added⟩ := add_of_refused unfaulted admissible
      exact .refused unfaulted admissible added
  | spent faulted => exact .halted faulted (add_of_halted faulted)

/-- One more order leaves the book standing, and returns the trades of its events. -/
theorem Standing.add (standing : book.Standing events) (order : Order) :
    (book.add order).book.Standing (events ++ (book.add order).events)
      ∧ (book.add order).trades = Event.trades (book.add order).events
      ∧ (book.add order).book.config = book.config
      ∧ (book.add order).book.ledger.orders.size ≤ book.ledger.orders.size + 1 := by
  cases standing.call order with
  | taken unfaulted _ _ _ added _ further size =>
    rw [added]
    exact ⟨.running unfaulted ((standing.moves unfaulted).trans further), rfl, rfl, Nat.le_of_eq size⟩
  | refused unfaulted refused added =>
    rw [added]
    exact ⟨.running unfaulted (.tail (standing.moves unfaulted) (.reject refused _)), rfl, rfl, Nat.le_succ _⟩
  | spent unfaulted spent admissible added =>
    rw [added]
    refine ⟨.spent rfl (standing.moves unfaulted) spent admissible rfl ?_, rfl, rfl,
      Nat.le_of_eq (Ledger.size_store ..)⟩
    exact (Event.trades_append ..).trans (List.append_nil _)
  | halted _ added =>
    rw [added, List.append_nil]
    exact ⟨standing, rfl, rfl, Nat.le_succ _⟩

theorem open?_eq {config : Config} {fresh : Book} (opened : open? config = .ok fresh) :
    fresh.config = config ∧ fresh.ledger = .empty ∧ fresh.fault = none := by
  unfold open? at opened
  split at opened
  · cases opened
  · obtain rfl := Except.ok.inj opened
    exact ⟨rfl, rfl, rfl⟩

/-- What every history of an opened book keeps. -/
theorem standing_after {config : Config} {fresh : Book} (opened : open? config = .ok fresh) (orders : List Order) :
    (fresh.after orders).Standing (fresh.audit orders) ∧ fresh.returned orders = Event.trades (fresh.audit orders)
      ∧ (fresh.after orders).config = config ∧ (fresh.after orders).ledger.orders.size ≤ orders.length := by
  obtain ⟨same, empty, unfaulted⟩ := open?_eq opened
  -- The last order meets the book that the others have left, and that book stands.
  induction orders using List.reverseRecOn with
  | nil =>
    refine ⟨.running unfaulted ?_, rfl, same, ?_⟩
    · rw [after_nil, empty]
      exact .refl
    · rw [after_nil, empty]
      exact Nat.le_refl 0
  | append_singleton orders order ih =>
    obtain ⟨standing, returned, config, size⟩ := ih
    obtain ⟨next, answered, kept, grown⟩ := standing.add order
    rw [after_concat, audit_concat, returned_concat, returned, answered, Event.trades_append, List.length_append]
    exact ⟨next, rfl, kept.trans config, grown.trans (Nat.add_le_add_right size 1)⟩

theorem Standing.running_of_size (standing : book.Standing events)
    (left : book.ledger.orders.size < 0x1_0000_0000_0000_0000) :
    book.fault = none ∧ Moves book.config .empty none events book.ledger none := by
  cases standing with
  | running unfaulted moves => exact ⟨unfaulted, moves⟩
  | spent _ _ spent _ stored =>
    rw [stored, Ledger.size_store, spent] at left
    exact absurd left (Nat.lt_irrefl _)

/-- The history of an opened book: its ledger shows what moves have reached, and its events are theirs, but for the
report that it has halted. -/
theorem history_after {config : Config} {fresh : Book} (opened : open? config = .ok fresh) (orders : List Order) :
    ∃ full earlier, ∃ halts : List String, fresh.audit orders = earlier ++ halts.map .halted
      ∧ Moves config .empty none earlier full none ∧ (fresh.after orders).ledger.Alike full := by
  induction orders using List.reverseRecOn with
  | nil =>
    obtain ⟨-, empty, -⟩ := open?_eq opened
    refine ⟨.empty, [], [], rfl, .refl, ?_⟩
    rw [after_nil, empty]
    exact .refl _
  | append_singleton orders order ih =>
    obtain ⟨standing, -, same, -⟩ := standing_after opened orders
    rw [audit_concat, after_concat]
    cases standing.call order with
    | taken unfaulted _ _ _ added _ further =>
      rw [same] at further
      rw [added]
      exact ⟨_, _, [], (List.append_nil _).symm, (same ▸ standing.moves unfaulted).trans further, .refl _⟩
    | refused unfaulted refused added =>
      rw [added]
      rw [same] at refused
      exact ⟨_, _, [], (List.append_nil _).symm, .tail (same ▸ standing.moves unfaulted) (.reject refused _), .refl _⟩
    | @spent fault unfaulted spent _ added =>
      rw [added]
      exact ⟨_, _, [fault.message], rfl, same ▸ standing.moves unfaulted, Ledger.alike_store spent _⟩
    | halted _ added =>
      rw [added, List.append_nil]
      exact ih

/-- No order is marked twice, whatever the history of the book. -/
theorem marked_once {config : Config} {fresh : Book} (opened : open? config = .ok fresh) (orders : List Order)
    (mark : Ledger.Mark) (unmarked : ∀ reason, mark.setBy (.halted reason) = none) :
    (mark.set (fresh.audit orders)).Nodup := by
  obtain ⟨full, events, halts, audit, moves, -⟩ := history_after opened orders
  have nobody : mark.set (halts.map .halted) = [] := by
    simp [Ledger.Mark.set, List.filterMap_map, unmarked]
  rw [audit, mark.set_append, nobody, List.append_nil]
  exact mark.nodup_of_moves moves Ledger.coherent_empty

end Book
end LimitBook
