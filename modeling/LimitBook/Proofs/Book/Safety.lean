import LimitBook.Proofs.Book.History

/-! Safety of books: as long as there are numbers left a book meets no fault, and it refuses an order only
for what the order itself brings. -/
namespace LimitBook.Book

structure Faultless (config : Config) (order : Order) (response : Response) : Prop where
  running : response.book.isHalted = false
  refused_iff : (∃ refusal, response.answer = .error refusal)
    ↔ order.id ≠ .unassigned ∨ order.carriesState = true ∨ config.check order ≠ .onGrid
  invalid : ∀ refusal, response.answer = .error refusal → refusal.kind = .invalidOrder

variable {config : Config} {book : Book} {order : Order} {events : List Event}

private theorem not_admissible_iff : ¬ order.Admissible config
    ↔ order.id ≠ .unassigned ∨ order.carriesState = true ∨ config.check order ≠ .onGrid := by
  constructor
  · intro refused
    by_cases numbered : order.id = .unassigned
    · by_cases state : order.carriesState = true
      · exact .inr (.inl state)
      · refine .inr (.inr fun onGrid => refused ?_)
        obtain ⟨whole, live, unfilled, waiting⟩ := Order.carriesState_eq_false_iff.mp (Bool.not_eq_true _ ▸ state)
        exact ⟨numbered, whole, live, unfilled, waiting, onGrid⟩
    · exact .inl numbered
  · rintro reason admissible
    rcases reason with numbered | state | offGrid
    · exact numbered admissible.unnumbered
    · rw [Order.carriesState_eq_false_iff.mpr
        ⟨admissible.whole, admissible.live, admissible.unfilled, admissible.waiting⟩] at state
      cases state
    · exact offGrid admissible.onGrid

private theorem Standing.faultless (standing : book.Standing events) (order : Order)
    (room : book.ledger.orders.size + 1 < 0x1_0000_0000_0000_0000) :
    Faultless book.config order (book.add order) := by
  obtain ⟨unfaulted, moves⟩ := standing.running_of_size (by omega)
  by_cases admissible : order.Admissible book.config
  · obtain ⟨next, more, added, -, -⟩ :=
      add_of_admissible unfaulted (moves.coherent Ledger.coherent_empty) room admissible
    rw [added]
    refine ⟨?_, ?_, ?_⟩
    · simp [isHalted, unfaulted]
    · rw [← not_admissible_iff]
      simp [admissible]
    · intro refusal answered
      cases answered
  · obtain ⟨cause, added⟩ := add_of_refused unfaulted admissible
    rw [added]
    refine ⟨?_, ?_, ?_⟩
    · simp [isHalted, unfaulted]
    · rw [← not_admissible_iff]
      simp [admissible]
    · intro refusal answered
      obtain rfl := Except.error.inj answered
      rfl

private theorem Standing.all_faultless (standing : book.Standing events) (orders : List Order)
    (room : book.ledger.orders.size + orders.length < 0x1_0000_0000_0000_0000) :
    List.Forall₂ (Faultless book.config) orders (book.responses orders) := by
  induction orders generalizing book events with
  | nil => exact .nil
  | cons order rest ih =>
    obtain ⟨next, -, same, size⟩ := standing.add order
    rw [List.length_cons] at room
    have first := standing.faultless order (by omega)
    have others := ih next (by omega)
    rw [same] at others
    exact .cons first others

/-- A book opened on any sound configuration and given fewer orders than there are numbers meets no
fault: it never halts, and it refuses an order, as an invalid one, exactly when the order already has a
number, carries execution state or lies off the grid. -/
theorem faultless_of_open? {fresh : Book} (opened : open? config = .ok fresh) (orders : List Order)
    (few : orders.length < 0xffff_ffff_ffff_ffff) :
    fresh.isHalted = false ∧ (fresh.after orders).isHalted = false
      ∧ List.Forall₂ (Faultless config) orders (fresh.responses orders) := by
  obtain ⟨same, empty, unfaulted⟩ := open?_eq opened
  obtain ⟨standing, -, -, size⟩ := standing_after opened orders
  have still := (standing.running_of_size (by omega)).1
  have start : fresh.Standing [] := (standing_after opened []).1
  have all := start.all_faultless orders (by
    rw [empty]
    change 0 + orders.length < _
    omega)
  rw [same] at all
  exact ⟨by simp [isHalted, unfaulted], by simp [isHalted, still], all⟩

/-- On a book in cents a market order takes from a limit order, and a stop without a side is refused. -/
theorem faultless_of_open?_cents : ∃ fresh, open? (Config.cents "ACME") = .ok fresh ∧
    let orders := [.limit .sell 1 (.ofCents 100), .market .buy 1, .fresh none (.stop 0 none) 1]
    orders.length < 0xffff_ffff_ffff_ffff
      ∧ (fresh.responses orders).map Response.answer = [.ok [], .ok [⟨.ofNumber 2, .ofNumber 1, 1, .ofCents 100⟩],
        .error (.rejected (.noSide (.stop 0 none)))]
      ∧ fresh.isHalted = false ∧ (fresh.after orders).isHalted = false
      ∧ List.Forall₂ (Faultless (Config.cents "ACME")) orders (fresh.responses orders) :=
  ⟨_, rfl, by decide, by decide +kernel, faultless_of_open? rfl _ (by decide)⟩

end LimitBook.Book
