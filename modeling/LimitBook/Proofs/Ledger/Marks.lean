import LimitBook.Proofs.Ledger.Moves

/-! Marks: flags of an order that an event sets and none clears. Firing marks a stop and withdrawal any order, and
neither marks an order twice. -/
namespace LimitBook

namespace Event

def firing? : Event → Option (OrderId × Price)
  | .stopTriggered id price => some (id, price)
  | _ => none

def firings (events : List Event) : List (OrderId × Price) := events.filterMap firing?

def withdrawal? : Event → Option OrderId
  | .cancelled id _ => some id
  | _ => none

def withdrawals (events : List Event) : List OrderId := events.filterMap withdrawal?

@[simp] theorem firings_append (events more : List Event) : firings (events ++ more) = firings events ++ firings more :=
  List.filterMap_append

@[simp] theorem withdrawals_append (events more : List Event) :
    withdrawals (events ++ more) = withdrawals events ++ withdrawals more := List.filterMap_append

end Event

namespace Ledger

structure Mark where
  flag : Order → Bool
  setBy : Event → Option OrderId
  law : ∀ event order, flag (event.effect order) = true ↔ flag order = true ∨ setBy event = some order.id
  unset : ∀ {config ledger next before later events}, Move config ledger before events next later →
    ∀ id ∈ events.filterMap setBy, ∃ order, ledger.get? id = some order ∧ flag order = false

namespace Mark

def set (mark : Mark) (events : List Event) : List OrderId := events.filterMap mark.setBy

def fired : Mark where
  flag := Order.triggered
  setBy event := event.firing?.map Prod.fst
  law := by
    intro event order
    unfold Event.effect
    split
    · split <;> simp [Event.firing?, Order.take]
    · rename_i id price
      split
      · rename_i own
        simp [Event.firing?, Order.fire, own]
      · rename_i other
        simp [Event.firing?, Ne.symm other]
    · split <;> simp [Event.firing?, Order.withdraw]
    · rename_i silent _
      cases event with
      | stopTriggered id price => exact absurd rfl (silent id price)
      | _ => simp [Event.firing?]
  unset := by
    intro config ledger next before later events move id marked
    cases move with
    | trigger found pending =>
      obtain rfl := List.mem_singleton.mp marked
      exact ⟨_, found, (Order.isPending_iff.mp pending).2.1⟩
    | _ => cases marked

def withdrawn : Mark where
  flag := Order.cancelled
  setBy := Event.withdrawal?
  law := by
    intro event order
    unfold Event.effect
    split
    · split <;> simp [Event.withdrawal?, Order.take]
    · split <;> simp [Event.withdrawal?, Order.fire]
    · rename_i id reason
      split
      · rename_i own
        simp [Event.withdrawal?, own]
      · rename_i other
        simp [Event.withdrawal?, Ne.symm other]
    · rename_i silent
      cases event with
      | cancelled id reason => exact absurd rfl (silent id reason)
      | _ => simp [Event.withdrawal?]
  unset := by
    intro config ledger next before later events move id marked
    cases move with
    | discard found active =>
      obtain rfl := List.mem_singleton.mp marked
      exact ⟨_, found, (Order.isActive_iff.mp active).1⟩
    | withdraw found withdrawable =>
      obtain rfl := List.mem_singleton.mp marked
      exact ⟨_, found, (isWithdrawable_iff.mp withdrawable).2.2.2⟩
    | _ => cases marked

variable (mark : Mark) {config : Config} {ledger next : Ledger} {before later : Option OrderId}
  {events more : List Event} {id : OrderId} {order record : Order}

@[simp] theorem set_append : mark.set (events ++ more) = mark.set events ++ mark.set more := List.filterMap_append

theorem set_fired (events : List Event) : fired.set events = (Event.firings events).map Prod.fst := by
  rw [Event.firings, List.map_filterMap]
  rfl

private theorem flag_effects (events : List Event) (order : Order) :
    mark.flag (Event.effects events order) = true ↔ mark.flag order = true ∨ order.id ∈ mark.set events := by
  induction events generalizing order with
  | nil => simp [Event.effects, set]
  | cons event rest ih =>
    change mark.flag (Event.effects rest (event.effect order)) = true ↔ _
    rw [ih, mark.law, Order.id_effect, or_assoc]
    refine or_congr_right ?_
    cases marked : mark.setBy event with
    | none => simp [set, marked]
    | some other => simp [set, marked, eq_comm]

/-- A move sets the flag of just those orders that its event marks. -/
theorem flag_of_move (move : Move config ledger before events next later) (coherent : ledger.Coherent before)
    (found : ledger.get? id = some order) (stored : next.get? id = some record) :
    mark.flag record = true ↔ mark.flag order = true ∨ id ∈ mark.set events := by
  have law := mark.flag_effects events order
  rw [coherent.numbered found] at law
  rw [move.get?_eq_effects coherent found] at stored
  obtain rfl := Option.some.inj stored
  exact law

theorem flag_of_moves (moves : Moves config ledger before events next later) (coherent : ledger.Coherent before)
    (found : ledger.get? id = some order) (stored : next.get? id = some record) :
    mark.flag record = true ↔ mark.flag order = true ∨ id ∈ mark.set events := by
  induction moves generalizing record with
  | refl =>
    obtain rfl := Option.some.inj (found.symm.trans stored)
    simp [set]
  | tail moves move ih =>
    obtain ⟨between, there, -⟩ := moves.goesOn coherent found
    rw [mark.flag_of_move move (moves.coherent coherent) there stored, ih coherent there, set_append,
      List.mem_append, or_assoc]

theorem flagged_of_move (move : Move config ledger before events next later) (coherent : ledger.Coherent before)
    (marked : id ∈ mark.set events) : ∃ record, next.get? id = some record ∧ mark.flag record = true := by
  obtain ⟨order, found, -⟩ := mark.unset move id marked
  obtain ⟨record, stored, -⟩ := move.goesOn coherent found
  exact ⟨record, stored, (mark.flag_of_move move coherent found stored).mpr (.inr marked)⟩

theorem flagged_of_moves (moves : Moves config ledger before events next later) (coherent : ledger.Coherent before)
    (marked : id ∈ mark.set events) : ∃ record, next.get? id = some record ∧ mark.flag record = true := by
  induction moves with
  | refl => cases marked
  | tail moves move ih =>
    rw [set_append, List.mem_append] at marked
    rcases marked with earlier | now
    · obtain ⟨order, found, flagged⟩ := ih coherent earlier
      obtain ⟨record, stored, -⟩ := move.goesOn (moves.coherent coherent) found
      exact ⟨record, stored, (mark.flag_of_move move (moves.coherent coherent) found stored).mpr (.inl flagged)⟩
    · exact mark.flagged_of_move move (moves.coherent coherent) now

private theorem nodup_of_move (move : Move config ledger before events next later) : (mark.set events).Nodup := by
  have single : events.length ≤ 1 := by cases move <;> simp
  have short : (mark.set events).length ≤ 1 := (List.length_filterMap_le ..).trans single
  match marked : mark.set events, short with
  | [], _ => exact List.nodup_nil
  | [id], _ => exact List.nodup_singleton id

/-- No history marks an order twice. -/
theorem nodup_of_moves (moves : Moves config ledger before events next later) (coherent : ledger.Coherent before) :
    (mark.set events).Nodup := by
  induction moves with
  | refl => exact List.nodup_nil
  | tail moves move ih =>
    rw [set_append]
    apply (ih coherent).append (mark.nodup_of_move move)
    intro id earlier now
    obtain ⟨order, found, flagged⟩ := mark.flagged_of_moves moves coherent earlier
    obtain ⟨same, stored, unset⟩ := mark.unset move id now
    obtain rfl := Option.some.inj (found.symm.trans stored)
    rw [flagged] at unset
    cases unset

end Mark
end Ledger
end LimitBook
