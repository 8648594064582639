import LimitBook.Proofs.Ledger.Moves

/-! Continuity. Whatever state a ledger is in, its indexes and records at odds or not, and wherever a step is
stopped by a fault: no record is lost, no record goes back, and what has been cancelled stays cancelled. -/
namespace LimitBook

private theorem Order.GoesOn.of_fill? {order filled : Order} {volume : Volume}
    (taken : order.fill? volume = some filled) :
    order.GoesOn filled := by
  unfold fill? at taken
  split at taken
  · cases taken
  · obtain rfl := Option.some.inj taken
    exact take order volume

namespace Ledger

structure Preserves (earlier later : Ledger) : Prop where
  records : ∀ (place : Nat) (record : Order), earlier.orders[place]? = some record →
    ∃ next : Order, later.orders[place]? = some next ∧ record.GoesOn next
  cancelled : ∀ id ∈ earlier.cancelled, id ∈ later.cancelled

structure Advances (earlier later : Ledger) : Prop extends Preserves earlier later where
  nextId : earlier.nextId ≤ later.nextId

structure Continues (earlier later : Ledger) : Prop extends Preserves earlier later where
  size : later.orders.size = earlier.orders.size
  nextId : later.nextId = earlier.nextId

variable {ledger first second third next : Ledger} {id : OrderId} {old new : Order}

theorem Preserves.refl (ledger : Ledger) : ledger.Preserves ledger where
  records := fun _ record stored => ⟨record, stored, .refl record⟩
  cancelled := fun _ member => member

theorem Preserves.trans (one : first.Preserves second) (two : second.Preserves third) : first.Preserves third where
  records := by
    intro place record stored
    obtain ⟨middle, there, early⟩ := one.records place record stored
    obtain ⟨last, found, late⟩ := two.records place middle there
    exact ⟨last, found, early.trans late⟩
  cancelled := fun id member => two.cancelled id (one.cancelled id member)

theorem Continues.refl (ledger : Ledger) : ledger.Continues ledger := ⟨.refl ledger, rfl, rfl⟩

theorem Continues.trans (one : first.Continues second) (two : second.Continues third) : first.Continues third :=
  ⟨one.toPreserves.trans two.toPreserves, two.size.trans one.size, two.nextId.trans one.nextId⟩

theorem Continues.get? (continues : first.Continues second) (found : first.get? id = some old) :
    ∃ record, second.get? id = some record ∧ old.GoesOn record := by
  have assigned := ne_unassigned_of_get? found
  simp only [Ledger.get?, assigned, if_false] at found ⊢
  exact continues.records _ old found

/-- Where nothing is added, every record has been there before. -/
theorem Continues.record_before (continues : first.Continues second) {place : Nat} {record : Order}
    (stored : second.orders[place]? = some record) : ∃ old :
    Order, first.orders[place]? = some old ∧ old.GoesOn record := by
  obtain ⟨within, -⟩ := Array.getElem?_eq_some_iff.mp stored
  rw [continues.size] at within
  have there := Array.getElem?_eq_getElem within
  obtain ⟨next, found, goesOn⟩ := continues.records place _ there
  obtain rfl := Option.some.inj (found.symm.trans stored)
  exact ⟨_, there, goesOn⟩

theorem Continues.get?_before (continues : first.Continues second) (found : second.get? id = some new) :
    ∃ record, first.get? id = some record ∧ record.GoesOn new := by
  have assigned := ne_unassigned_of_get? found
  simp only [Ledger.get?, assigned, if_false] at found ⊢
  exact continues.record_before found

/-- Records that agree, whatever the indexes and the last price are. -/
theorem continues_of_same (orders : next.orders = ledger.orders) (cancelled : next.cancelled = ledger.cancelled)
    (nextId : next.nextId = ledger.nextId) : ledger.Continues next := by
  refine ⟨⟨?_, ?_⟩, by rw [orders], nextId⟩
  · rw [orders]
    exact (Preserves.refl ledger).records
  · rw [cancelled]
    exact (Preserves.refl ledger).cancelled

private theorem continues_setIndex (ledger : Ledger) (kind : IndexKind) (index : PriceIndex) :
    ledger.Continues (ledger.setIndex kind index) :=
  continues_of_same (orders_setIndex ..) (cancelled_setIndex ..) (nextId_setIndex ..)

private theorem continues_enter (ledger : Ledger) (kind : IndexKind) (entry : Entry) :
    ledger.Continues (ledger.enter kind entry) :=
  continues_setIndex ..

private theorem continues_leave {kind : IndexKind} {entry : Entry} (left : ledger.leave kind entry = .ok next) :
    ledger.Continues next := by
  rw [(eq_of_leave left).2]
  apply continues_setIndex

private theorem continues_put (found : ledger.get? id = some old) (goesOn : old.GoesOn new) :
    ledger.Continues (ledger.put id new) where
  size := size_put ..
  records := by
    intro place record stored
    have assigned := ne_unassigned_of_get? found
    simp only [get?, put, assigned, if_false] at found ⊢
    by_cases same : place = id.number - 1
    · subst same
      obtain rfl := Option.some.inj (found.symm.trans stored)
      obtain ⟨within, -⟩ := Array.getElem?_eq_some_iff.mp stored
      exact ⟨new, Array.getElem?_setIfInBounds_self_of_lt within, goesOn⟩
    · exact ⟨record, by rw [Array.getElem?_setIfInBounds_ne (Ne.symm same), stored], .refl record⟩
  cancelled := by
    rw [cancelled_put]
    exact fun _ member => member
  nextId := nextId_put ..

private theorem continues_discard (found : ledger.get? id = some old) : ledger.Continues (ledger.discard id old) := by
  have marked : ledger.Continues (ledger.put id old.withdraw) := continues_put found (.withdraw old)
  refine ⟨⟨marked.records, ?_⟩, marked.size, marked.nextId⟩
  intro other member
  change other ∈ (ledger.put id old.withdraw).cancelled.insert id
  rw [SortedSet.mem_insert]
  exact .inr (marked.cancelled other member)

private theorem continues_fill {volume : Volume} (filled : ledger.fill id volume = .ok next) :
    ledger.Continues next := by
  obtain ⟨order, rest, found, taken, rfl⟩ := eq_of_fill filled
  exact continues_put found (.of_fill? taken)

private theorem continues_retire {side : Side} {limit : Option Price} {rested : Bool}
    (retired : ledger.retire id side limit rested = .ok next) : ledger.Continues next := by
  rcases eq_or_leave_of_retire retired with rfl | ⟨price, -, left⟩
  · exact .refl _
  · exact continues_leave left

section Outcomes
variable {α β : Type} {outcome : Outcome α} {onward : Ledger → α → Outcome β} {changed : Except Fault Ledger}

private theorem continues_change (step : ∀ next, changed = .ok next → ledger.Continues next) :
    ledger.Continues (Outcome.change ledger changed).ledger :=
  Outcome.keeps_change (ledger.Continues ·) (.refl ledger) step

private theorem Continues.andThen (start : ledger.Continues outcome.ledger)
    (step : ∀ (middle : Ledger) (answer : α), middle.Continues (onward middle answer).ledger) :
    ledger.Continues (outcome.andThen onward).ledger :=
  Outcome.keeps_andThen (ledger.Continues ·) start fun middle answer kept => kept.trans (step middle answer)

end Outcomes

theorem continues_apply (ledger : Ledger) (trade : Trade) : ledger.Continues (ledger.apply trade).ledger := by
  unfold apply
  split
  · exact .refl ledger
  apply Continues.andThen (continues_change fun _ => continues_fill)
  intro filled _
  apply Continues.andThen (continues_change fun _ => continues_fill)
  intro both _
  have priced : both.Continues { both with lastPrice := some trade.price } := continues_of_same rfl rfl rfl
  apply Continues.andThen (priced.trans (continues_change fun _ => continues_retire))
  intro struck _
  exact continues_change fun _ => continues_retire

theorem continues_sweep (ledger : Ledger) (taker : OrderId) : ledger.Continues (ledger.sweep taker).ledger := by
  fun_induction sweep ledger taker with
  | case1 ledger => exact .refl ledger
  | case2 ledger => exact .refl ledger
  | case3 ledger trade _ next events fault applied =>
    have kept := continues_apply ledger trade
    rw [applied] at kept
    exact kept
  | case4 ledger trade _ next events applied ih =>
    have kept := continues_apply ledger trade
    rw [applied] at kept
    exact kept.trans ih

theorem continues_settle (ledger : Ledger) (id : OrderId) : ledger.Continues (ledger.settle id).ledger := by
  unfold settle
  split
  · exact .refl ledger
  rename_i order found
  split
  · exact .refl ledger
  split
  · exact .refl ledger
  · exact continues_discard (get?_of_find found)

private theorem continues_execute (ledger : Ledger) (id : OrderId) : ledger.Continues (ledger.execute id).ledger :=
  (continues_sweep ledger id).andThen fun swept _ => continues_settle swept id

theorem continues_promote (ledger : Ledger) (id : OrderId) (price : Price) :
    ledger.Continues (ledger.promote id price).ledger := by
  unfold promote
  split
  · exact .refl ledger
  rename_i stop found
  split
  · split
    · exact .refl ledger
    · rename_i struck left
      have there : struck.get? id = some stop := by
        rw [(eq_of_leave left).2, get?_setIndex]
        exact get?_of_find found
      have marked := (continues_leave left).trans (continues_put there (.fire stop))
      dsimp only
      split
      · exact marked.trans (continues_enter ..)
      · exact marked
  · exact .refl ledger

section Cascades
variable {executor : Executor}
    (runs : ∀ (ledger : Ledger) (id : OrderId), ledger.Continues (executor.run ledger id).ledger)
include runs

private theorem continues_fire (price : Price) (ledger : Ledger) (ids : List OrderId) :
    ledger.Continues (fire executor price ledger ids).ledger := by
  induction ids generalizing ledger with
  | nil => exact .refl ledger
  | cons id rest ih =>
    unfold fire
    split
    · exact .refl ledger
    split
    · exact ih ledger
    apply Continues.andThen (continues_promote ledger id price)
    intro promoted _
    apply Continues.andThen (runs promoted id)
    intro carried _
    exact ih carried

private theorem continues_cascade (ledger : Ledger) (waiting : List Price) :
    ledger.Continues (cascade executor ledger waiting).ledger := by
  fun_induction cascade executor ledger waiting with
  | case1 ledger => exact .refl ledger
  | case2 ledger => exact .refl ledger
  | case3 ledger price _ ids _ next events fault fired =>
    have kept := continues_fire runs price ledger ids
    rw [fired] at kept
    exact kept
  | case4 ledger price _ ids _ next events trades fired ih =>
    have kept := continues_fire runs price ledger ids
    rw [fired] at kept
    exact kept.trans ih

end Cascades

private theorem continues_trade (ledger : Ledger) (id : OrderId) : ledger.Continues (ledger.trade id).ledger :=
  (continues_execute ledger id).andThen fun executed _ => continues_cascade continues_execute executed _

private theorem get?_of_unlist (unlisted : ledger.unlist id old = .ok next) (other : OrderId) :
    ledger.Continues next ∧ next.get? other = ledger.get? other := by
  have leaving : ∀ {kind entry}, ledger.leave kind entry = .ok next →
      ledger.Continues next ∧ next.get? other = ledger.get? other := by
    intro kind entry left
    refine ⟨continues_leave left, ?_⟩
    rw [(eq_of_leave left).2, get?_setIndex]
  unfold unlist at unlisted
  split at unlisted
  · exact leaving unlisted
  · exact leaving unlisted
  · obtain rfl := Except.ok.inj unlisted
    exact ⟨.refl _, rfl⟩

private theorem continues_withdraw (ledger : Ledger) (id target : OrderId) :
    ledger.Continues (ledger.withdraw id target).ledger := by
  unfold withdraw
  split
  · exact .refl ledger
  rename_i order aimed
  obtain ⟨found, -⟩ := Option.filter_eq_some_iff.mp aimed
  cases unlisted : ledger.unlist target order with
  | error fault => exact .refl ledger
  | ok struck =>
    obtain ⟨kept, same⟩ := get?_of_unlist unlisted target
    exact kept.trans (continues_discard (same.trans found))

private theorem continues_list (ledger : Ledger) (id : OrderId) (order : Order) :
    ledger.Continues (ledger.list id order) := by
  unfold list
  split
  · apply continues_enter
  · exact .refl ledger

private theorem continues_carryOut (ledger : Ledger) (id : OrderId) (order : Order) :
    ledger.Continues (ledger.carryOut id order).ledger := by
  unfold carryOut
  split
  · exact continues_withdraw ledger id _
  · exact continues_enter ledger .stops _
  · exact (continues_list ledger id order).trans (continues_trade _ id)
  · exact (continues_list ledger id order).trans (continues_trade _ id)

/-- A new order is stored under the next number; after that its call adds no record and uses no number. -/
theorem continues_accept (ledger : Ledger) (order : Order) :
    (ledger.store order).Continues (ledger.accept order).ledger := by
  unfold accept
  dsimp only
  split
  · exact .refl _
  · exact continues_carryOut ..

private theorem advances_store (order : Order) (room : ledger.nextId.number < 0xffff_ffff_ffff_ffff) :
    ledger.Advances (ledger.store order) where
  records := by
    intro place record stored
    obtain ⟨within, -⟩ := Array.getElem?_eq_some_iff.mp stored
    refine ⟨record, ?_, .refl record⟩
    change (ledger.orders.push _)[place]? = _
    rw [Array.getElem?_push_lt within, ← Array.getElem?_eq_getElem within, stored]
  cancelled := fun _ member => member
  nextId := by
    change ledger.nextId ≤ ledger.nextId.next
    rw [OrderId.le_iff_number, OrderId.number_next (by omega)]
    omega

theorem advances_accept (order : Order) (room : ledger.nextId.number < 0xffff_ffff_ffff_ffff) :
    ledger.Advances (ledger.accept order).ledger := by
  have stored := advances_store order room
  have carried := continues_accept ledger order
  refine ⟨stored.toPreserves.trans carried.toPreserves, ?_⟩
  rw [carried.nextId]
  exact stored.nextId

end Ledger
end LimitBook
