import LimitBook.Ledger.Trading

/-! Every trade that is carried out uses up volume: what all orders together have left to trade goes
down. This bounds matching, and with it the stops that trades can fire. -/
namespace LimitBook

namespace Order

private theorem remaining_fill {order filled : Order} {volume : Volume} (taken : order.fill? volume = some filled) :
    filled.remaining.units + volume.units = order.remaining.units ∧ 0 < volume.units := by
  unfold fill? at taken
  split at taken
  · simp at taken
  · rename_i allowed
    rw [not_or, Volume.eq_zero_iff, Volume.lt_iff_units] at allowed
    simp only [Option.some.injEq] at taken
    subst taken
    simp only [Volume.units_sub]
    omega

end Order

namespace Ledger

private theorem total_set {orders : List Order} {place : Nat} {old new : Order}
    (found : orders[place]? = some old) :
    (orders.set place new).foldr (fun order total => order.remaining.units + total) 0 + old.remaining.units
      = orders.foldr (fun order total => order.remaining.units + total) 0 + new.remaining.units := by
  induction orders generalizing place with
  | nil => simp at found
  | cons head rest ih =>
    cases place with
    | zero =>
      simp only [List.getElem?_cons_zero, Option.some.injEq] at found
      subst found
      simp only [List.set_cons_zero, List.foldr_cons]
      omega
    | succ place =>
      simp only [List.getElem?_cons_succ] at found
      have shorter := ih found
      simp only [List.set_cons_succ, List.foldr_cons]
      omega

private theorem openUnits_put {ledger : Ledger} {id : OrderId} {old : Order} (new : Order)
    (found : ledger.get? id = some old) :
    (ledger.put id new).openUnits + old.remaining.units = ledger.openUnits + new.remaining.units := by
  unfold get? at found
  split at found
  · simp at found
  · rename_i positive
    simp only [put, positive, if_false, openUnits, Array.toList_setIfInBounds]
    exact total_set (by simpa using found)

theorem openUnits_put_of_remaining_eq {ledger : Ledger} {id : OrderId} {old new : Order}
    (found : ledger.get? id = some old) (same : new.remaining = old.remaining) :
    (ledger.put id new).openUnits = ledger.openUnits := by
  have whole := openUnits_put new found
  rw [same] at whole
  omega

private theorem openUnits_fill {ledger next : Ledger} {id : OrderId} {volume : Volume}
    (filled : ledger.fill id volume = .ok next) :
    next.openUnits + volume.units = ledger.openUnits ∧ 0 < volume.units := by
  obtain ⟨order, rest, found, taken, rfl⟩ := eq_of_fill filled
  have whole := openUnits_put rest found
  have part := Order.remaining_fill taken
  omega

@[simp] theorem openUnits_setIndex (ledger : Ledger) (kind : IndexKind) (index : PriceIndex) :
    (ledger.setIndex kind index).openUnits = ledger.openUnits := by cases kind <;> rfl

private theorem openUnits_retire {ledger next : Ledger} {id : OrderId} {side : Side} {limit : Option Price}
    {rested : Bool} (retired : ledger.retire id side limit rested = .ok next) :
    next.openUnits = ledger.openUnits := by
  rcases eq_or_leave_of_retire retired with rfl | ⟨price, -, left⟩
  · rfl
  · rw [(eq_of_leave left).2, openUnits_setIndex]

/-- A trade that is carried out leaves less to trade. -/
theorem openUnits_lt_of_apply {ledger next : Ledger} {trade : Trade}
    (applied : (ledger.apply trade).Reaches next ()) : next.openUnits < ledger.openUnits := by
  unfold apply at applied
  split at applied
  · exact absurd applied Outcome.not_reaches_failed
  · simp only [Outcome.reaches_andThen, Outcome.reaches_change] at applied
    obtain ⟨_, _, takerFilled, _, _, makerFilled, _, _, makerRetired, takerRetired⟩ := applied
    have first := openUnits_fill takerFilled
    have second := openUnits_fill makerFilled
    have third := openUnits_retire makerRetired
    have fourth := openUnits_retire takerRetired
    simp only [openUnits] at *
    omega

end Ledger

def Outcome.Spends (outcome : Outcome (List Trade)) (ledger : Ledger) : Prop :=
  ∀ next trades, outcome.Reaches next trades → next.openUnits + trades.length ≤ ledger.openUnits

end LimitBook
