import LimitBook.Ledger.Matching

/-! Carrying an order out: it is matched, and what is left of it rests at its limit or, if it trades
at any price, is discarded. -/
namespace LimitBook.Ledger

def settle (ledger : Ledger) (id : OrderId) : Outcome Unit :=
  match ledger.find id with
  | .error fault => .failed ledger fault
  | .ok order =>
    if order.executed then .done ledger ()
    else
      match order.side, order.limitPrice with
      | some side, some price => ⟨ledger, [.rested id side price order.remaining], .ok ()⟩
      | _, _ => ⟨ledger.discard id order, [.cancelled id .unfilledMarket], .ok ()⟩

def execute (ledger : Ledger) (id : OrderId) : Outcome (List Trade) :=
  (ledger.sweep id).andThen fun ledger trades => (ledger.settle id).map fun _ => trades

private theorem openUnits_settle {ledger next : Ledger} {id : OrderId} (settled : (ledger.settle id).Reaches next ()) :
    next.openUnits = ledger.openUnits := by
  unfold settle at settled
  split at settled
  · exact absurd settled Outcome.not_reaches_failed
  rename_i order found
  split at settled
  · rw [settled.1.symm]
    rfl
  split at settled
  · rw [settled.1.symm]
  · rw [settled.1.symm]
    exact openUnits_put_of_remaining_eq (get?_of_find found) rfl

theorem spends_execute (ledger : Ledger) (id : OrderId) : (ledger.execute id).Spends ledger := by
  intro next trades reaches
  obtain ⟨swept, own, sweeping, settling⟩ := Outcome.reaches_andThen.mp reaches
  obtain ⟨_, settled, rfl⟩ := Outcome.reaches_map.mp settling
  rw [openUnits_settle settled]
  exact spends_sweep ledger id _ _ sweeping

end LimitBook.Ledger
