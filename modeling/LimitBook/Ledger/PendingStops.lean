import LimitBook.Ledger.Settling

/-! Carrying an order out never touches the index of pending stops. -/
namespace LimitBook.Ledger

theorem stops_put (ledger : Ledger) (id : OrderId) (order : Order) : (ledger.put id order).stops = ledger.stops := by
  unfold put
  split <;> rfl

theorem stops_setIndex_side (ledger : Ledger) (side : Side) (index : PriceIndex) :
    (ledger.setIndex side.indexKind index).stops = ledger.stops := by cases side <;> rfl

private theorem stops_fill {ledger next : Ledger} {id : OrderId} {volume : Volume}
    (filled : ledger.fill id volume = .ok next) : next.stops = ledger.stops := by
  obtain ⟨_, rest, -, -, rfl⟩ := eq_of_fill filled
  exact stops_put ledger id rest

private theorem stops_retire {ledger next : Ledger} {id : OrderId} {side : Side} {limit : Option Price}
    {rested : Bool} (retired : ledger.retire id side limit rested = .ok next) : next.stops = ledger.stops := by
  rcases eq_or_leave_of_retire retired with rfl | ⟨price, -, left⟩
  · rfl
  · rw [(eq_of_leave left).2, stops_setIndex_side]

private theorem stops_apply (ledger : Ledger) (trade : Trade) : (ledger.apply trade).ledger.stops = ledger.stops := by
  unfold apply
  split
  · rfl
  · refine Outcome.keeps_andThen (·.stops = ledger.stops)
      (Outcome.keeps_change (·.stops = ledger.stops) rfl fun _ => stops_fill) fun _ _ kept => ?_
    refine Outcome.keeps_andThen (·.stops = ledger.stops)
      (Outcome.keeps_change (·.stops = ledger.stops) kept fun _ filled => (stops_fill filled).trans kept)
      fun _ _ kept => ?_
    refine Outcome.keeps_andThen (·.stops = ledger.stops)
      (Outcome.keeps_change (·.stops = ledger.stops) kept fun _ retired =>
        (stops_retire retired).trans kept) fun _ _ kept => ?_
    exact Outcome.keeps_change (·.stops = ledger.stops) kept fun _ retired =>
      (stops_retire retired).trans kept

theorem stops_sweep (ledger : Ledger) (taker : OrderId) : (ledger.sweep taker).ledger.stops = ledger.stops := by
  fun_induction sweep ledger taker with
  | case1 => rfl
  | case2 => rfl
  | case3 ledger trade _ next events fault applied =>
    have kept := stops_apply ledger trade
    rw [applied] at kept
    exact kept
  | case4 ledger trade _ next events applied ih =>
    have kept := stops_apply ledger trade
    rw [applied] at kept
    exact ih.trans kept

private theorem stops_discard (ledger : Ledger) (id : OrderId) (order : Order) :
    (ledger.discard id order).stops = ledger.stops := stops_put _ _ _

theorem stops_settle (ledger : Ledger) (id : OrderId) : (ledger.settle id).ledger.stops = ledger.stops := by
  unfold settle
  split
  · rfl
  split
  · rfl
  split
  · rfl
  · exact stops_discard _ _ _

theorem stops_execute (ledger : Ledger) (id : OrderId) : (ledger.execute id).ledger.stops = ledger.stops :=
  Outcome.keeps_andThen (·.stops = ledger.stops) (stops_sweep ledger id)
    fun next _ kept => (stops_settle next id).trans kept

end LimitBook.Ledger
