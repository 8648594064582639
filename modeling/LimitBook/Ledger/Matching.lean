import LimitBook.Ledger.Progress

/-! Matching by price and age: an order trades with the best order on the other side, again and
again, until it is exhausted or nobody is left who meets its limit. -/
namespace LimitBook

def Order.tradeWith? (taker maker : Order) (price : Price) : Option Trade :=
  match taker.side, maker.side with
  | some takerSide, some makerSide =>
    let volume := min taker.remaining maker.remaining
    if takerSide = makerSide || taker.isCancel || maker.isCancel then none
    else if maker.isStop && !maker.triggered then none
    else if taker.limitPrice.any (fun limit => !takerSide.within limit price) then none
    else if volume = 0 then none
    else some ⟨taker.id, maker.id, volume, price⟩
  | _, _ => none

/-- Which of two trades a taker on a side prefers: the better price, then the older maker. The
preferred one is the lesser. -/
def Trade.rank (side : Side) (left right : Trade) : Ordering :=
  let byPrice := match side with
    | .buy => compare left.price right.price
    | .sell => compare right.price left.price
  byPrice.then (compare left.maker.number right.maker.number)

def Trade.best? (side : Side) (trades : List Trade) : Option Trade :=
  trades.foldl (fun best candidate =>
    match best with
    | some current => if Trade.rank side current candidate = .gt then some candidate else some current
    | none => some candidate) none

namespace Ledger

def confirm (ledger : Ledger) (entry : Entry) : Except Fault (Entry × Order) := do
  let order ← ledger.find entry.id
  if order.isActive && order.limitPrice = some entry.price then return (entry, order)
  else throw (.staleEntry entry order)

def bestTrade (ledger : Ledger) (taker : OrderId) : Except Fault (Option Trade) := do
  let order ← ledger.find taker
  if !order.isActive || order.remaining = 0 then return none
  match order.side with
  | none => throw (.sidelessTaker taker)
  | some side =>
    let candidates := (ledger.index side.opposite.indexKind).atOrBetter order.limitPrice (side = .sell)
    let makers ← candidates.mapM ledger.confirm
    return Trade.best? side (makers.filterMap fun (entry, maker) => order.tradeWith? maker entry.price)

def sweep (ledger : Ledger) (taker : OrderId) : Outcome (List Trade) :=
  match ledger.bestTrade taker with
  | .error fault => .failed ledger fault
  | .ok none => .done ledger []
  | .ok (some trade) =>
    match _ : ledger.apply trade with
    | ⟨next, events, .error fault⟩ => ⟨next, events, .error fault⟩
    | ⟨next, events, .ok ()⟩ => ((next.sweep taker).map (trade :: ·)).after (events ++ [.matched trade])
termination_by ledger.openUnits
decreasing_by exact openUnits_lt_of_apply ⟨congrArg Outcome.ledger ‹_›, congrArg Outcome.answer ‹_›⟩

theorem spends_sweep (ledger : Ledger) (taker : OrderId) : (ledger.sweep taker).Spends ledger := by
  fun_induction sweep ledger taker with
  | case1 => exact fun _ _ reaches => absurd reaches Outcome.not_reaches_failed
  | case2 =>
    intro next trades reaches
    obtain ⟨rfl, rfl⟩ := Outcome.reaches_done.mp reaches
    exact Nat.le_refl _
  | case3 ledger trade _ next events fault applied =>
    rintro _ _ ⟨-, answered⟩
    cases answered
  | case4 ledger trade _ next events applied ih =>
    intro last trades reaches
    obtain ⟨rest, reached, rfl⟩ := Outcome.reaches_map.mp (Outcome.reaches_after.mp reaches)
    have spent : next.openUnits < ledger.openUnits :=
      openUnits_lt_of_apply ⟨congrArg Outcome.ledger applied, congrArg Outcome.answer applied⟩
    have later := ih _ _ reached
    rw [List.length_cons]
    omega

end Ledger
end LimitBook
