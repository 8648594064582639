import LimitBook.Outcome

/-! Applying a trade: both records are checked before either is changed, then both are filled and
those that are exhausted leave their indexes. -/
namespace LimitBook.Ledger

structure Ends where
  taker : Order
  takerSide : Side
  maker : Order
  makerSide : Side

def ends (ledger : Ledger) (trade : Trade) : Except Fault Ends := do
  let taker ← ledger.find trade.taker
  let maker ← ledger.find trade.maker
  if trade.volume = 0 then throw (.emptyTrade trade.taker trade.maker)
  if taker.remaining < trade.volume ∨ maker.remaining < trade.volume then
    throw (.excessTrade trade.volume taker.id taker.remaining maker.id maker.remaining)
  match taker.side, maker.side with
  | some takerSide, some makerSide =>
    if takerSide = makerSide then throw (.oneSidedTrade taker.id maker.id takerSide)
    match taker.limitPrice with
    | some limit =>
      if takerSide.within limit trade.price then return ⟨taker, takerSide, maker, makerSide⟩
      else throw (.limitBroken taker.id limit trade.price)
    | none => return ⟨taker, takerSide, maker, makerSide⟩
  | _, _ => throw .sidelessTrade

/-- Takes an exhausted order out of the index where its limit put it. One without a limit is in no
index; `rested` says that it has to be in one. -/
def retire (ledger : Ledger) (id : OrderId) (side : Side) (limit : Option Price) (rested : Bool) :
    Except Fault Ledger := do
  let order ← ledger.find id
  if order.executed then
    match limit with
    | some price => ledger.leave side.indexKind ⟨price, id⟩
    | none => if rested then throw (.unlimitedMaker id) else return ledger
  else return ledger

theorem eq_or_leave_of_retire {ledger next : Ledger} {id : OrderId} {side : Side} {limit : Option Price}
    {rested : Bool} (retired : ledger.retire id side limit rested = .ok next) :
    next = ledger ∨ ∃ price, limit = some price ∧ ledger.leave side.indexKind ⟨price, id⟩ = .ok next := by
  unfold retire at retired
  cases found : ledger.find id with
  | error fault => simp [found, bind, Except.bind] at retired
  | ok order =>
    simp only [found, bind, Except.bind] at retired
    split at retired
    · split at retired
      · exact .inr ⟨_, rfl, retired⟩
      · split at retired
        · cases retired
        · exact .inl (Except.ok.inj retired).symm
    · exact .inl (Except.ok.inj retired).symm

def apply (ledger : Ledger) (trade : Trade) : Outcome Unit :=
  match ledger.ends trade with
  | .error fault => .failed ledger fault
  | .ok ends =>
    (Outcome.change ledger (ledger.fill trade.taker trade.volume)).andThen fun ledger _ =>
    (Outcome.change ledger (ledger.fill trade.maker trade.volume)).andThen fun ledger _ =>
    let ledger := { ledger with lastPrice := some trade.price }
    (Outcome.change ledger
      (ledger.retire trade.maker ends.makerSide ends.maker.limitPrice true)).andThen fun ledger _ =>
    Outcome.change ledger (ledger.retire trade.taker ends.takerSide ends.taker.limitPrice false)

end LimitBook.Ledger
