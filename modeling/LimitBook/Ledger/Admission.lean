import LimitBook.Ledger.Stops

/-! Carrying out a new order. It gets its record and number first; then a cancel order withdraws its
target, a stop waits, and any other order is matched, with the stops that its trades fire. -/
namespace LimitBook.Ledger

def isWithdrawable (id : OrderId) (order : Order) : Bool :=
  order.id < id && !order.isCancel && !order.executed && !order.cancelled

def unlist (ledger : Ledger) (id : OrderId) (order : Order) : Except Fault Ledger :=
  match order.triggerPrice, order.triggered, order.side, order.limitPrice with
  | some trigger, false, _, _ => ledger.leave .stops ⟨trigger, id⟩
  | _, _, some side, some limit => ledger.leave side.indexKind ⟨limit, id⟩
  | _, _, _, _ => .ok ledger

def withdraw (ledger : Ledger) (id target : OrderId) : Outcome Unit :=
  match (ledger.get? target).filter (isWithdrawable id) with
  | none => ⟨ledger, [.cancelIgnored id target], .ok ()⟩
  | some order =>
    (Outcome.change ledger (ledger.unlist target order)).andThen fun ledger _ =>
    ⟨ledger.discard target order, [.cancelled target .requested], .ok ()⟩

def list (ledger : Ledger) (id : OrderId) (order : Order) : Ledger :=
  match order.side, order.limitPrice with
  | some side, some limit => ledger.enter side.indexKind ⟨limit, id⟩
  | _, _ => ledger

def trade (ledger : Ledger) (id : OrderId) : Outcome (List Trade) :=
  (ledger.execute id).andThen fun ledger own =>
  (cascade .settling ledger (own.map Trade.price)).map (own ++ ·)

def carryOut (ledger : Ledger) (id : OrderId) (order : Order) : Outcome (List Trade) :=
  match order.kind with
  | .cancel target => (ledger.withdraw id target).map fun _ => []
  | .stop trigger _ => ⟨ledger.enter .stops ⟨trigger, id⟩, [.stopPending id trigger], .ok []⟩
  | .market | .limit _ => (ledger.list id order).trade id

def accept (ledger : Ledger) (order : Order) : Outcome (List Trade) :=
  let id := ledger.nextId
  let stored := ledger.store order
  match stored.find id with
  | .error fault => .failed stored fault
  | .ok order => (stored.carryOut id order).after [.accepted id]

end LimitBook.Ledger
