import LimitBook.Error
import LimitBook.Event

/-! Ledgers: the records of all orders and the three indexes over those that are open. A record is
found by its admission number and is never removed. -/
namespace LimitBook

@[ext] structure Ledger where
  /-- The records; order number `n` stands at place `n - 1`. -/
  orders : Array Order
  bids : PriceIndex
  asks : PriceIndex
  stops : PriceIndex
  nextId : OrderId
  cancelled : SortedSet OrderId
  lastPrice : Option Price

namespace Ledger

def empty : Ledger where
  orders := #[]
  bids := .empty
  asks := .empty
  stops := .empty
  nextId := .first
  cancelled := .empty
  lastPrice := none

def get? (ledger : Ledger) (id : OrderId) : Option Order :=
  if id.number = 0 then none else ledger.orders[id.number - 1]?

def find (ledger : Ledger) (id : OrderId) : Except Fault Order :=
  match ledger.get? id with
  | some order => .ok order
  | none => .error (.unknownOrder id)

def put (ledger : Ledger) (id : OrderId) (order : Order) : Ledger :=
  if id.number = 0 then ledger
  else { ledger with orders := ledger.orders.setIfInBounds (id.number - 1) order }

def store (ledger : Ledger) (order : Order) : Ledger :=
  { ledger with
    orders := ledger.orders.push { order with id := ledger.nextId }
    nextId := ledger.nextId.next }

def index (ledger : Ledger) : IndexKind → PriceIndex
  | .bids => ledger.bids
  | .asks => ledger.asks
  | .stops => ledger.stops

def setIndex (ledger : Ledger) (kind : IndexKind) (index : PriceIndex) : Ledger :=
  match kind with
  | .bids => { ledger with bids := index }
  | .asks => { ledger with asks := index }
  | .stops => { ledger with stops := index }

def enter (ledger : Ledger) (kind : IndexKind) (entry : Entry) : Ledger :=
  ledger.setIndex kind ((ledger.index kind).insert entry)

def leave (ledger : Ledger) (kind : IndexKind) (entry : Entry) : Except Fault Ledger :=
  match (ledger.index kind).remove? entry with
  | some index => .ok (ledger.setIndex kind index)
  | none => .error (.missingEntry entry kind)

def fill (ledger : Ledger) (id : OrderId) (volume : Volume) : Except Fault Ledger := do
  let order ← ledger.find id
  match order.fill? volume with
  | some filled => return ledger.put id filled
  | none => throw (.unabsorbedFill id volume)

def discard (ledger : Ledger) (id : OrderId) (order : Order) : Ledger :=
  let marked := ledger.put id { order with cancelled := true }
  { marked with cancelled := marked.cancelled.insert id }

def openUnits (ledger : Ledger) : Nat :=
  ledger.orders.toList.foldr (fun order total => order.remaining.units + total) 0

theorem get?_of_find {ledger : Ledger} {id : OrderId} {order : Order} (found : ledger.find id = .ok order) :
    ledger.get? id = some order := by
  unfold find at found
  split at found
  · rename_i stored
    rw [stored, Except.ok.inj found]
  · cases found

/-- An index that was left held the entry, and has lost nothing else. -/
theorem eq_of_leave {ledger next : Ledger} {kind : IndexKind} {entry : Entry}
    (left : ledger.leave kind entry = .ok next) :
    entry ∈ ledger.index kind ∧ next = ledger.setIndex kind ((ledger.index kind).erase entry) := by
  unfold leave PriceIndex.remove? at left
  split at left
  · rename_i removed
    split at removed
    · rename_i member
      exact ⟨member, by rw [← Except.ok.inj left, ← Option.some.inj removed]⟩
    · cases removed
  · cases left

/-- A fill that was taken replaced one record by what the fill left of it. -/
theorem eq_of_fill {ledger next : Ledger} {id : OrderId} {volume : Volume}
    (filled : ledger.fill id volume = .ok next) :
    ∃ order rest, ledger.get? id = some order ∧ order.fill? volume = some rest ∧ next = ledger.put id rest := by
  unfold fill at filled
  cases found : ledger.find id with
  | error fault => simp [found, bind, Except.bind] at filled
  | ok order =>
    simp only [found, bind, Except.bind] at filled
    split at filled
    · rename_i rest taken
      exact ⟨order, rest, get?_of_find found, taken, (Except.ok.inj filled).symm⟩
    · cases filled

end Ledger

end LimitBook
