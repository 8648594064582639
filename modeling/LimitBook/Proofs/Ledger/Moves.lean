import LimitBook.Proofs.Ledger.Admission
import LimitBook.Proofs.Ledger.Offers

/-! Moves: everything a book does to its ledger, one event at a time, with the order in flight before and
after. Whatever each move keeps is kept by every history. -/
namespace LimitBook

namespace Event

def effects (events : List Event) (order : Order) : Order :=
  events.foldl (fun record event => event.effect record) order

def prices (events : List Event) (last : Option Price) : Option Price :=
  events.foldl (fun price event => event.price price) last

def trade? : Event → Option Trade
  | .matched trade => some trade
  | _ => none

def trades (events : List Event) : List Trade := events.filterMap trade?

@[simp] theorem trades_nil : trades [] = [] := rfl

@[simp] theorem trades_append (events more : List Event) : trades (events ++ more) = trades events ++ trades more :=
  List.filterMap_append

theorem effects_append (events more : List Event) (order : Order) :
    effects (events ++ more) order = effects more (effects events order) := List.foldl_append

theorem prices_append (events more : List Event) (last : Option Price) :
    prices (events ++ more) last = prices more (prices events last) := List.foldl_append

@[simp] theorem trades_matched (trades : List Trade) : Event.trades (trades.map .matched) = trades := by
  simp [Event.trades, List.filterMap_map, Function.comp_def, trade?]

@[simp] theorem trades_halted (reasons : List String) : Event.trades (reasons.map .halted) = [] := by
  simp [Event.trades, List.filterMap_map, Function.comp_def, trade?]

/-- Only trades have a price, and the latest price remains. -/
theorem prices_eq (events : List Event) (last : Option Price) :
    prices events last = ((trades events).getLast?.map Trade.price).or last := by
  induction events generalizing last with
  | nil => rfl
  | cons event rest ih =>
    change prices rest (event.price last) = _
    rw [ih]
    cases event with
    | matched trade =>
      change _ = (Option.map Trade.price (trade :: trades rest).getLast?).or last
      rw [List.getLast?_cons]
      cases (trades rest).getLast? <;> rfl
    | _ => rfl

end Event

namespace Ledger

/-- One step of a ledger with its events. The second and the last argument are the order in flight. -/
inductive Move (config : Config) : Ledger → Option OrderId → List Event → Ledger → Option OrderId → Prop
  | enrol {ledger : Ledger} {order : Order} (room : ledger.orders.size + 1 < 0x1_0000_0000_0000_0000)
      (admissible : order.Admissible config) :
      Move config ledger none [.accepted ledger.nextId] (ledger.admitted order)
        (if order.isActive then some ledger.nextId else none)
  | park {ledger : Ledger} {id : OrderId} {stop : Order} {trigger : Price} (found : ledger.get? id = some stop)
      (pending : stop.isPending = true) (given : stop.triggerPrice = some trigger) :
      Move config ledger none [.stopPending id trigger] ledger none
  | trade {ledger : Ledger} {trade : Trade} {taker maker : Order} {side : Side}
      (fair : ledger.Fair trade taker maker side) (best : ledger.bestTrade trade.taker = .ok (some trade)) :
      Move config ledger (some trade.taker) [.matched trade] (ledger.exchanged trade taker maker) (some trade.taker)
  | close {ledger : Ledger} {id : OrderId} {order : Order} (found : ledger.get? id = some order)
      (exhausted : order.executed = true) : Move config ledger (some id) [] ledger none
  | rest {ledger : Ledger} {id : OrderId} {order : Order} {side : Side} {price : Price}
      (found : ledger.get? id = some order) (active : order.isActive = true)
      (idle : ledger.bestTrade id = .ok none) (sided : order.side = some side)
      (limited : order.limitPrice = some price) :
      Move config ledger (some id) [.rested id side price order.remaining] ledger none
  | discard {ledger : Ledger} {id : OrderId} {order : Order} (found : ledger.get? id = some order)
      (active : order.isActive = true) (idle : ledger.bestTrade id = .ok none) (unlimited : order.limitPrice = none) :
      Move config ledger (some id) [.cancelled id .unfilledMarket] ((ledger.delist order).discard id order) none
  | trigger {ledger : Ledger} {id : OrderId} {stop : Order} {price : Price} (found : ledger.get? id = some stop)
      (pending : stop.isPending = true) (crossed : stop.isTriggeredBy price = true) :
      Move config ledger none [.stopTriggered id price] (ledger.promoted id stop) (some id)
  | withdraw {ledger : Ledger} {id target : OrderId} {order : Order} (found : ledger.get? target = some order)
      (withdrawable : isWithdrawable id order = true) :
      Move config ledger none [.cancelled target .requested] ((ledger.delist order).discard target order) none
  | ignore {ledger : Ledger} {id target : OrderId}
      (closed : (ledger.get? target).filter (isWithdrawable id) = none) :
      Move config ledger none [.cancelIgnored id target] ledger none
  | reject {ledger : Ledger} {order : Order} (refused : ¬ order.Admissible config) (reason : String) :
      Move config ledger none [.rejected reason] ledger none

inductive Moves (config : Config) : Ledger → Option OrderId → List Event → Ledger → Option OrderId → Prop
  | refl {ledger : Ledger} {carried : Option OrderId} : Moves config ledger carried [] ledger carried
  | tail {ledger middle next : Ledger} {before during later : Option OrderId} {events more : List Event}
      (moves : Moves config ledger before events middle during) (move : Move config middle during more next later) :
      Moves config ledger before (events ++ more) next later

variable {config : Config} {ledger middle next : Ledger} {before during later : Option OrderId}
  {events more : List Event}

theorem Moves.single (move : Move config ledger before events next later) :
    Moves config ledger before events next later :=
  .tail .refl move

theorem Moves.trans (moves : Moves config ledger before events middle during)
    (others : Moves config middle during more next later) : Moves config ledger before (events ++ more) next later := by
  induction others with
  | refl =>
    rw [List.append_nil]
    exact moves
  | tail _ move ih =>
    rw [← List.append_assoc]
    exact .tail (ih moves) move

theorem isWithdrawable_iff {id : OrderId} {order : Order} : isWithdrawable id order = true ↔ order.id < id
    ∧ order.isCancel = false ∧ order.executed = false ∧ order.cancelled = false := by
  simp [isWithdrawable, and_assoc]

namespace Move

/-- Every move but an admission rewrites the records as its events say. -/
theorem revises (move : Move config ledger before events next later) (coherent : ledger.Coherent before) :
    (∃ order, order.Admissible config ∧ ledger.orders.size + 1 < 0x1_0000_0000_0000_0000
        ∧ events = [.accepted ledger.nextId] ∧ next = ledger.admitted order)
      ∨ ledger.Revises (Event.effects events) (Event.prices events ledger.lastPrice) next := by
  cases move with
  | enrol room admissible => exact .inl ⟨_, admissible, room, rfl, rfl⟩
  | park => exact .inr coherent.revises_id
  | trade fair => exact .inr (fair.revises coherent)
  | close => exact .inr coherent.revises_id
  | rest => exact .inr coherent.revises_id
  | discard found => exact .inr (discard_revises coherent found .unfilledMarket)
  | @trigger _ _ price found _ _ => exact .inr (promoted_revises coherent found price)
  | withdraw found => exact .inr (discard_revises coherent found .requested)
  | ignore => exact .inr coherent.revises_id
  | reject => exact .inr coherent.revises_id

private theorem landed {id : OrderId} {order : Order} (coherent : ledger.Coherent (some id))
    (found : ledger.get? id = some order) (settled : order.isActive = true → order.limitPrice ≠ none) :
    ledger.Coherent none where
  numbered := coherent.numbered
  bounded := coherent.bounded
  counted := coherent.counted
  regular := coherent.regular
  listed := coherent.listed
  withdrawn := coherent.withdrawn
  limited := by
    intro other record stored active unlimited
    -- Without a limit and active it can only be the order in flight, which is `order`.
    have same := Option.some.inj (coherent.limited stored active unlimited)
    subst same
    obtain rfl := Option.some.inj (found.symm.trans stored)
    exact absurd unlimited (settled active)

theorem coherent (move : Move config ledger before events next later) (coherent : ledger.Coherent before) :
    next.Coherent later := by
  cases move with
  | enrol room admissible => exact coherent_admitted coherent room admissible
  | park => exact coherent
  | trade fair => exact fair.coherent_exchanged coherent
  | close found exhausted =>
    refine landed coherent found fun active => ?_
    rw [(Order.isActive_iff.mp active).2.1] at exhausted
    cases exhausted
  | rest found _ _ _ limited => exact landed coherent found fun _ => by simp [limited]
  | discard found active =>
    obtain ⟨-, unfilled, trades, -⟩ := Order.isActive_iff.mp active
    exact coherent_discard coherent found trades unfilled fun _ same => (Option.some.inj same).symm
  | trigger found pending => exact coherent_promoted coherent found pending
  | withdraw found withdrawable =>
    obtain ⟨-, trades, unfilled, -⟩ := isWithdrawable_iff.mp withdrawable
    exact coherent_discard coherent found trades unfilled nofun
  | ignore => exact coherent
  | reject => exact coherent

end Move

theorem Moves.coherent (moves : Moves config ledger before events next later) (coherent : ledger.Coherent before) :
    next.Coherent later := by
  induction moves with
  | refl => exact coherent
  | tail _ move ih => exact move.coherent (ih coherent)

theorem Moves.revises (moves : Moves config ledger before events next later) (coherent : ledger.Coherent before)
    (settled : ∀ id, Event.accepted id ∉ events) :
    ledger.Revises (Event.effects events) (Event.prices events ledger.lastPrice) next := by
  induction moves with
  | refl => exact coherent.revises_id
  | tail moves move ih =>
    have first := ih coherent fun id member => settled id (List.mem_append_left _ member)
    rcases move.revises (moves.coherent coherent) with ⟨_, _, _, rfl, _⟩ | second
    · exact absurd (List.mem_append_right _ List.mem_cons_self) (settled _)
    · have both := first.trans second
      rw [first.lastPrice, ← Event.prices_append] at both
      exact both.congr fun _ => Event.effects_append ..

private theorem Move.lastPrice_eq (move : Move config ledger before events next later)
    (coherent : ledger.Coherent before) :
    next.lastPrice = Event.prices events ledger.lastPrice := by
  rcases move.revises coherent with ⟨order, -, -, rfl, rfl⟩ | revises
  · rw [admitted, lastPrice_enlist, lastPrice_store]
    rfl
  · exact revises.lastPrice

theorem Moves.lastPrice_eq (moves : Moves config ledger before events next later) (coherent : ledger.Coherent before) :
    next.lastPrice = Event.prices events ledger.lastPrice := by
  induction moves with
  | refl => rfl
  | tail moves move ih => rw [move.lastPrice_eq (moves.coherent coherent), ih coherent, Event.prices_append]

end Ledger

structure Order.GoesOn (earlier later : Order) : Prop where
  sameId : later.id = earlier.id
  sameSide : later.side = earlier.side
  sameKind : later.kind = earlier.kind
  sameVolume : later.volume = earlier.volume
  remaining : later.remaining ≤ earlier.remaining
  cancelled : earlier.cancelled = true → later.cancelled = true
  executed : earlier.executed = true → later.executed = true
  triggered : earlier.triggered = true → later.triggered = true

namespace Order.GoesOn
variable {first second third : Order}

theorem refl (order : Order) : order.GoesOn order :=
  ⟨rfl, rfl, rfl, rfl, Nat.le_refl _, fun kept => kept, fun kept => kept, fun kept => kept⟩

theorem trans (one : first.GoesOn second) (two : second.GoesOn third) : first.GoesOn third where
  sameId := two.sameId.trans one.sameId
  sameSide := two.sameSide.trans one.sameSide
  sameKind := two.sameKind.trans one.sameKind
  sameVolume := two.sameVolume.trans one.sameVolume
  remaining := Nat.le_trans two.remaining one.remaining
  cancelled := two.cancelled ∘ one.cancelled
  executed := two.executed ∘ one.executed
  triggered := two.triggered ∘ one.triggered

theorem isStop_eq (goesOn : first.GoesOn second) : second.isStop = first.isStop := by
  unfold isStop
  rw [goesOn.sameKind]

/-- Only a pending order can go on as a pending one. -/
theorem isPending (goesOn : first.GoesOn second) (pending : second.isPending = true) : first.isPending = true := by
  obtain ⟨stop, waiting, live⟩ := isPending_iff.mp pending
  apply isPending_iff.mpr
  refine ⟨goesOn.isStop_eq.symm.trans stop, ?_, ?_⟩
  · rw [← Bool.not_eq_true] at waiting ⊢
    exact mt goesOn.triggered waiting
  · rw [← Bool.not_eq_true] at live ⊢
    exact mt goesOn.cancelled live

theorem not_isPending (goesOn : first.GoesOn second) (settled : first.isPending = false) :
    second.isPending = false := by
  rw [← Bool.not_eq_true] at settled ⊢
  exact mt goesOn.isPending settled

theorem isTriggeredBy_eq (goesOn : first.GoesOn second) (price : Price) :
    second.isTriggeredBy price = first.isTriggeredBy price := by
  unfold isTriggeredBy triggerPrice
  rw [goesOn.sameKind, goesOn.sameSide]

theorem isCancel_eq (goesOn : first.GoesOn second) : second.isCancel = first.isCancel := by
  unfold isCancel
  rw [goesOn.sameKind]

theorem take (order : Order) (volume : Volume) : order.GoesOn (order.take volume) := by
  refine ⟨rfl, rfl, rfl, rfl, ?_, fun kept => kept, ?_, fun kept => kept⟩
  · rw [Volume.le_iff_units]
    exact Nat.sub_le _ _
  · intro executed
    simp [Order.take, executed]

theorem fire (order : Order) : order.GoesOn order.fire :=
  ⟨rfl, rfl, rfl, rfl, Nat.le_refl _, fun kept => kept, fun kept => kept, fun _ => rfl⟩

theorem withdraw (order : Order) : order.GoesOn order.withdraw :=
  ⟨rfl, rfl, rfl, rfl, Nat.le_refl _, fun _ => rfl, fun kept => kept, fun kept => kept⟩

theorem effect (event : Event) (order : Order) : order.GoesOn (event.effect order) := by
  unfold Event.effect
  split
  · split
    · exact take order _
    · exact refl order
  · split
    · exact fire order
    · exact refl order
  · split
    · exact withdraw order
    · exact refl order
  · exact refl order

theorem effects (events : List Event) (order : Order) : order.GoesOn (Event.effects events order) := by
  induction events generalizing order with
  | nil => exact refl order
  | cons event rest ih => exact (effect event order).trans (ih _)

end Order.GoesOn

namespace Ledger
variable {config : Config} {ledger next : Ledger} {before later : Option OrderId} {events : List Event}
  {id : OrderId} {order : Order}

/-- A record that there was is afterwards what the events make of it. -/
theorem Move.get?_eq_effects (move : Move config ledger before events next later) (coherent : ledger.Coherent before)
    (found : ledger.get? id = some order) : next.get? id = some (Event.effects events order) := by
  rcases move.revises coherent with ⟨new, admissible, room, rfl, rfl⟩ | revises
  · exact coherent.get?_admitted_of_some room found
  · rw [revises.records, found]
    rfl

theorem Move.goesOn (move : Move config ledger before events next later) (coherent : ledger.Coherent before)
    (found : ledger.get? id = some order) : ∃ record, next.get? id = some record ∧ order.GoesOn record :=
  ⟨_, move.get?_eq_effects coherent found, .effects events order⟩

/-- Records are never lost, and nothing done to them is undone. -/
theorem Moves.goesOn (moves : Moves config ledger before events next later) (coherent : ledger.Coherent before)
    (found : ledger.get? id = some order) : ∃ record, next.get? id = some record ∧ order.GoesOn record := by
  induction moves with
  | refl => exact ⟨order, found, .refl order⟩
  | tail moves move ih =>
    obtain ⟨record, stored, first⟩ := ih coherent
    obtain ⟨last, there, second⟩ := move.goesOn (moves.coherent coherent) stored
    exact ⟨last, there, first.trans second⟩

def Rooted (config : Config) (ledger : Ledger) : Prop :=
  ∀ id record, ledger.get? id = some record →
    ∃ order : Order, order.Admissible config ∧ (order.numbered id).GoesOn record

theorem Move.rooted (move : Move config ledger before events next later) (coherent : ledger.Coherent before)
    (rooted : ledger.Rooted config) : next.Rooted config := by
  intro id record stored
  rcases move.revises coherent with ⟨new, admissible, room, rfl, rfl⟩ | revises
  · rw [coherent.get?_admitted room] at stored
    split at stored
    · rename_i fresh
      subst fresh
      obtain rfl := Option.some.inj stored
      exact ⟨new, admissible, .refl _⟩
    · exact rooted id record stored
  · rw [revises.records] at stored
    obtain ⟨old, found, rfl⟩ := Option.map_eq_some_iff.mp stored
    obtain ⟨order, admissible, goesOn⟩ := rooted id old found
    exact ⟨order, admissible, goesOn.trans (.effects events old)⟩

theorem Moves.rooted (moves : Moves config ledger before events next later) (coherent : ledger.Coherent before)
    (rooted : ledger.Rooted config) : next.Rooted config := by
  induction moves with
  | refl => exact rooted
  | tail moves move ih => exact move.rooted (moves.coherent coherent) (ih coherent)

theorem Rooted.quotes_of_mem_prices (rooted : ledger.Rooted config) {record : Order} {price : Price}
    (found : ledger.get? id = some record) (carried : price ∈ record.kind.prices) : config.Quotes price := by
  obtain ⟨order, admissible, goesOn⟩ := rooted id record found
  rw [goesOn.sameKind] at carried
  exact admissible.quotes carried

/-- What an index lists is a price that an admitted order carries. -/
theorem Rooted.quotes (rooted : ledger.Rooted config) {carried : Option OrderId} (coherent : ledger.Coherent carried)
    {kind : IndexKind} {entry : Entry} (listed : entry ∈ ledger.index kind) : config.Quotes entry.price := by
  obtain ⟨record, found, placed⟩ := coherent.listed.mp listed
  apply rooted.quotes_of_mem_prices found
  rcases Order.place_cases placed with ⟨-, -, given⟩ | ⟨side, -, -, -, limited⟩
  · exact OrderKind.mem_prices_iff.mpr (.inr given)
  · exact OrderKind.mem_prices_iff.mpr (.inl limited)

theorem rooted_empty : empty.Rooted config := by
  simp [Rooted, get?, empty]

end Ledger
end LimitBook
