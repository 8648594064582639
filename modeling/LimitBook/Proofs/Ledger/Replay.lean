import LimitBook.Proofs.Ledger.Acceptance

/-! Replays. Events, read over the orders that were given to a book, say all that its ledger says, but for what the
records decide: the indexes and the next number. -/
namespace LimitBook

def Order.isLive (order : Order) : Bool := !order.isCancel && !order.executed && !order.cancelled

structure Replay where
  /-- The orders of which no event has told yet whether they were accepted. -/
  waiting : List Order
  /-- The accepted orders as they stand, order number `n` at place `n - 1`. -/
  records : List Order
  cancelled : SortedSet OrderId
  lastPrice : Option Price

namespace Replay

def start (orders : List Order) : Replay := ⟨orders, [], .empty, none⟩

def step (replay : Replay) (event : Event) : Replay :=
  match event, replay.waiting with
  | .accepted id, order :: rest => { replay with waiting := rest, records := replay.records ++ [order.numbered id] }
  | .rejected _, _ :: rest => { replay with waiting := rest }
  | .matched trade, _ =>
    { replay with
      records := replay.records.map (Event.matched trade).effect
      lastPrice := some trade.price }
  | .stopTriggered id price, _ => { replay with records := replay.records.map (Event.stopTriggered id price).effect }
  | .cancelled id reason, _ =>
    { replay with
      records := replay.records.map (Event.cancelled id reason).effect
      cancelled := replay.cancelled.insert id }
  | _, _ => replay

def run (replay : Replay) (events : List Event) : Replay := events.foldl step replay

def find? (replay : Replay) (id : OrderId) : Option Order :=
  if id.number = 0 then none else replay.records[id.number - 1]?

def Shows (replay : Replay) : Event → Prop
  | .accepted id => replay.waiting ≠ [] ∧ id.number = replay.records.length + 1
  | .rejected _ => replay.waiting ≠ []
  | .rested id side price remaining => ∃ order, replay.find? id = some order
    ∧ order.side = some side ∧ order.limitPrice = some price ∧ order.remaining = remaining
  | .stopPending id trigger => ∃ order, replay.find? id = some order
    ∧ order.isPending = true ∧ order.triggerPrice = some trigger
  | .matched trade => trade.taker ≠ trade.maker
    ∧ (∃ order, replay.find? trade.taker = some order ∧ order.isLive = true ∧ trade.volume ≤ order.remaining)
    ∧ ∃ order, replay.find? trade.maker = some order ∧ order.isLive = true ∧ trade.volume ≤ order.remaining
  | .stopTriggered id price => ∃ order, replay.find? id = some order
    ∧ order.isPending = true ∧ order.isTriggeredBy price = true
  | .cancelled id _ => ∃ order, replay.find? id = some order ∧ order.isLive = true
  | .cancelIgnored _ target => ∀ order, replay.find? target = some order → order.isLive = false
  | .halted _ => True

def Consistent (replay : Replay) (events : List Event) : Prop :=
  ∀ earlier event later, events = earlier ++ event :: later → (replay.run earlier).Shows event

variable {replay : Replay} {event : Event} {events more : List Event}

theorem run_append (replay : Replay) (events more : List Event) :
    replay.run (events ++ more) = (replay.run events).run more :=
  List.foldl_append

theorem consistent_nil (replay : Replay) : replay.Consistent [] := by
  intro earlier event later split
  simp at split

theorem consistent_singleton (shown : replay.Shows event) : replay.Consistent [event] := by
  intro earlier other later split
  cases earlier with
  | nil =>
    obtain ⟨rfl, -⟩ := List.cons.inj split
    exact shown
  | cons head rest => simp at split

theorem Consistent.append (first : replay.Consistent events) (second : (replay.run events).Consistent more) :
    replay.Consistent (events ++ more) := by
  intro earlier event later split
  rcases List.append_eq_append_iff.mp split with ⟨middle, rfl, inside⟩ | ⟨middle, inside, rest⟩
  · rw [run_append]
    exact second middle event later inside
  · match middle, inside, rest with
    | [], inside, rest =>
      rw [List.append_nil] at inside
      subst inside
      exact second [] event later rest.symm
    | _ :: between, inside, rest =>
      obtain ⟨rfl, -⟩ := List.cons.inj rest
      exact first earlier _ between inside

def picture (ledger : Ledger) (waiting : List Order) : Replay :=
  ⟨waiting, ledger.orders.toList, ledger.cancelled, ledger.lastPrice⟩

@[simp] theorem find?_picture (ledger : Ledger) (waiting : List Order) (id : OrderId) :
    (picture ledger waiting).find? id = ledger.get? id := by
  unfold find? Ledger.get? picture
  rw [Array.getElem?_toList]

end Replay

theorem Order.isLive_of_isActive {order : Order} (active : order.isActive = true) : order.isLive = true := by
  obtain ⟨live, unfilled, trades, -⟩ := isActive_iff.mp active
  simp [isLive, live, unfilled, trades]

def Event.isRecorded : Event → Bool
  | .accepted _ | .rejected _ | .cancelIgnored _ _ | .halted _ => false
  | _ => true

theorem Turn.isRecorded {turn : Turn} : ∀ event ∈ turn.events, event.isRecorded = true := by
  intro event member
  rcases List.mem_append.mp member with traded | landed
  · obtain ⟨trade, -, rfl⟩ := List.mem_map.mp traded
    rfl
  · cases landing : turn.landing with
    | exhausted => simp [landing, Landing.events] at landed
    | rested side price remaining =>
      rw [landing] at landed
      obtain rfl := List.mem_singleton.mp landed
      rfl
    | discarded =>
      rw [landing] at landed
      obtain rfl := List.mem_singleton.mp landed
      rfl

theorem Firing.isRecorded {firing : Firing} : ∀ event ∈ firing.events, event.isRecorded = true := by
  intro event member
  rcases List.mem_cons.mp member with rfl | later
  · rfl
  · exact Turn.isRecorded event later

namespace Ledger
open Replay (picture)

variable {config : Config} {ledger next : Ledger} {before later carried : Option OrderId} {events : List Event}
  {order : Order} {id : OrderId} {waiting : List Order}

theorem isWithdrawable_iff_isLive : isWithdrawable id order = true ↔ order.id < id ∧ order.isLive = true := by
  simp [isWithdrawable, Order.isLive, and_assoc]

theorem Revises.toList_orders {change : Order → Order} {last : Option Price} (revises : ledger.Revises change last next)
    (coherent : ledger.Coherent carried) : next.orders.toList = ledger.orders.toList.map change := by
  have bounded := coherent.bounded
  apply List.ext_getElem?
  intro place
  rw [List.getElem?_map, Array.getElem?_toList, Array.getElem?_toList]
  by_cases within : place < ledger.orders.size
  · have number : place + 1 < 0x1_0000_0000_0000_0000 := by omega
    rw [getElem?_orders next number, getElem?_orders ledger number, revises.records]
  · rw [Array.getElem?_eq_none (by rw [revises.size]; omega), Array.getElem?_eq_none (by omega)]
    rfl

section Steps

private theorem step_exchanged {trade : Trade} {taker maker : Order} {side : Side}
    (fair : ledger.Fair trade taker maker side) (coherent : ledger.Coherent carried) :
    (picture ledger waiting).step (.matched trade) = picture (ledger.exchanged trade taker maker) waiting := by
  have records := (fair.revises coherent).toList_orders coherent
  simp only [picture, Replay.step, records, (fair.revises coherent).lastPrice]
  simp [exchanged, filled]

private theorem step_promoted {stop : Order} {price : Price} (coherent : ledger.Coherent carried)
    (found : ledger.get? id = some stop) :
    (picture ledger waiting).step (.stopTriggered id price) = picture (ledger.promoted id stop) waiting := by
  have records := (promoted_revises coherent found price).toList_orders coherent
  simp only [picture, Replay.step, records]
  simp [promoted]

private theorem step_discard {reason : CancelReason} (coherent : ledger.Coherent carried)
    (found : ledger.get? id = some order) :
    (picture ledger waiting).step (.cancelled id reason)
      = picture ((ledger.delist order).discard id order) waiting := by
  have records := (discard_revises coherent found reason).toList_orders coherent
  simp only [picture, Replay.step, records]
  simp [discard]

theorem step_admitted (order : Order) (waiting : List Order) :
    (picture ledger (order :: waiting)).step (.accepted ledger.nextId) = picture (ledger.admitted order) waiting := by
  simp [picture, Replay.step, admitted, store, Order.numbered]

end Steps

/-- What the events of a move say is so, and they say all that the move has done. -/
theorem Move.replays (move : Move config ledger before events next later) (coherent : ledger.Coherent before)
    (recorded : ∀ event ∈ events, event.isRecorded = true) :
    (picture ledger waiting).Consistent events ∧ (picture ledger waiting).run events = picture next waiting := by
  cases move with
  | park found pending given =>
    exact ⟨Replay.consistent_singleton ⟨_, (Replay.find?_picture ..).trans found, pending, given⟩, rfl⟩
  | trade fair best =>
    have takes : (picture ledger waiting).find? _ = _ := (Replay.find?_picture ..).trans fair.takerFound
    have makes : (picture ledger waiting).find? _ = _ := (Replay.find?_picture ..).trans fair.makerFound
    refine ⟨Replay.consistent_singleton ⟨fair.apart.symm, ?_, ?_⟩, step_exchanged fair coherent⟩
    · exact ⟨_, takes, Order.isLive_of_isActive fair.takerActive, fair.volume_le_taker⟩
    · exact ⟨_, makes, Order.isLive_of_isActive fair.makerActive, fair.volume_le_maker⟩
  | close found exhausted => exact ⟨Replay.consistent_nil _, rfl⟩
  | rest found active idle sided limited =>
    exact ⟨Replay.consistent_singleton ⟨_, (Replay.find?_picture ..).trans found, sided, limited, rfl⟩, rfl⟩
  | discard found active =>
    have live := Order.isLive_of_isActive active
    exact ⟨Replay.consistent_singleton ⟨_, (Replay.find?_picture ..).trans found, live⟩, step_discard coherent found⟩
  | trigger found pending crossed =>
    have awaits : (picture ledger waiting).Shows (.stopTriggered _ _) :=
      ⟨_, (Replay.find?_picture ..).trans found, pending, crossed⟩
    exact ⟨Replay.consistent_singleton awaits, step_promoted coherent found⟩
  | withdraw found withdrawable =>
    have live := (isWithdrawable_iff_isLive.mp withdrawable).2
    exact ⟨Replay.consistent_singleton ⟨_, (Replay.find?_picture ..).trans found, live⟩, step_discard coherent found⟩
  | enrol | ignore | reject => cases recorded _ List.mem_cons_self

theorem Moves.replays (moves : Moves config ledger before events next later) (coherent : ledger.Coherent before)
    (recorded : ∀ event ∈ events, event.isRecorded = true) :
    (picture ledger waiting).Consistent events ∧ (picture ledger waiting).run events = picture next waiting := by
  induction moves with
  | refl => exact ⟨Replay.consistent_nil _, rfl⟩
  | tail moves move ih =>
    obtain ⟨first, reached⟩ := ih coherent fun event member => recorded event (List.mem_append_left _ member)
    obtain ⟨second, last⟩ := @Move.replays _ _ _ _ _ _ waiting move (moves.coherent coherent)
      fun event member => recorded event (List.mem_append_right _ member)
    rw [← reached] at second last
    exact ⟨first.append second, by rw [Replay.run_append, last]⟩

/-- A cancel order passes over a target that is not live: an order that the book does not know, one that is closed, or
the cancel order itself. -/
theorem Coherent.not_live_of_ignored (coherent : ledger.Coherent none)
    (room : ledger.orders.size + 1 < 0x1_0000_0000_0000_0000)
    (admissible : order.Admissible config) {target : OrderId} (kind : order.kind = .cancel target)
    (closed : ((ledger.admitted order).get? target).filter (isWithdrawable ledger.nextId) = none) :
    ∀ record, (ledger.admitted order).get? target = some record → record.isLive = false := by
  intro record stored
  rw [← Bool.not_eq_true]
  intro live
  have settled := coherent_admitted coherent room admissible
  have number := number_le_size stored
  rw [size_admitted, ← coherent.number_nextId room] at number
  rw [stored, Option.filter_eq_none_iff] at closed
  by_cases own : target = ledger.nextId
  · rw [coherent.get?_admitted room, if_pos own] at stored
    obtain rfl := Option.some.inj stored
    simp [Order.isLive, Order.isCancel, kind] at live
  · have below : record.id < ledger.nextId := by
      rw [settled.numbered stored, OrderId.lt_iff_number]
      exact lt_of_le_of_ne number fun same => own (OrderId.ext same)
    exact closed record rfl (isWithdrawable_iff_isLive.mpr ⟨below, live⟩)

private theorem carryOut_replays (coherent : ledger.Coherent none)
    (room : ledger.orders.size + 1 < 0x1_0000_0000_0000_0000) (admissible : order.Admissible config)
    (waiting : List Order) :
    (picture (ledger.admitted order) waiting).Consistent
        ((ledger.store order).carryOut ledger.nextId (order.numbered ledger.nextId)).events
      ∧ (picture (ledger.admitted order) waiting).run
          ((ledger.store order).carryOut ledger.nextId (order.numbered ledger.nextId)).events
        = picture ((ledger.store order).carryOut ledger.nextId (order.numbered ledger.nextId)).ledger waiting := by
  have settled := coherent_admitted coherent room admissible
  have carried := carryOut_carries coherent room admissible
  rcases admissible.kind_cases with active | ⟨idle, trigger, limit, kind⟩ | ⟨idle, target, kind⟩
  · apply carried.moves.replays settled
    obtain ⟨own, firings, -, events, -⟩ := accept_of_active coherent room admissible active
    rw [accept_eq coherent room] at events
    have reported : ((ledger.store order).carryOut ledger.nextId (order.numbered ledger.nextId)).events
        = own.events ++ firings.flatMap Firing.events := (List.cons.inj events).2
    rw [reported]
    intro event member
    rcases List.mem_append.mp member with first | later
    · exact Turn.isRecorded event first
    · obtain ⟨firing, -, fired⟩ := List.mem_flatMap.mp later
      exact Firing.isRecorded event fired
  · apply carried.moves.replays settled
    rw [carryOut_of_stop admissible kind]
    intro event member
    obtain rfl := List.mem_singleton.mp member
    rfl
  · rw [idle] at settled
    rw [carryOut_of_cancel admissible kind]
    rcases withdraw_cases settled ledger.nextId target with ⟨closed, passes⟩ | ⟨record, found, withdrawable, withdraws⟩
    · rw [passes]
      refine ⟨Replay.consistent_singleton ?_, rfl⟩
      intro record stored
      rw [Replay.find?_picture] at stored
      exact coherent.not_live_of_ignored room admissible kind closed record stored
    · rw [withdraws]
      have move : Move config (ledger.admitted order) none _ _ none := .withdraw found withdrawable
      apply move.replays settled
      intro event member
      obtain rfl := List.mem_singleton.mp member
      rfl

/-- What the events of a call say is so, and they say all that the call has done. -/
theorem accept_replays (coherent : ledger.Coherent none) (room : ledger.orders.size + 1 < 0x1_0000_0000_0000_0000)
    (admissible : order.Admissible config) (waiting : List Order) :
    (picture ledger (order :: waiting)).Consistent (ledger.accept order).events
      ∧ (picture ledger (order :: waiting)).run (ledger.accept order).events
        = picture (ledger.accept order).ledger waiting := by
  have begun : (picture ledger (order :: waiting)).Consistent [.accepted ledger.nextId] := by
    apply Replay.consistent_singleton
    refine ⟨by simp [picture], ?_⟩
    rw [coherent.number_nextId room]
    rfl
  obtain ⟨consistent, reached⟩ := carryOut_replays coherent room admissible waiting
  rw [← step_admitted] at consistent reached
  rw [accept_eq coherent room]
  exact ⟨begun.append consistent, reached⟩

end Ledger
end LimitBook
