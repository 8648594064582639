import LimitBook.Ledger.PendingStops
import LimitBook.Proofs.PriceIndex
import LimitBook.Proofs.Ledger.Moves

/-! Runs: matching, settling, cascades and withdrawals are histories of moves. In a coherent ledger none of
them meets a fault, and their answers are the trades of their events. -/
namespace LimitBook.Ledger

structure Carries (config : Config) (ledger : Ledger) (before : Option OrderId) (outcome : Outcome (List Trade))
    (later : Option OrderId) : Prop where
  moves : Moves config ledger before outcome.events outcome.ledger later
  answer : outcome.answer = .ok (Event.trades outcome.events)
  size : outcome.ledger.orders.size = ledger.orders.size

variable {config : Config} {ledger middle next : Ledger} {before during later : Option OrderId}
  {events : List Event} {outcome : Outcome (List Trade)}

namespace Carries

private theorem done {carried : Option OrderId} : Carries config ledger carried (.done ledger []) carried :=
  ⟨.refl, rfl, rfl⟩

private theorem after (moves : Moves config ledger before events middle during) (quiet : Event.trades events = [])
    (size : middle.orders.size = ledger.orders.size) (rest : Carries config middle during outcome later) :
    Carries config ledger before (outcome.after events) later where
  moves := moves.trans rest.moves
  answer := by
    change outcome.answer = _
    rw [rest.answer]
    change _ = Except.ok (Event.trades (events ++ outcome.events))
    rw [Event.trades_append, quiet, List.nil_append]
  size := rest.size.trans size

private theorem prepend {trades : List Trade} (moves : Moves config ledger before events middle during)
    (own : Event.trades events = trades) (size : middle.orders.size = ledger.orders.size)
    (rest : Carries config middle during outcome later) :
    Carries config ledger before ((outcome.map (trades ++ ·)).after events) later where
  moves := moves.trans rest.moves
  answer := by
    change outcome.answer.map _ = Except.ok (Event.trades (events ++ outcome.events))
    rw [rest.answer, Event.trades_append, own]
    rfl
  size := rest.size.trans size

private theorem andThen {onward : Ledger → List Trade → Outcome (List Trade)}
    (first : Carries config ledger before outcome during)
    (rest : Carries config outcome.ledger during (onward outcome.ledger (Event.trades outcome.events)) later) :
    Carries config ledger before (outcome.andThen fun reached own => (onward reached own).map (own ++ ·)) later := by
  rw [Outcome.andThen, first.answer]
  exact prepend first.moves rfl first.size rest

end Carries

def InFlight (ledger : Ledger) (id : OrderId) : Prop :=
  ∃ order side, ledger.get? id = some order ∧ order.side = some side ∧ (order.isActive = true ∨ order.executed = true)

private theorem inFlight_exchanged {trade : Trade} {taker maker : Order} {side : Side} {carried : Option OrderId}
    (coherent : ledger.Coherent carried) (fair : ledger.Fair trade taker maker side) :
    (ledger.exchanged trade taker maker).InFlight trade.taker :=
  ⟨_, side, fair.get?_taker coherent, fair.takerSide, Order.active_or_executed_take fair.takerActive _⟩

variable (config)

/-- Matching meets no fault and ends when there is no trade left for the taker. -/
theorem sweep_carries {taker : OrderId} (coherent : ledger.Coherent (some taker)) (flying : ledger.InFlight taker) :
    Carries config ledger (some taker) (ledger.sweep taker) (some taker)
      ∧ (ledger.sweep taker).ledger.InFlight taker ∧ (ledger.sweep taker).ledger.bestTrade taker = .ok none := by
  fun_induction sweep ledger taker with
  | case1 ledger fault stuck =>
    -- In a coherent ledger the search for a trade meets no fault, and what it finds is fair.
    obtain ⟨order, side, found, sided, -⟩ := flying
    rw [coherent.bestTrade_eq found sided] at stuck
    cases stuck
  | case2 ledger idle => exact ⟨.done, flying, idle⟩
  | case3 ledger trade best next events fault applied =>
    obtain ⟨order, side, found, sided, -⟩ := flying
    obtain ⟨-, maker, fair⟩ := coherent.fair_of_bestTrade found sided best
    rw [fair.apply_eq coherent] at applied
    cases applied
  | case4 ledger trade best next events applied ih =>
    obtain ⟨order, side, found, sided, -⟩ := flying
    obtain ⟨named, maker, fair⟩ := coherent.fair_of_bestTrade found sided best
    subst named
    obtain ⟨rfl, rfl, -⟩ := Outcome.mk.inj ((fair.apply_eq coherent).symm.trans applied)
    have step : Move config ledger _ _ _ _ := .trade fair best
    obtain ⟨rest, landed, idle⟩ := ih (step.coherent coherent) (inFlight_exchanged coherent fair)
    exact ⟨.prepend (.single step) rfl (fair.revises coherent).size rest, landed, idle⟩

private theorem settle_moves {id : OrderId} (coherent : ledger.Coherent (some id)) (flying : ledger.InFlight id)
    (idle : ledger.bestTrade id = .ok none) :
    ∃ next events, ledger.settle id = ⟨next, events, .ok ()⟩ ∧ Move config ledger (some id) events next none
      ∧ Event.trades events = [] ∧ next.orders.size = ledger.orders.size := by
  obtain ⟨order, side, found, sided, state⟩ := flying
  unfold settle
  rw [find_of_get? found]
  dsimp only
  cases exhausted : order.executed with
  | true => exact ⟨ledger, [], rfl, .close found exhausted, rfl, rfl⟩
  | false =>
    have active : order.isActive = true := state.resolve_right (by simp [exhausted])
    rw [sided]
    cases limited : order.limitPrice with
    | some price =>
      exact ⟨ledger, [.rested id side price order.remaining], rfl, .rest found active idle sided limited, rfl, rfl⟩
    | none =>
      have unplaced : order.place = none := by rw [Order.place_of_active active sided, limited, Option.map_none]
      have loose : ledger.delist order = ledger := delist_of_unplaced unplaced
      have move : Move config ledger (some id) _ _ none := .discard found active idle limited
      have size := (discard_revises coherent found .unfilledMarket).size
      rw [loose] at move size
      exact ⟨ledger.discard id order, [.cancelled id .unfilledMarket], rfl, move, rfl, size⟩

/-- Carrying an order out is matching it, and then one move that brings it to rest. -/
theorem execute_eq {id : OrderId} (coherent : ledger.Coherent (some id)) (flying : ledger.InFlight id) :
    ∃ next events, ledger.execute id
      = ⟨next, (ledger.sweep id).events ++ events, .ok (Event.trades (ledger.sweep id).events)⟩
      ∧ Move config (ledger.sweep id).ledger (some id) events next none ∧ Event.trades events = []
      ∧ next.orders.size = (ledger.sweep id).ledger.orders.size := by
  obtain ⟨swept, landed, idle⟩ := sweep_carries config coherent flying
  obtain ⟨next, events, settled, move, quiet, size⟩ := settle_moves config (swept.moves.coherent coherent) landed idle
  refine ⟨next, events, ?_, move, quiet, size⟩
  rw [execute, Outcome.andThen, swept.answer]
  dsimp only
  rw [settled]
  rfl

theorem execute_carries {id : OrderId} (coherent : ledger.Coherent (some id)) (flying : ledger.InFlight id) :
    Carries config ledger (some id) (ledger.execute id) none := by
  obtain ⟨swept, -, -⟩ := sweep_carries config coherent flying
  obtain ⟨next, events, whole, move, quiet, size⟩ := execute_eq config coherent flying
  rw [whole]
  exact {
    moves := swept.moves.trans (.single move)
    answer := by
      dsimp only
      rw [Event.trades_append, quiet, List.append_nil]
    size := size.trans swept.size }

def Awaits (ledger : Ledger) (price : Price) (id : OrderId) : Prop :=
  ∃ stop, ledger.get? id = some stop ∧ stop.isPending = true ∧ stop.isTriggeredBy price = true

variable {config} in
private theorem Awaits.kept {price : Price} {id : OrderId} (waits : ledger.Awaits price id)
    (coherent : ledger.Coherent before)
    (moves : Moves config ledger before events next later) (same : next.stops = ledger.stops) :
    next.Awaits price id := by
  obtain ⟨stop, found, pending, crossed⟩ := waits
  obtain ⟨trigger, given⟩ := Order.triggerPrice_of_isStop (Order.isPending_iff.mp pending).1
  have entry : (⟨trigger, id⟩ : Entry) ∈ ledger.index .stops :=
    coherent.listed.mpr ⟨stop, found, Order.place_eq_stops_iff.mpr ⟨pending, given⟩⟩
  have still : (⟨trigger, id⟩ : Entry) ∈ next.index .stops := by
    rw [index, same]
    exact entry
  obtain ⟨record, stored, placed⟩ := (moves.coherent coherent).listed.mp still
  obtain ⟨later, there, goesOn⟩ := moves.goesOn coherent found
  obtain rfl := Option.some.inj (stored.symm.trans there)
  exact ⟨record, stored, (Order.place_eq_stops_iff.mp placed).1, (goesOn.isTriggeredBy_eq price).trans crossed⟩

private theorem Awaits.promoted {price : Price} {id other : OrderId} {stop : Order} (waits : ledger.Awaits price id)
    (coherent : ledger.Coherent before) (found : ledger.get? other = some stop) (apart : id ≠ other) :
    (ledger.promoted other stop).Awaits price id := by
  obtain ⟨record, stored, pending, crossed⟩ := waits
  refine ⟨record, ?_, pending, crossed⟩
  rw [(promoted_revises coherent found price).records, stored, Option.map_some, effect_stopTriggered,
    coherent.numbered stored, if_neg apart]

theorem inFlight_promoted {id : OrderId} {stop : Order} (coherent : ledger.Coherent none)
    (found : ledger.get? id = some stop) (pending : stop.isPending = true) : (ledger.promoted id stop).InFlight id := by
  have regular := coherent.regular found
  have trades := Order.isCancel_of_isStop (Order.isPending_iff.mp pending).1
  obtain ⟨side, sided⟩ := Option.ne_none_iff_exists'.mp (regular.sided trades)
  refine ⟨stop.fire, side, ?_, sided, .inl (isActive_of_fired regular pending)⟩
  rw [(promoted_revises coherent found 0).records, found, Option.map_some, effect_stopTriggered,
    coherent.numbered found, if_pos rfl]

private theorem confirmStop_eq {entry : Entry} {stop : Order} (found : ledger.get? entry.id = some stop)
    (pending : stop.isPending = true) (given : stop.triggerPrice = some entry.price) :
    ledger.confirmStop entry = .ok (entry, stop) := by
  obtain ⟨isStop, waiting, live⟩ := Order.isPending_iff.mp pending
  simp only [confirmStop, find_of_get? found, bind, Except.bind, isStop, waiting, live, given, decide_true,
    Bool.not_false, Bool.and_true, if_true]
  rfl

private theorem ne_of_isTriggeredBy {stop : Order} {trigger price : Price} (given : stop.triggerPrice = some trigger)
    (crossed : stop.isTriggeredBy price = true) : trigger < price ∨ price < trigger := by
  unfold Order.isTriggeredBy at crossed
  rw [given] at crossed
  cases sided : stop.side with
  | none => simp [sided] at crossed
  | some side =>
    rw [sided] at crossed
    cases side <;> simp only [Side.crosses, decide_eq_true_eq] at crossed
    · exact .inl crossed
    · exact .inr crossed

/-- A price fires the stops that await it, each once and the oldest first. -/
theorem Coherent.firedBy_eq {carried : Option OrderId} (coherent : ledger.Coherent carried) (price : Price) :
    ∃ ids, ledger.firedBy price = .ok ids ∧ ids.Pairwise (· < ·) ∧ ∀ id, id ∈ ids ↔ ledger.Awaits price id := by
  have waiting : ∀ entry ∈ ledger.stops.below price ++ ledger.stops.above price, ∃ stop,
      ledger.get? entry.id = some stop ∧ stop.isPending = true ∧ stop.triggerPrice = some entry.price := by
    intro entry member
    have listed : entry ∈ ledger.index .stops := by
      rcases List.mem_append.mp member with below | above
      · exact ((PriceIndex.lists_below.mem_iff entry).mp below).1
      · exact ((PriceIndex.lists_above.mem_iff entry).mp above).1
    obtain ⟨stop, found, placed⟩ := coherent.listed.mp listed
    obtain ⟨pending, given⟩ := Order.place_eq_stops_iff.mp placed
    exact ⟨stop, found, pending, given⟩
  obtain ⟨pairs, confirmed, members⟩ := mapM_of_ok ledger.confirmStop
    (ledger.stops.below price ++ ledger.stops.above price) fun entry member => by
    obtain ⟨stop, found, pending, given⟩ := waiting entry member
    exact ⟨_, confirmStop_eq found pending given⟩
  refine ⟨(SortedSet.ofList ((pairs.filter fun pair => pair.2.isTriggeredBy price).map fun pair => pair.1.id)).toList,
    ?_, SortedSet.ascending _, fun id => ?_⟩
  · simp only [firedBy, confirmed, bind, Except.bind]
    rfl
  rw [← SortedSet.mem_iff, SortedSet.mem_ofList, List.mem_map]
  constructor
  · rintro ⟨⟨entry, stop⟩, fired, rfl⟩
    obtain ⟨listed, crossed⟩ := List.mem_filter.mp fired
    obtain ⟨other, member, passes⟩ := (members _).mp listed
    obtain ⟨record, found, pending, given⟩ := waiting other member
    obtain ⟨rfl, rfl⟩ := Prod.mk.inj (Except.ok.inj ((confirmStop_eq found pending given).symm.trans passes))
    exact ⟨record, found, pending, crossed⟩
  · rintro ⟨stop, found, pending, crossed⟩
    obtain ⟨trigger, given⟩ := Order.triggerPrice_of_isStop (Order.isPending_iff.mp pending).1
    have listed : (⟨trigger, id⟩ : Entry) ∈ ledger.index .stops :=
      coherent.listed.mpr ⟨stop, found, Order.place_eq_stops_iff.mpr ⟨pending, given⟩⟩
    -- No trade crosses a trigger at its own price, so that the two ranges miss no stop.
    have candidate : (⟨trigger, id⟩ : Entry) ∈ ledger.stops.below price ++ ledger.stops.above price := by
      rcases ne_of_isTriggeredBy given crossed with below | above
      · exact List.mem_append_left _ ((PriceIndex.lists_below.mem_iff _).mpr ⟨listed, below⟩)
      · exact List.mem_append_right _ ((PriceIndex.lists_above.mem_iff _).mpr ⟨listed, above⟩)
    have passes : ledger.confirmStop ⟨trigger, id⟩ = .ok (⟨trigger, id⟩, stop) := confirmStop_eq found pending given
    exact ⟨(⟨trigger, id⟩, stop), List.mem_filter.mpr ⟨(members _).mpr ⟨_, candidate, passes⟩, crossed⟩, rfl⟩

structure Fires (ledger : Ledger) (price : Price) (id : OrderId) (stop : Order) : Prop where
  found : ledger.get? id = some stop
  waiting : stop.triggered = false
  trigger : ∀ config, Move config ledger none [.stopTriggered id price] (ledger.promoted id stop) (some id)
  promotes : ledger.promote id price = ⟨ledger.promoted id stop, [.stopTriggered id price], .ok ()⟩
  flying : (ledger.promoted id stop).Coherent (some id)
  ready : (ledger.promoted id stop).InFlight id
  others : ∀ {other}, other ≠ id → ledger.Awaits price other →
    ((ledger.promoted id stop).execute id).ledger.Awaits price other

theorem Awaits.fires {price : Price} {id : OrderId} (waits : ledger.Awaits price id) (coherent : ledger.Coherent none) :
    ∃ stop, ledger.Fires price id stop := by
  obtain ⟨stop, found, pending, crossed⟩ := waits
  have flying := coherent_promoted coherent found pending
  have ready := inFlight_promoted coherent found pending
  refine ⟨stop, found, (Order.isPending_iff.mp pending).2.1, fun _ => .trigger found pending crossed,
    promote_eq coherent found pending price, flying, ready, ?_⟩
  intro other apart awaits
  have executed := execute_carries .standard flying ready
  exact (awaits.promoted coherent found apart).kept flying executed.moves (stops_execute _ _)

/-- The stops to come still wait: carrying one out leaves the index of stops alone. -/
theorem Fires.rest_await {price : Price} {id : OrderId} {stop : Order} {rest : List OrderId}
    (fires : ledger.Fires price id stop)
    (ascending : (id :: rest).Pairwise (· < ·)) (await : ∀ other ∈ id :: rest, ledger.Awaits price other) :
    ∀ other ∈ rest, ((ledger.promoted id stop).execute id).ledger.Awaits price other := by
  intro other member
  have apart : other ≠ id :=
    fun same => Nat.lt_irrefl _ (same ▸ (List.pairwise_cons.mp ascending).1 other member : id < id)
  exact fires.others apart (await other (List.mem_cons_of_mem _ member))

/-- The first stop fires and is carried out, and then the others. -/
theorem Fires.fire_cons {price : Price} {id : OrderId} {stop : Order} (fires : ledger.Fires price id stop)
    (rest : List OrderId) : fire .settling price ledger (id :: rest)
      = (((ledger.promoted id stop).execute id).andThen fun reached own =>
        (fire .settling price reached rest).map (own ++ ·)).after [.stopTriggered id price] := by
  rw [fire, find_of_get? fires.found]
  simp only [fires.waiting, Bool.false_eq_true, if_false]
  rw [fires.promotes]
  rfl

theorem fire_carries {price : Price} {ids : List OrderId} (coherent : ledger.Coherent none)
    (ascending : ids.Pairwise (· < ·)) (await : ∀ id ∈ ids, ledger.Awaits price id) :
    Carries config ledger none (fire .settling price ledger ids) none := by
  induction ids generalizing ledger with
  | nil => exact .done
  | cons id rest ih =>
    obtain ⟨stop, fires⟩ := (await id List.mem_cons_self).fires coherent
    have executed := execute_carries config fires.flying fires.ready
    have others := ih (executed.moves.coherent fires.flying) ascending.of_cons (fires.rest_await ascending await)
    rw [fires.fire_cons]
    exact .after (.single (fires.trigger config)) rfl (promoted_revises coherent fires.found price).size
      (executed.andThen others)

/-- Following trades through all stops they fire is a history from rest to rest. -/
theorem cascade_carries {waiting : List Price} (coherent : ledger.Coherent none) :
    Carries config ledger none (cascade .settling ledger waiting) none := by
  fun_induction cascade Executor.settling ledger waiting with
  | case1 => exact .done
  | case2 ledger price waiting fault stuck =>
    obtain ⟨ids, firing, -⟩ := coherent.firedBy_eq price
    rw [firing] at stuck
    cases stuck
  | case3 ledger price waiting ids firing next events fault fired =>
    obtain ⟨chosen, same, ascending, await⟩ := coherent.firedBy_eq price
    obtain rfl := Except.ok.inj (firing.symm.trans same)
    have carried := fire_carries config coherent ascending fun id => (await id).mp
    rw [fired] at carried
    cases carried.answer
  | case4 ledger price waiting ids firing next events trades fired ih =>
    obtain ⟨chosen, same, ascending, await⟩ := coherent.firedBy_eq price
    obtain rfl := Except.ok.inj (firing.symm.trans same)
    have carried := fire_carries config coherent ascending fun id => (await id).mp
    rw [fired] at carried
    exact .prepend carried.moves (Except.ok.inj carried.answer).symm carried.size (ih (carried.moves.coherent coherent))

/-- A withdrawal passes over a target that is not open, and otherwise goes through. -/
theorem withdraw_cases (coherent : ledger.Coherent none) (id target : OrderId) :
    ((ledger.get? target).filter (isWithdrawable id) = none
        ∧ ledger.withdraw id target = ⟨ledger, [.cancelIgnored id target], .ok ()⟩)
      ∨ ∃ order, ledger.get? target = some order ∧ isWithdrawable id order = true
        ∧ ledger.withdraw id target
          = ⟨(ledger.delist order).discard target order, [.cancelled target .requested], .ok ()⟩ := by
  unfold withdraw
  cases aimed : (ledger.get? target).filter (isWithdrawable id) with
  | none => exact .inl ⟨rfl, rfl⟩
  | some order =>
    obtain ⟨found, withdrawable⟩ := Option.filter_eq_some_iff.mp aimed
    obtain ⟨-, trades, unfilled, live⟩ := isWithdrawable_iff.mp withdrawable
    refine .inr ⟨order, found, withdrawable, ?_⟩
    dsimp only
    rw [unlist_eq_delist coherent found trades unfilled live]
    rfl

private theorem withdraw_carries {id target : OrderId} (coherent : ledger.Coherent none) :
    Carries config ledger none ((ledger.withdraw id target).map fun _ => []) none := by
  rcases withdraw_cases coherent id target with ⟨closed, passes⟩ | ⟨order, found, withdrawable, withdraws⟩
  · rw [passes]
    exact ⟨.single (.ignore closed), rfl, rfl⟩
  · rw [withdraws]
    exact ⟨.single (.withdraw found withdrawable), rfl, (discard_revises coherent found .requested).size⟩

private theorem trade_carries {id : OrderId} (coherent : ledger.Coherent (some id)) (flying : ledger.InFlight id) :
    Carries config ledger (some id) (ledger.trade id) none := by
  have executed := execute_carries config coherent flying
  exact executed.andThen (cascade_carries config (executed.moves.coherent coherent))

section Acceptance
variable {config} {order : Order}

theorem inFlight_admitted (coherent : ledger.Coherent none) (room : ledger.orders.size + 1 < 0x1_0000_0000_0000_0000)
    (admissible : order.Admissible config) (active : order.isActive = true) :
    (ledger.admitted order).InFlight ledger.nextId := by
  obtain ⟨-, -, trades, -⟩ := Order.isActive_iff.mp active
  obtain ⟨side, sided⟩ := Option.ne_none_iff_exists'.mp (admissible.traded trades).1
  exact ⟨order.numbered ledger.nextId, side, by rw [coherent.get?_admitted room, if_pos rfl], sided, .inl active⟩

theorem list_eq_enlist (active : order.isActive = true) : ledger.list order.id order = ledger.enlist order := by
  unfold list enlist
  split
  · rename_i side limit sided limited
    rw [Order.place_eq_side_iff.mpr ⟨active, sided, limited⟩]
  · rename_i unlisted
    cases placed : order.place with
    | none => rfl
    | some place =>
      obtain ⟨kind, price⟩ := place
      rcases Order.place_cases placed with ⟨-, pending, -⟩ | ⟨side, -, -, sided, limited⟩
      · rw [Order.not_isActive_of_isPending pending] at active
        cases active
      · exact absurd limited (unlisted side price sided)

/-- What `carryOut` does with an order once it is listed: an order that trades at once is traded. -/
theorem carryOut_of_active (admissible : order.Admissible config) (active : order.isActive = true) :
    (ledger.store order).carryOut ledger.nextId (order.numbered ledger.nextId)
      = (ledger.admitted order).trade ledger.nextId := by
  have listed : (ledger.store order).list ledger.nextId (order.numbered ledger.nextId) = ledger.admitted order :=
    list_eq_enlist ((Order.isActive_numbered order ledger.nextId).trans active)
  rw [admissible.isActive_eq] at active
  unfold carryOut
  rw [Order.kind_numbered, listed]
  cases kind : order.kind with
  | cancel target => simp [Order.isCancel, kind] at active
  | stop trigger limit => simp [Order.isStop, kind] at active
  | market => rfl
  | limit price => rfl

theorem carryOut_of_stop (admissible : order.Admissible config) {trigger : Price} {limit : Option Price}
    (kind : order.kind = .stop trigger limit) :
    (ledger.store order).carryOut ledger.nextId (order.numbered ledger.nextId)
      = ⟨ledger.admitted order, [.stopPending ledger.nextId trigger], .ok []⟩ := by
  have stop : order.isStop = true := by rw [Order.isStop, kind]
  have given : order.triggerPrice = some trigger := by rw [Order.triggerPrice, kind]; rfl
  have placed := Order.place_eq_stops_iff.mpr ⟨admissible.isPending_eq.trans stop, given⟩
  unfold carryOut
  rw [Order.kind_numbered, kind, admitted, enlist, Order.place_numbered, placed]
  rfl

/-- A cancel order is in no index. -/
theorem admitted_of_cancel (admissible : order.Admissible config) {target : OrderId}
    (kind : order.kind = .cancel target) :
    ledger.admitted order = ledger.store order := by
  have idle : order.isActive = false := by rw [admissible.isActive_eq, Order.isCancel, kind]; rfl
  have waits : order.isPending = false := by rw [admissible.isPending_eq, Order.isStop, kind]
  have unplaced : order.place = none := by simp [Order.place, idle, waits]
  rw [admitted, enlist, Order.place_numbered, unplaced]

theorem carryOut_of_cancel (admissible : order.Admissible config) {target : OrderId}
    (kind : order.kind = .cancel target) :
    (ledger.store order).carryOut ledger.nextId (order.numbered ledger.nextId)
      = ((ledger.admitted order).withdraw ledger.nextId target).map fun _ => [] := by
  unfold carryOut
  rw [Order.kind_numbered, kind, admitted_of_cancel admissible kind]

theorem carryOut_carries (coherent : ledger.Coherent none) (room : ledger.orders.size + 1 < 0x1_0000_0000_0000_0000)
    (admissible : order.Admissible config) :
    Carries config (ledger.admitted order) (if order.isActive then some ledger.nextId else none)
      ((ledger.store order).carryOut ledger.nextId (order.numbered ledger.nextId)) none := by
  have settled := coherent_admitted coherent room admissible
  rcases admissible.kind_cases with active | ⟨idle, trigger, limit, kind⟩ | ⟨idle, target, kind⟩
  · rw [if_pos active] at settled ⊢
    rw [carryOut_of_active admissible active]
    exact trade_carries config settled (inFlight_admitted coherent room admissible active)
  · have found : (ledger.admitted order).get? ledger.nextId = some (order.numbered ledger.nextId) := by
      rw [coherent.get?_admitted room, if_pos rfl]
    have stop : order.isStop = true := by rw [Order.isStop, kind]
    have given : order.triggerPrice = some trigger := by rw [Order.triggerPrice, kind]; rfl
    have move : Move config (ledger.admitted order) none [.stopPending ledger.nextId trigger]
        (ledger.admitted order) none :=
      .park found (admissible.isPending_eq.trans stop) given
    rw [carryOut_of_stop admissible kind, idle]
    exact ⟨.single move, rfl, rfl⟩
  · rw [idle] at settled ⊢
    rw [carryOut_of_cancel admissible kind]
    exact withdraw_carries config settled

theorem accept_eq (coherent : ledger.Coherent none) (room : ledger.orders.size + 1 < 0x1_0000_0000_0000_0000) :
    ledger.accept order = ((ledger.store order).carryOut ledger.nextId (order.numbered ledger.nextId)).after
      [.accepted ledger.nextId] := by
  have found : (ledger.store order).get? ledger.nextId = some (order.numbered ledger.nextId) := by
    rw [coherent.get?_store room, if_pos rfl]
  simp only [accept, find_of_get? found]

theorem accept_moves (coherent : ledger.Coherent none) (room : ledger.orders.size + 1 < 0x1_0000_0000_0000_0000)
    (admissible : order.Admissible config) :
    ∃ next events, ledger.accept order = ⟨next, events, .ok (Event.trades events)⟩
      ∧ Moves config ledger none events next none ∧ next.orders.size = ledger.orders.size + 1 := by
  have carried := carryOut_carries coherent room admissible
  refine ⟨_, _, ?_, (Moves.single (.enrol room admissible)).trans carried.moves, carried.size.trans (size_admitted ..)⟩
  rw [accept_eq coherent room, Outcome.after, carried.answer]
  rfl

/-- Once the numbers are used up the next order is stored but cannot be found. -/
theorem accept_spent {carried : Option OrderId} (coherent : ledger.Coherent carried)
    (spent : ledger.orders.size + 1 = 0x1_0000_0000_0000_0000) :
    ledger.accept order = .failed (ledger.store order) (.unknownOrder .unassigned) := by
  have wrapped : ledger.nextId = .unassigned := by
    apply OrderId.ext
    rw [coherent.counted, spent]
    rfl
  unfold accept
  rw [wrapped]
  rfl

end Acceptance

end LimitBook.Ledger
