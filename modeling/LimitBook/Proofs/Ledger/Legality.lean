import LimitBook.Proofs.Ledger.Replay

/-! Legal trades. Every trade is one that its two orders may make as they stand at that moment, and it uses one of
them up: a ledger has at least as many executed orders as it has seen trades. -/
namespace LimitBook

structure Replay.Allows (replay : Replay) (trade : Trade) (taker maker : Order) (side : Side) : Prop where
  taking : replay.find? trade.taker = some taker
  making : replay.find? trade.maker = some maker
  apart : trade.taker ≠ trade.maker
  traders : taker.isCancel = false ∧ maker.isCancel = false
  opposed : taker.side = some side ∧ maker.side = some side.opposite
  positive : 0 < trade.volume
  price : maker.limitPrice = some trade.price
  within : ∀ limit, taker.limitPrice = some limit → side.within limit trade.price = true
  uncancelled : taker.cancelled = false ∧ maker.cancelled = false
  unexecuted : taker.executed = false ∧ maker.executed = false
  fired : (taker.isStop = true → taker.triggered = true) ∧ (maker.isStop = true → maker.triggered = true)
  fits : trade.volume ≤ taker.remaining ∧ trade.volume ≤ maker.remaining
  exhausts : taker.remaining = trade.volume ∨ maker.remaining = trade.volume

namespace Ledger
open Replay (picture)

variable {config : Config} {ledger next : Ledger} {before later carried : Option OrderId} {events : List Event}
  {order : Order} {id : OrderId}

/-- A replay that shows a ledger allows the trades that are fair there. -/
theorem Fair.allows {trade : Trade} {taker maker : Order} {side : Side} (fair : ledger.Fair trade taker maker side)
    (coherent : ledger.Coherent carried) (waiting : List Order) :
    (picture ledger waiting).Allows trade taker maker side := by
  obtain ⟨takerLive, takerOpen, takerTrades, takerFired⟩ := Order.isActive_iff.mp fair.takerActive
  obtain ⟨makerLive, makerOpen, makerTrades, makerFired⟩ := Order.isActive_iff.mp fair.makerActive
  have some? := fair.volume_ne_zero coherent
  exact {
    taking := (Replay.find?_picture ..).trans fair.takerFound
    making := (Replay.find?_picture ..).trans fair.makerFound
    apart := fair.apart.symm
    traders := ⟨takerTrades, makerTrades⟩
    opposed := ⟨fair.takerSide, fair.makerSide⟩
    positive := Nat.pos_of_ne_zero (mt Volume.eq_zero_iff.mpr some?)
    price := fair.price
    within := fair.within
    uncancelled := ⟨takerLive, makerLive⟩
    unexecuted := ⟨takerOpen, makerOpen⟩
    fired := ⟨takerFired, makerFired⟩
    fits := ⟨fair.volume_le_taker, fair.volume_le_maker⟩
    exhausts := fair.exhausts }

private theorem Move.silent_or_single (move : Move config ledger before events next later) :
    events = [] ∨ ∃ event, events = [event] := by
  cases move with
  | close => exact .inl rfl
  | enrol | park | trade | rest | discard | trigger | withdraw | ignore | reject => exact .inr ⟨_, rfl⟩

/-- A history can be cut before and after each of its events. -/
theorem Moves.cut {earlier rest : List Event} {event : Event}
    (moves : Moves config ledger before (earlier ++ event :: rest) next later) :
    ∃ state during reached after, Moves config ledger before earlier state during
      ∧ Move config state during [event] reached after ∧ Moves config reached after rest next later := by
  generalize whole : earlier ++ event :: rest = events at moves
  induction moves generalizing rest with
  | refl => simp at whole
  | tail moves move ih =>
    -- The last move reports nothing, or the event that is looked for, or the last one of the rest.
    rcases move.silent_or_single with rfl | ⟨last, rfl⟩
    · rw [List.append_nil] at whole
      obtain ⟨state, flying, reached, after, first, this, others⟩ := ih whole
      have onward := others.tail move
      rw [List.append_nil] at onward
      exact ⟨state, flying, reached, after, first, this, onward⟩
    rcases List.eq_nil_or_concat' rest with rfl | ⟨front, tip, rfl⟩
    · obtain ⟨rfl, same⟩ := List.append_inj' whole rfl
      obtain rfl := List.singleton_inj.mp same
      exact ⟨_, _, _, _, moves, move, .refl⟩
    · rw [← List.cons_append, ← List.append_assoc] at whole
      obtain ⟨front, same⟩ := List.append_inj' whole rfl
      obtain rfl := List.singleton_inj.mp same
      obtain ⟨state, flying, reached, after, first, this, others⟩ := ih front
      exact ⟨state, flying, reached, after, first, this, others.tail move⟩

/-- Every trade of a call is allowed by what the events of the call before it have made of the ledger. -/
theorem accept_allows (coherent : ledger.Coherent none) (room : ledger.orders.size + 1 < 0x1_0000_0000_0000_0000)
    (admissible : order.Admissible config) {earlier rest : List Event} {trade : Trade}
    (reported : (ledger.accept order).events = earlier ++ .matched trade :: rest) :
    ∃ taker maker side, ((picture ledger [order]).run earlier).Allows trade taker maker side := by
  have active : order.isActive = true := by
    obtain ⟨own, firings, reports⟩ := accept_reported coherent room admissible
    by_contra idle
    have silent := reports.idle (Bool.not_eq_true _ ▸ idle)
    rw [reported, Event.trades_append] at silent
    simp [Event.trades, Event.trade?] at silent
  have settled := coherent_admitted coherent room admissible
  have carried := carryOut_carries coherent room admissible
  obtain ⟨own, firings, -, turns, -⟩ := accept_of_active coherent room admissible active
  rw [accept_eq coherent room] at reported turns
  have tail : ((ledger.store order).carryOut ledger.nextId (order.numbered ledger.nextId)).events
      = own.events ++ firings.flatMap Firing.events := (List.cons.inj turns).2
  cases earlier with
  | nil => cases reported
  | cons first earlier =>
    obtain ⟨rfl, split⟩ := List.cons.inj reported
    change ((ledger.store order).carryOut _ _).events = earlier ++ _ at split
    have moves := carried.moves
    rw [split] at moves
    obtain ⟨state, during, reached, after, past, move, -⟩ := moves.cut
    have recorded : ∀ event ∈ earlier, event.isRecorded = true := by
      intro event member
      have within : event ∈ own.events ++ firings.flatMap Firing.events := by
        rw [← tail, split]
        exact List.mem_append_left _ member
      rcases List.mem_append.mp within with own | later
      · exact Turn.isRecorded event own
      · obtain ⟨firing, -, fired⟩ := List.mem_flatMap.mp later
        exact Firing.isRecorded event fired
    obtain ⟨-, shown⟩ := @Moves.replays _ _ _ _ _ _ [] past settled recorded
    change ∃ taker maker side,
      (((picture ledger [order]).step (.accepted ledger.nextId)).run earlier).Allows trade taker maker side
    rw [step_admitted, shown]
    cases move with
    | trade fair => exact ⟨_, _, _, fair.allows (past.coherent settled) []⟩

section Executions

/-- A list whose items are changed so that one more of them passes a test, and none less, has more that pass. -/
theorem countP_lt_countP_map {α : Type} {items : List α} {test : α → Bool} {change : α → α}
    (kept : ∀ item ∈ items, test item = true → test (change item) = true) {item : α} (member : item ∈ items)
    (failed : test item = false) (passes : test (change item) = true) :
    items.countP test < (items.map change).countP test := by
  obtain ⟨front, rest, rfl⟩ := List.append_of_mem member
  have early : front.countP test ≤ (front.map change).countP test := by
    rw [List.countP_map]
    exact List.countP_mono_left fun other within => kept other (List.mem_append_left _ within)
  have late : rest.countP test ≤ (rest.map change).countP test := by
    rw [List.countP_map]
    exact List.countP_mono_left fun other within =>
      kept other (List.mem_append_right _ (List.mem_cons_of_mem _ within))
  rw [List.map_append, List.map_cons, List.countP_append, List.countP_append, List.countP_cons_of_pos passes,
    List.countP_cons_of_neg (by simp [failed])]
  omega

def executions (ledger : Ledger) : Nat := ledger.orders.toList.countP Order.executed

private theorem Fair.executions_lt {trade : Trade} {taker maker : Order} {side : Side}
    (fair : ledger.Fair trade taker maker side)
    (coherent : ledger.Coherent carried) : ledger.executions < (ledger.exchanged trade taker maker).executions := by
  have exhausted : ∃ order ∈ ledger.orders.toList, order.executed = false
      ∧ ((Event.matched trade).effect order).executed = true := by
    have member : ∀ {id : OrderId} {order : Order}, ledger.get? id = some order → order ∈ ledger.orders.toList := by
      intro id order found
      rw [coherent.mem_orders_iff, coherent.numbered found]
      exact found
    rcases fair.exhausts with taking | making
    · refine ⟨taker, member fair.takerFound, (Order.isActive_iff.mp fair.takerActive).2.1, ?_⟩
      rw [effect_matched, coherent.numbered fair.takerFound, if_pos (.inl rfl)]
      simp [Order.take, taking, Volume.eq_zero_iff]
    · refine ⟨maker, member fair.makerFound, (Order.isActive_iff.mp fair.makerActive).2.1, ?_⟩
      rw [effect_matched, coherent.numbered fair.makerFound, if_pos (.inr rfl)]
      simp [Order.take, making, Volume.eq_zero_iff]
  obtain ⟨order, member, failed, passes⟩ := exhausted
  rw [executions, executions, (fair.revises coherent).toList_orders coherent]
  exact countP_lt_countP_map (fun item _ => (Order.GoesOn.effect _ item).executed) member failed passes

/-- Every trade of a move executes an order. -/
theorem Move.executions (move : Move config ledger before events next later) (coherent : ledger.Coherent before) :
    ledger.executions + (Event.trades events).length ≤ next.executions := by
  have kept : ledger.executions ≤ next.executions := by
    rcases move.revises coherent with ⟨order, -, -, -, rfl⟩ | revises
    · simp [Ledger.executions, admitted, store]
    · rw [Ledger.executions, Ledger.executions, revises.toList_orders coherent, List.countP_map]
      exact List.countP_mono_left fun order _ => (Order.GoesOn.effects events order).executed
  cases move with
  | trade fair => exact fair.executions_lt coherent
  | enrol | park | close | rest | discard | trigger | withdraw | ignore | reject => exact kept

theorem Moves.executions (moves : Moves config ledger before events next later) (coherent : ledger.Coherent before) :
    ledger.executions + (Event.trades events).length ≤ next.executions := by
  induction moves with
  | refl => exact Nat.le_refl _
  | tail moves move ih =>
    have first := ih coherent
    have last := move.executions (moves.coherent coherent)
    rw [Event.trades_append, List.length_append]
    omega

/-- Only orders that trade are executed. -/
theorem Coherent.executions_le (coherent : ledger.Coherent carried) :
    ledger.executions ≤ (ledger.orders.toList.filter fun order => !order.isCancel).length := by
  rw [← List.countP_eq_length_filter]
  apply List.countP_mono_left
  intro order stored executed
  rw [Bool.not_eq_true', ← Bool.not_eq_true]
  intro cancel
  rw [((coherent.regular (coherent.mem_orders_iff.mp stored)).inert cancel).2.2] at executed
  cases executed

end Executions

/-- After an order was cancelled no trade names it. -/
theorem Moves.untraded {earlier rest : List Event} {reason : CancelReason} {trade : Trade}
    (moves : Moves config ledger before (earlier ++ .cancelled id reason :: rest) next later)
    (coherent : ledger.Coherent before) (traded : trade ∈ Event.trades rest) : trade.names id = false := by
  obtain ⟨state, during, reached, after, past, move, others⟩ := moves.cut
  have struck := past.coherent coherent
  have marked : id ∈ Mark.withdrawn.set [.cancelled id reason] := List.mem_cons_self
  obtain ⟨order, found, cancelled⟩ := Mark.withdrawn.flagged_of_move move struck marked
  obtain ⟨event, member, matched⟩ := List.mem_filterMap.mp traded
  obtain ⟨front, back, rfl⟩ := List.append_of_mem member
  cases event with
  | matched own =>
    obtain rfl := Option.some.inj matched
    obtain ⟨state, during, _, _, between, trading, -⟩ := others.cut
    obtain ⟨record, stored, goesOn⟩ := between.goesOn (move.coherent struck) found
    have live : record.cancelled = true := goesOn.cancelled cancelled
    rw [← Bool.not_eq_true, Trade.names_iff]
    cases trading with
    | trade fair =>
      rintro (rfl | rfl)
      · obtain rfl := Option.some.inj (fair.takerFound.symm.trans stored)
        rw [(Order.isActive_iff.mp fair.takerActive).1] at live
        cases live
      · obtain rfl := Option.some.inj (fair.makerFound.symm.trans stored)
        rw [(Order.isActive_iff.mp fair.makerActive).1] at live
        cases live
  | _ => cases matched

end Ledger
end LimitBook
