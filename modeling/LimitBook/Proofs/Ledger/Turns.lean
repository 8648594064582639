import LimitBook.Proofs.Ledger.Marks
import LimitBook.Proofs.Ledger.Priority

/-! Turns. Carrying an order out reports its trades and then how it came to rest; a stop that fires reports that
first. The events of a cascade are such reports one after another. -/
namespace LimitBook

inductive Landing
  | exhausted
  | rested (side : Side) (price : Price) (remaining : Volume)
  | discarded

def Landing.events (id : OrderId) : Landing → List Event
  | exhausted => []
  | rested side price remaining => [.rested id side price remaining]
  | discarded => [.cancelled id .unfilledMarket]

structure Turn where
  taker : OrderId
  trades : List Trade
  taken : ∀ trade ∈ trades, trade.taker = taker
  landing : Landing

def Turn.events (turn : Turn) : List Event := turn.trades.map .matched ++ turn.landing.events turn.taker

structure Firing extends Turn where
  price : Price

def Firing.events (firing : Firing) : List Event := .stopTriggered firing.taker firing.price :: firing.toTurn.events

section Reports
variable {turn : Turn} {firing : Firing} {firings : List Firing}

@[simp] theorem Landing.trades_events (landing : Landing) (id : OrderId) : Event.trades (landing.events id) = [] := by
  cases landing <;> rfl

@[simp] theorem Landing.firings_events (landing : Landing) (id : OrderId) : Event.firings (landing.events id) = [] := by
  cases landing <;> rfl

@[simp] theorem Turn.trades_events : Event.trades turn.events = turn.trades := by
  rw [events, Event.trades_append, Event.trades_matched, Landing.trades_events, List.append_nil]

@[simp] theorem Turn.firings_events : Event.firings turn.events = [] := by
  rw [events, Event.firings_append, Landing.firings_events, List.append_nil]
  simp [Event.firings, List.filterMap_map, Function.comp_def, Event.firing?]

theorem Turn.mem_withdrawals {id : OrderId} (withdrawn : id ∈ Event.withdrawals turn.events) : id = turn.taker := by
  rw [events, Event.withdrawals_append, List.mem_append] at withdrawn
  rcases withdrawn with trading | landing
  · simp [Event.withdrawals, List.filterMap_map, Function.comp_def, Event.withdrawal?] at trading
  · cases landed : turn.landing with
    | exhausted => simp [landed, Landing.events, Event.withdrawals] at landing
    | rested side price remaining => simp [landed, Landing.events, Event.withdrawals, Event.withdrawal?] at landing
    | discarded => simpa [landed, Landing.events, Event.withdrawals, Event.withdrawal?] using landing

@[simp] theorem Firing.trades_events : Event.trades firing.events = firing.trades := Turn.trades_events

@[simp] theorem Firing.firings_events : Event.firings firing.events = [(firing.taker, firing.price)] :=
  congrArg (List.cons _) Turn.firings_events

private theorem Firing.mem_withdrawals {id : OrderId} (withdrawn : id ∈ Event.withdrawals firing.events) :
    id = firing.taker :=
  Turn.mem_withdrawals withdrawn

theorem trades_flatMap : Event.trades (firings.flatMap Firing.events) = firings.flatMap (·.trades) := by
  rw [Event.trades, List.filterMap_flatMap]
  exact List.flatMap_congr fun firing _ => Firing.trades_events

theorem firings_flatMap :
    Event.firings (firings.flatMap Firing.events) = firings.map fun firing => (firing.taker, firing.price) := by
  rw [Event.firings, List.filterMap_flatMap, List.map_eq_flatMap]
  exact List.flatMap_congr fun firing _ => Firing.firings_events

theorem mem_withdrawals_flatMap {id : OrderId} (withdrawn : id ∈ Event.withdrawals (firings.flatMap Firing.events)) :
    id ∈ firings.map (·.taker) := by
  rw [Event.withdrawals, List.filterMap_flatMap, List.mem_flatMap] at withdrawn
  obtain ⟨firing, member, own⟩ := withdrawn
  exact List.mem_map.mpr ⟨firing, member, (Firing.mem_withdrawals own).symm⟩

end Reports

private theorem Offer.taker_of_mem_walk {taker : OrderId} {wanted : Volume} {offers : List Offer} {trade : Trade}
    (taken : trade ∈ Offer.walk taker wanted offers) : trade.taker = taker := by
  induction offers generalizing wanted with
  | nil => cases taken
  | cons offer rest ih =>
    rw [walk] at taken
    split at taken
    · cases taken
    · rcases List.mem_cons.mp taken with rfl | later
      · rfl
      · exact ih later

namespace Ledger
variable {config : Config} {ledger next : Ledger} {events : List Event} {id : OrderId} {price : Price}
    {ids : List OrderId}

private theorem Move.landing (move : Move config ledger (some id) events next none) :
    ∃ landing : Landing, events = landing.events id := by
  cases move with
  | close => exact ⟨.exhausted, rfl⟩
  | rest => exact ⟨.rested _ _ _, rfl⟩
  | discard => exact ⟨.discarded, rfl⟩

theorem execute_turn (coherent : ledger.Coherent (some id)) (flying : ledger.InFlight id) :
    ∃ turn : Turn, turn.taker = id ∧ (ledger.execute id).events = turn.events := by
  obtain ⟨next, events, whole, move, -⟩ := execute_eq .standard coherent flying
  obtain ⟨order, side, found, sided, state⟩ := flying
  obtain ⟨landing, rfl⟩ := move.landing
  rw [whole, sweep_events coherent found sided state]
  exact ⟨⟨id, _, fun trade => Offer.taker_of_mem_walk, landing⟩, rfl, rfl⟩

/-- The stops of one price fire one after another, each once. -/
theorem fire_firings (coherent : ledger.Coherent none) (ascending : ids.Pairwise (· < ·))
    (await : ∀ id ∈ ids, ledger.Awaits price id) :
    ∃ firings : List Firing, (fire .settling price ledger ids).events = firings.flatMap Firing.events
      ∧ firings.map (·.taker) = ids ∧ ∀ firing ∈ firings, firing.price = price := by
  induction ids generalizing ledger with
  | nil => exact ⟨[], rfl, rfl, by simp⟩
  | cons id rest ih =>
    obtain ⟨stop, fires⟩ := (await id List.mem_cons_self).fires coherent
    have executed := execute_carries .standard fires.flying fires.ready
    obtain ⟨turn, rfl, turned⟩ := execute_turn fires.flying fires.ready
    obtain ⟨firings, fired, takers, prices⟩ :=
      ih (executed.moves.coherent fires.flying) ascending.of_cons (fires.rest_await ascending await)
    refine ⟨⟨turn, price⟩ :: firings, ?_, congrArg _ takers, ?_⟩
    · rw [fires.fire_cons, Outcome.andThen, executed.answer]
      change .stopTriggered turn.taker price :: (_ ++ (fire _ _ _ rest).events) = _
      rw [turned, fired]
      rfl
    · intro firing member
      rcases List.mem_cons.mp member with rfl | later
      · rfl
      · exact prices firing later

/-- The taker of a trade has fired by now, if it was a stop. -/
theorem Move.took {before later : Option OrderId} (move : Move config ledger before events next later)
    (coherent : ledger.Coherent before) {trade : Trade} (reported : trade ∈ Event.trades events) :
    ∃ order, next.get? trade.taker = some order ∧ order.isPending = false := by
  have spent : ∃ order, ledger.get? trade.taker = some order ∧ order.isActive = true := by
    cases move with
    | trade fair =>
      obtain rfl := List.mem_singleton.mp reported
      exact ⟨_, fair.takerFound, fair.takerActive⟩
    | enrol | close | park | rest | discard | trigger | withdraw | ignore | reject => cases reported
  obtain ⟨order, found, active⟩ := spent
  obtain ⟨record, stored, goesOn⟩ := move.goesOn coherent found
  exact ⟨record, stored, goesOn.not_isPending (Order.not_isPending_of_isActive active)⟩

theorem Moves.took {before later : Option OrderId} (moves : Moves config ledger before events next later)
    (coherent : ledger.Coherent before) {trade : Trade} (reported : trade ∈ Event.trades events) :
    ∃ order, next.get? trade.taker = some order ∧ order.isPending = false := by
  induction moves with
  | refl => cases reported
  | tail moves move ih =>
    rw [Event.trades_append, List.mem_append] at reported
    rcases reported with earlier | now
    · obtain ⟨order, found, idle⟩ := ih coherent earlier
      obtain ⟨record, stored, goesOn⟩ := move.goesOn (moves.coherent coherent) found
      exact ⟨record, stored, goesOn.not_isPending idle⟩
    · exact move.took (moves.coherent coherent) now

end Ledger
end LimitBook
