import LimitBook.Proofs.Ledger.Turns

/-! Cascades. The trades of a call are scanned in their order, those of the fired stops after all earlier ones. Each
fires the stops that it is the first to cross, the oldest first. -/
namespace LimitBook

namespace Ledger
variable {config : Config} {ledger next : Ledger} {before later : Option OrderId} {outcome : Outcome (List Trade)}
  {id : OrderId} {price : Price}

def crossedAt (ledger : Ledger) (trades : List Trade) (id : OrderId) : Nat :=
  trades.findIdx fun trade => (ledger.get? id).any fun stop => stop.isTriggeredBy trade.price

def Quiet (ledger : Ledger) (trades : List Trade) : Prop := ∀ trade ∈ trades, ∀ id, ¬ ledger.Awaits trade.price id

theorem quiet_nil (ledger : Ledger) : ledger.Quiet [] := by simp [Quiet]

/-- Without new records the old ones go on, and there are no others. -/
theorem Carries.get?_cases (carries : Carries config ledger before outcome later) (coherent : ledger.Coherent before)
    (id : OrderId) : (ledger.get? id = none ∧ outcome.ledger.get? id = none)
      ∨ ∃ order record, ledger.get? id = some order ∧ outcome.ledger.get? id = some record ∧ order.GoesOn record := by
  cases found : ledger.get? id with
  | none =>
    rw [get?_eq_none_iff, ← carries.size, ← get?_eq_none_iff] at found
    exact .inl ⟨rfl, found⟩
  | some order =>
    obtain ⟨record, stored, goesOn⟩ := carries.moves.goesOn coherent found
    exact .inr ⟨order, record, rfl, stored, goesOn⟩

private theorem Carries.crossedAt_eq (carries : Carries config ledger before outcome later)
    (coherent : ledger.Coherent before) :
    outcome.ledger.crossedAt = ledger.crossedAt := by
  funext trades id
  unfold crossedAt
  rcases carries.get?_cases coherent id with ⟨found, stored⟩ | ⟨order, record, found, stored, goesOn⟩
  · rw [found, stored]
  · simp only [found, stored, Option.any_some, goesOn.isTriggeredBy_eq]

private theorem Carries.awaited (carries : Carries config ledger before outcome later)
    (coherent : ledger.Coherent before) (waits : outcome.ledger.Awaits price id) : ledger.Awaits price id := by
  obtain ⟨stop, there, pending, crossed⟩ := waits
  rcases carries.get?_cases coherent id with ⟨-, stored⟩ | ⟨order, record, found, stored, goesOn⟩
  · rw [there] at stored
    cases stored
  · obtain rfl := Option.some.inj (there.symm.trans stored)
    rw [goesOn.isTriggeredBy_eq] at crossed
    exact ⟨order, found, goesOn.isPending pending, crossed⟩

private theorem crossedAt_of_awaits {scanned rest : List Trade} {trade : Trade} (quiet : ledger.Quiet scanned)
    (waits : ledger.Awaits trade.price id) : ledger.crossedAt (scanned ++ trade :: rest) id = scanned.length := by
  obtain ⟨stop, found, pending, crossed⟩ := waits
  have early : ∀ other ∈ scanned, ((ledger.get? id).any fun stop => stop.isTriggeredBy other.price) = false := by
    intro other member
    rw [found, Option.any_some, ← Bool.not_eq_true]
    exact fun also => quiet other member id ⟨stop, found, pending, also⟩
  have none : scanned.findIdx (fun other => (ledger.get? id).any fun stop => stop.isTriggeredBy other.price)
      = scanned.length := List.findIdx_eq_length_of_false early
  rw [crossedAt, List.findIdx_append, none, if_neg (Nat.lt_irrefl _), List.findIdx_cons, found, Option.any_some,
    crossed]
  exact Nat.zero_add _

def Ahead (ledger : Ledger) (trades : List Trade) (one two : Firing) : Prop :=
  ledger.crossedAt trades one.taker < ledger.crossedAt trades two.taker
    ∨ (ledger.crossedAt trades one.taker = ledger.crossedAt trades two.taker ∧ one.taker < two.taker)

structure Orderly (ledger : Ledger) (trades : List Trade) (start : Nat) (firings : List Firing) : Prop where
  waiting : ∀ firing ∈ firings, ∃ stop, ledger.get? firing.taker = some stop ∧ stop.isPending = true
  later : ∀ firing ∈ firings, start ≤ ledger.crossedAt trades firing.taker
  price : ∀ firing ∈ firings, (trades[ledger.crossedAt trades firing.taker]?).map Trade.price = some firing.price
  sorted : firings.Pairwise (ledger.Ahead trades)

theorem orderly_nil (ledger : Ledger) (trades : List Trade) (start : Nat) : ledger.Orderly trades start [] :=
  ⟨by simp, by simp, by simp, .nil⟩

/-- A stop that fires has been crossed by one of the trades. -/
theorem Orderly.crossed {trades : List Trade} {start : Nat} {firings : List Firing} {firing : Firing} {stop : Order}
    (orderly : ledger.Orderly trades start firings) (member : firing ∈ firings)
    (found : ledger.get? firing.taker = some stop) : ∃ trade ∈ trades, stop.isTriggeredBy trade.price = true := by
  obtain ⟨trade, there, -⟩ := Option.map_eq_some_iff.mp (orderly.price firing member)
  obtain ⟨within, -⟩ := List.getElem?_eq_some_iff.mp there
  obtain ⟨first, traded, crossed⟩ := List.findIdx_lt_length.mp within
  rw [found, Option.any_some] at crossed
  exact ⟨first, traded, crossed⟩

/-- Firings stay in their order where the same trades cross the same stops. -/
theorem Orderly.transfer {other : Ledger} {trades : List Trade} {start : Nat} {firings : List Firing}
    (orderly : ledger.Orderly trades start firings) (same : ledger.crossedAt = other.crossedAt)
    (waited : ∀ id stop, ledger.get? id = some stop → stop.isPending = true →
      ∃ stop, other.get? id = some stop ∧ stop.isPending = true) : other.Orderly trades start firings where
  waiting := by
    intro firing member
    obtain ⟨stop, found, pending⟩ := orderly.waiting firing member
    exact waited firing.taker stop found pending
  later := by
    rw [← same]
    exact orderly.later
  price := by
    rw [← same]
    exact orderly.price
  sorted := by
    unfold Ahead
    rw [← same]
    exact orderly.sorted

theorem Orderly.earlier {trades : List Trade} {start : Nat} {firings : List Firing}
    (orderly : outcome.ledger.Orderly trades start firings) (carries : Carries config ledger before outcome later)
    (coherent : ledger.Coherent before) : ledger.Orderly trades start firings := by
  apply orderly.transfer (carries.crossedAt_eq coherent)
  intro id stop there pending
  rcases carries.get?_cases coherent id with ⟨-, stored⟩ | ⟨order, record, found, stored, goesOn⟩
  · rw [there] at stored
    cases stored
  · obtain rfl := Option.some.inj (there.symm.trans stored)
    exact ⟨order, found, goesOn.isPending pending⟩

/-- The stops that one trade fires stand before those that later trades fire. -/
theorem Orderly.batch {scanned rest : List Trade} {trade : Trade} {batch firings : List Firing}
    (others : ledger.Orderly (scanned ++ trade :: rest) (scanned.length + 1) firings) (quiet : ledger.Quiet scanned)
    (fired : ∀ firing ∈ batch, firing.price = trade.price)
    (await : ∀ firing ∈ batch, ledger.Awaits trade.price firing.taker)
    (ascending : (batch.map (·.taker)).Pairwise (· < ·)) :
    ledger.Orderly (scanned ++ trade :: rest) scanned.length (batch ++ firings) := by
  have here : ∀ firing ∈ batch, ledger.crossedAt (scanned ++ trade :: rest) firing.taker = scanned.length :=
    fun firing member => crossedAt_of_awaits quiet (await firing member)
  refine ⟨?_, ?_, ?_, List.pairwise_append.mpr ⟨?_, others.sorted, ?_⟩⟩
  · intro firing member
    rcases List.mem_append.mp member with now | later
    · obtain ⟨stop, found, pending, -⟩ := await firing now
      exact ⟨stop, found, pending⟩
    · exact others.waiting firing later
  · intro firing member
    rcases List.mem_append.mp member with now | later
    · exact Nat.le_of_eq (here firing now).symm
    · exact Nat.le_of_succ_le (others.later firing later)
  · intro firing member
    rcases List.mem_append.mp member with now | later
    · rw [here firing now, fired firing now]
      simp
    · exact others.price firing later
  · apply (List.pairwise_map.mp ascending).imp_of_mem
    intro one two first second below
    exact .inr ⟨(here one first).trans (here two second).symm, below⟩
  · intro one first two second
    have behind := others.later two second
    have ahead := here one first
    exact .inl (by omega)

/-- When all stops that awaited a trade have fired, none awaits it any more. -/
theorem Quiet.fired {scanned : List Trade} {trade : Trade} {batch : List Firing} (quiet : ledger.Quiet scanned)
    (coherent : ledger.Coherent none) (carried : Carries config ledger none outcome none)
    (reported : outcome.events = batch.flatMap Firing.events)
    (all : ∀ id, ledger.Awaits trade.price id → id ∈ batch.map (·.taker)) :
    outcome.ledger.Quiet (scanned ++ [trade]) := by
  intro other member id waits
  have waited := carried.awaited coherent waits
  rcases List.mem_append.mp member with earlier | now
  · exact quiet other earlier id waited
  · obtain rfl := List.mem_singleton.mp now
    obtain ⟨stop, stored, pending, -⟩ := waits
    have marked : id ∈ Mark.fired.set outcome.events := by
      rw [reported, Mark.set_fired, firings_flatMap, List.map_map]
      exact all id waited
    obtain ⟨record, there, triggered⟩ := Mark.fired.flagged_of_moves carried.moves coherent marked
    obtain rfl := Option.some.inj (stored.symm.trans there)
    exact absurd triggered (Bool.not_eq_true _ ▸ (Order.isPending_iff.mp pending).2.1)

/-- A cascade scans the trades that are queued and then those of the stops that it fires, in their order. -/
theorem cascade_firings {prices : List Price} {scanned queue : List Trade} (coherent : ledger.Coherent none)
    (queued : queue.map Trade.price = prices) (quiet : ledger.Quiet scanned) :
    ∃ firings : List Firing, (cascade .settling ledger prices).events = firings.flatMap Firing.events
      ∧ ledger.Orderly (scanned ++ queue ++ firings.flatMap (·.trades)) scanned.length firings
      ∧ (cascade .settling ledger prices).ledger.Quiet (scanned ++ queue ++ firings.flatMap (·.trades)) := by
  fun_induction cascade Executor.settling ledger prices generalizing scanned queue with
  | case1 ledger =>
    obtain rfl := List.map_eq_nil_iff.mp queued
    refine ⟨[], rfl, orderly_nil .., ?_⟩
    change ledger.Quiet _
    simpa using quiet
  | case2 ledger price waiting fault stuck =>
    obtain ⟨ids, firing, -⟩ := coherent.firedBy_eq price
    rw [firing] at stuck
    cases stuck
  | case3 ledger price waiting ids firing next events fault fired =>
    obtain ⟨chosen, same, ascending, await⟩ := coherent.firedBy_eq price
    obtain rfl := Except.ok.inj (firing.symm.trans same)
    have carried := fire_carries .standard coherent ascending fun id => (await id).mp
    rw [fired] at carried
    cases carried.answer
  | case4 ledger price waiting ids firing next events trades fired ih =>
    obtain ⟨trade, rest, rfl, rfl, rfl⟩ := List.map_eq_cons_iff.mp queued
    obtain ⟨chosen, same, ascending, await⟩ := coherent.firedBy_eq trade.price
    obtain rfl := Except.ok.inj (firing.symm.trans same)
    have carried := fire_carries .standard coherent ascending fun id => (await id).mp
    obtain ⟨batch, reported, takers, price⟩ := fire_firings coherent ascending fun id => (await id).mp
    have still := quiet.fired coherent carried reported fun id => takers ▸ (await id).mpr
    rw [fired] at carried reported still
    dsimp only at reported still
    subst reported
    have own : trades = batch.flatMap (·.trades) := (Except.ok.inj carried.answer).trans trades_flatMap
    -- What these stops have traded is scanned after all that is queued already.
    obtain ⟨firings, later, orderly, silent⟩ :=
      @ih (scanned ++ [trade]) (rest ++ trades) (carried.moves.coherent coherent) (by simp) still
    have all : scanned ++ [trade] ++ (rest ++ trades) ++ firings.flatMap (·.trades)
        = scanned ++ (trade :: rest) ++ (batch ++ firings).flatMap (·.trades) := by
      rw [own]
      simp
    rw [all] at orderly silent
    refine ⟨batch ++ firings, ?_, ?_, silent⟩
    · change batch.flatMap Firing.events ++ (cascade _ next _).events = _
      rw [later, List.flatMap_append]
    · have waited : ∀ firing ∈ batch, ledger.Awaits trade.price firing.taker := by
        intro firing member
        exact (await _).mp (takers ▸ List.mem_map_of_mem member)
      have others := orderly.earlier carried coherent
      rw [List.length_append] at others
      rw [List.append_assoc, List.cons_append] at others ⊢
      exact others.batch quiet price waited (takers ▸ ascending)

end Ledger
end LimitBook
