import LimitBook.Proofs.Ledger.Promotions

/-! Termination. In every ledger whose records stand at the places of their numbers, matching and cascades come to an
end, with an answer or a fault: what each round and each turn uses up is bounded, even where nothing else in the ledger
agrees. -/
namespace LimitBook.Ledger

structure SweepEnds (ledger : Ledger) (taker : OrderId) : Prop where
  rounds : ∃ trades last, Rounds taker ledger trades last
    ∧ (ledger.sweep taker).events = trades.map .matched ∧ last.SweepStops taker trades (ledger.sweep taker)
  lowers : ∀ trades state trade next, Rounds taker ledger trades state → state.Round taker trade next →
    ∃ before after : Order, state.get? taker = some before ∧ next.get? taker = some after
      ∧ after.remaining < before.remaining
  bounded : ∀ next trades, (ledger.sweep taker).Reaches next trades →
    ∃ order, ledger.get? taker = some order ∧ trades.length ≤ ledger.opposing order

structure CascadeEnds (ledger : Ledger) (prices : List Price) : Prop where
  turns : ∃ last queue, Relation.ReflTransGen CascadeStep (ledger, prices) (last, queue)
    ∧ last.CascadeStops queue (cascade .settling ledger prices)
  descends : ∀ state later, Relation.ReflTransGen CascadeStep (ledger, prices) state → CascadeStep state later →
    Prod.Lex (· < ·) (· < ·) (pressure later) (pressure state)
  waited : ∀ id ∈ Event.promoted (cascade .settling ledger prices).events,
    ∃ stop, ledger.get? id = some stop ∧ stop.triggered = false
  once : (Event.promoted (cascade .settling ledger prices).events).Nodup
  bounded : (Event.promoted (cascade .settling ledger prices).events).length ≤ ledger.stops.size

variable {ledger : Ledger}

private theorem Numbered.sweepEnds (numbered : ledger.Numbered) (taker : OrderId) : ledger.SweepEnds taker where
  rounds := sweep_rounds ledger taker
  lowers := by
    intro trades state trade next rounds round
    exact round.lowers (rounds.numbered numbered)
  bounded := by
    intro next trades reaches
    obtain ⟨made, last, rounds, -, stops⟩ := sweep_rounds ledger taker
    rcases stops with ⟨idle, reached⟩ | ⟨fault, answered, -⟩
    · obtain rfl := Except.ok.inj (reached.2.symm.trans reaches.2)
      obtain ⟨order, found⟩ := rounds.exists_taker idle
      exact ⟨order, found, rounds.length_le numbered found⟩
    · rw [reaches.2] at answered
      cases answered

private theorem cascadeEnds (ledger : Ledger) (prices : List Price) : ledger.CascadeEnds prices where
  turns := cascade_steps ledger prices
  descends := fun _ _ _ step => step.descends
  waited := (promotes_cascade ledger prices).waited
  once := (promotes_cascade ledger prices).once
  bounded := by
    have left := (promotes_cascade ledger prices).left
    omega

/-- Matching ends for every taker and a cascade ends for all trades that set it off, whatever the indexes, the flags and
the volumes of a ledger are, if only its records stand at the places of their numbers. No turn of a cascade can follow
another for ever. -/
theorem matching_and_cascades_end (numbered : ledger.Numbered) :
    (∀ taker, ledger.SweepEnds taker) ∧ (∀ initial : List Trade, ledger.CascadeEnds (initial.map Trade.price))
      ∧ WellFounded fun later state => CascadeStep state later :=
  ⟨numbered.sweepEnds, fun initial => cascadeEnds ledger (initial.map Trade.price), wellFounded_cascadeStep⟩

/-- A ledger at odds with itself: order 2, a bid with more left than its volume, is in no index; the asks list order 1 a
second time, at a price it does not ask; and stop 4 waits though it has been cancelled. -/
def tangled : Ledger where
  orders := #[
    (Order.limit .sell 1 (.ofCents 100)).numbered (.ofNumber 1),
    { (Order.limit .buy 1 (.ofCents 101)).numbered (.ofNumber 2) with remaining := .ofUnits 3 },
    (Order.stop .buy 1 (.ofCents 99)).numbered (.ofNumber 3),
    ((Order.stop .buy 1 (.ofCents 120)).numbered (.ofNumber 4)).withdraw]
  bids := .empty
  asks := .ofList [⟨.ofCents 100, .ofNumber 1⟩, ⟨.ofCents 105, .ofNumber 1⟩]
  stops := .ofList [⟨.ofCents 99, .ofNumber 3⟩, ⟨.ofCents 120, .ofNumber 4⟩]
  nextId := .first
  cancelled := .empty
  lastPrice := none

/-- The bid takes the ask that is there. A cascade from its trade comes upon the cancelled stop, and stops. -/
theorem matching_and_cascades_end_tangled : tangled.Numbered
    ∧ (tangled.sweep (.ofNumber 2)).answer
      = .ok [⟨.ofNumber 2, .ofNumber 1, 1, .ofCents 100⟩]
    ∧ tangled.SweepEnds (.ofNumber 2) ∧ tangled.CascadeEnds [.ofCents 100] := by
  have numbered : tangled.Numbered := by
    intro place record stored
    obtain ⟨within, rfl⟩ := Array.getElem?_eq_some_iff.mp stored
    have all : ∀ place : Fin 4, tangled.orders[place].id.number = place + 1 := by decide
    exact all ⟨place, within⟩
  obtain ⟨sweeps, cascades, -⟩ := matching_and_cascades_end numbered
  exact ⟨numbered, by decide +kernel, sweeps _, cascades [⟨.ofNumber 2, .ofNumber 1, 1, .ofCents 100⟩]⟩

end LimitBook.Ledger
