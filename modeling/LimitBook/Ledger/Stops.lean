import LimitBook.Ledger.Settling

/-! Stop orders. A trade fires the pending stops whose triggers it crosses; what they trade may fire
further ones. Prices are taken in the order of the trades, and the stops that one price fires in the
order of their admission. -/
namespace LimitBook

namespace Ledger

def confirmStop (ledger : Ledger) (entry : Entry) : Except Fault (Entry × Order) := do
  let order ← ledger.find entry.id
  if order.isStop && !order.triggered && !order.cancelled && order.triggerPrice = some entry.price then
    return (entry, order)
  else throw (.staleStop order entry.price)

def firedBy (ledger : Ledger) (price : Price) : Except Fault (List OrderId) := do
  let pending ← (ledger.stops.below price ++ ledger.stops.above price).mapM ledger.confirmStop
  let fired := pending.filter fun (_, stop) => stop.isTriggeredBy price
  return (SortedSet.ofList (fired.map fun (entry, _) => entry.id)).toList

def promote (ledger : Ledger) (id : OrderId) (price : Price) : Outcome Unit :=
  match ledger.find id with
  | .error fault => .failed ledger fault
  | .ok stop =>
    match stop.triggerPrice, stop.side with
    | some trigger, some side =>
      match ledger.leave .stops ⟨trigger, id⟩ with
      | .error fault => .failed ledger fault
      | .ok ledger =>
        let fired := ledger.put id { stop with triggered := true }
        let placed := match stop.limitPrice with
          | some limit => fired.enter side.indexKind ⟨limit, id⟩
          | none => fired
        ⟨placed, [.stopTriggered id price], .ok ()⟩
    | _, _ => .failed ledger (.notAStop id)

end Ledger

structure Executor where
  run : Ledger → OrderId → Outcome (List Trade)
  spends : ∀ ledger id, (run ledger id).Spends ledger

namespace Executor

def matching : Executor := ⟨Ledger.sweep, Ledger.spends_sweep⟩

def settling : Executor := ⟨Ledger.execute, Ledger.spends_execute⟩

end Executor

namespace Ledger

def fire (executor : Executor) (price : Price) (ledger : Ledger) : List OrderId → Outcome (List Trade)
  | [] => .done ledger []
  | id :: rest =>
    match ledger.find id with
    | .error fault => .failed ledger fault
    | .ok stop =>
      if stop.triggered then fire executor price ledger rest
      else
        (ledger.promote id price).andThen fun ledger _ =>
        (executor.run ledger id).andThen fun ledger trades =>
        (fire executor price ledger rest).map (trades ++ ·)

private theorem openUnits_promote {ledger next : Ledger} {id : OrderId} {price : Price}
    (promoted : (ledger.promote id price).Reaches next ()) : next.openUnits = ledger.openUnits := by
  unfold promote at promoted
  split at promoted
  · exact absurd promoted Outcome.not_reaches_failed
  rename_i stop found
  split at promoted
  · split at promoted
    · exact absurd promoted Outcome.not_reaches_failed
    · rename_i left
      obtain ⟨-, rfl⟩ := eq_of_leave left
      obtain ⟨rfl, -⟩ := promoted
      have marked : ∀ index, ((ledger.setIndex .stops index).put id { stop with triggered := true }).openUnits
          = ledger.openUnits := fun index => openUnits_put_of_remaining_eq (get?_of_find found) rfl
      cases stop.limitPrice with
      | none => exact marked _
      | some limit => exact (openUnits_setIndex _ _ _).trans (marked _)
  · exact absurd promoted Outcome.not_reaches_failed

private theorem spends_fire (executor : Executor) (price : Price) (ledger : Ledger) (ids : List OrderId) :
    (fire executor price ledger ids).Spends ledger := by
  intro next trades fired
  induction ids generalizing ledger trades with
  | nil =>
    obtain ⟨rfl, rfl⟩ := Outcome.reaches_done.mp fired
    exact Nat.le_refl _
  | cons id rest ih =>
    rw [fire] at fired
    split at fired
    · exact absurd fired Outcome.not_reaches_failed
    split at fired
    · exact ih _ _ fired
    · simp only [Outcome.reaches_andThen, Outcome.reaches_map] at fired
      obtain ⟨promoted, _, promotion, carried, own, run, others, later, rfl⟩ := fired
      have first := openUnits_promote promotion
      have second := executor.spends _ _ _ _ run
      have third := ih _ _ later
      rw [List.length_append]
      omega

def cascade (executor : Executor) (ledger : Ledger) : List Price → Outcome (List Trade)
  | [] => .done ledger []
  | price :: waiting =>
    match ledger.firedBy price with
    | .error fault => .failed ledger fault
    | .ok ids =>
      match _ : fire executor price ledger ids with
      | ⟨next, events, .error fault⟩ => ⟨next, events, .error fault⟩
      | ⟨next, events, .ok trades⟩ =>
        ((cascade executor next (waiting ++ trades.map Trade.price)).map (trades ++ ·)).after events
termination_by prices => ledger.openUnits + prices.length
decreasing_by
  have spent := spends_fire executor price ledger ids next trades
    ⟨congrArg Outcome.ledger ‹_›, congrArg Outcome.answer ‹_›⟩
  simp only [List.length_append, List.length_map, List.length_cons]
  omega

end Ledger
end LimitBook
