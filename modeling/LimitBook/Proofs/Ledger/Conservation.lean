import LimitBook.Proofs.Ledger.Moves
import LimitBook.Proofs.Trade

/-! Conservation. What an order no longer has left it has traded, as taker or as maker, in the trades that
the events report, and in no others. -/
namespace LimitBook

private theorem Event.remaining_effect {event : Event} (quiet : event.trade? = none) (order : Order) :
    (event.effect order).remaining = order.remaining := by
  unfold Event.effect
  split
  · cases quiet
  · split <;> rfl
  · split <;> rfl
  · rfl

private theorem Event.remaining_effects {events : List Event} (quiet : Event.trades events = []) (order : Order) :
    (Event.effects events order).remaining = order.remaining := by
  induction events generalizing order with
  | nil => rfl
  | cons event rest ih =>
    rw [Event.trades, List.filterMap_eq_nil_iff] at quiet
    have later := ih (List.filterMap_eq_nil_iff.mpr fun other member => quiet other (List.mem_cons_of_mem _ member))
    exact (later _).trans (remaining_effect (quiet event List.mem_cons_self) order)

namespace Ledger
variable {config : Config} {ledger next : Ledger} {before later carried : Option OrderId} {events : List Event}
  {id : OrderId} {order : Order}

private theorem Fair.remaining_effect {trade : Trade} {taker maker : Order} {side : Side}
    (fair : ledger.Fair trade taker maker side) (coherent : ledger.Coherent carried)
    (found : ledger.get? id = some order) :
    ((Event.matched trade).effect order).remaining.units + Trade.volumeOf id [trade] = order.remaining.units := by
  have numbered := coherent.numbered found
  rw [effect_matched, Trade.volumeOf_singleton, numbered]
  by_cases named : id = trade.taker ∨ id = trade.maker
  · have fits : trade.volume ≤ order.remaining := by
      rcases named with taking | making
      · obtain rfl := Option.some.inj (fair.takerFound.symm.trans (taking ▸ found))
        exact fair.volume_le_taker
      · obtain rfl := Option.some.inj (fair.makerFound.symm.trans (making ▸ found))
        exact fair.volume_le_maker
    rw [if_pos named, if_pos (Trade.names_iff.mpr named)]
    exact Nat.sub_add_cancel (Volume.le_iff_units.mp fits)
  · rw [if_neg named, if_neg (mt Trade.names_iff.mp named), Nat.add_zero]

/-- One move takes from what an order has left exactly what its event reports. -/
theorem Move.conserves (move : Move config ledger before events next later) (coherent : ledger.Coherent before)
    (found : ledger.get? id = some order) :
    ∃ rest, next.get? id = some rest ∧ rest.volume = order.volume
      ∧ rest.remaining.units + Trade.volumeOf id (Event.trades events) = order.remaining.units := by
  refine ⟨_, move.get?_eq_effects coherent found, (Order.GoesOn.effects events order).sameVolume, ?_⟩
  cases move with
  | trade fair => exact fair.remaining_effect coherent found
  | enrol | close => rfl
  | park | rest | discard | trigger | withdraw | ignore | reject =>
    exact congrArg Volume.units (Event.remaining_effects (by rfl) order)

theorem Moves.conserves (moves : Moves config ledger before events next later) (coherent : ledger.Coherent before)
    (found : ledger.get? id = some order) :
    ∃ rest, next.get? id = some rest ∧ rest.volume = order.volume
      ∧ rest.remaining.units + Trade.volumeOf id (Event.trades events) = order.remaining.units := by
  induction moves with
  | refl => exact ⟨order, found, rfl, rfl⟩
  | tail moves move ih =>
    obtain ⟨middle, there, sameVolume, early⟩ := ih coherent
    obtain ⟨rest, stored, alsoVolume, late⟩ := move.conserves (moves.coherent coherent) there
    refine ⟨rest, stored, alsoVolume.trans sameVolume, ?_⟩
    rw [Event.trades_append, Trade.volumeOf_append]
    omega

structure Accounted (ledger : Ledger) (trades : List Trade) : Prop where
  settled : ∀ {id order}, ledger.get? id = some order →
    order.remaining.units + Trade.volumeOf id trades = order.volume.units
  unknown : ∀ {id}, ledger.get? id = none → Trade.volumeOf id trades = 0
  paired : ∀ trade ∈ trades, trade.taker ≠ trade.maker ∧ (∃ order, ledger.get? trade.taker = some order)
    ∧ ∃ order, ledger.get? trade.maker = some order

private theorem accounted_empty : empty.Accounted [] where
  settled := by simp [get?, empty]
  unknown := fun _ => rfl
  paired := by simp

private theorem Move.paired (move : Move config ledger before events next later) {trade : Trade}
    (reported : trade ∈ Event.trades events) : trade.taker ≠ trade.maker
      ∧ (∃ order, ledger.get? trade.taker = some order) ∧ ∃ order, ledger.get? trade.maker = some order := by
  cases move with
  | trade fair =>
    obtain rfl := List.mem_singleton.mp reported
    exact ⟨fair.apart.symm, ⟨_, fair.takerFound⟩, ⟨_, fair.makerFound⟩⟩
  | enrol | close | park | rest | discard | trigger | withdraw | ignore | reject => cases reported

private theorem Move.keeps_record (move : Move config ledger before events next later)
    (coherent : ledger.Coherent before) (found : ∃ order, ledger.get? id = some order) :
    ∃ order, next.get? id = some order := by
  obtain ⟨order, found⟩ := found
  obtain ⟨rest, there, -⟩ := move.goesOn coherent found
  exact ⟨rest, there⟩

private theorem Move.unnamed (move : Move config ledger before events next later)
    (absent : ledger.get? id = none) : Trade.volumeOf id (Event.trades events) = 0 := by
  apply Trade.volumeOf_eq_zero
  intro trade reported named
  obtain ⟨-, taker, maker⟩ := move.paired reported
  rcases Trade.names_iff.mp named with rfl | rfl
  · simp [absent] at taker
  · simp [absent] at maker

-- A record that is new has all of its volume left.
private theorem Move.whole (move : Move config ledger before events next later) (coherent : ledger.Coherent before)
    (absent : ledger.get? id = none) (stored : next.get? id = some order) :
    order.remaining.units = order.volume.units := by
  rcases move.revises coherent with ⟨new, admissible, room, rfl, rfl⟩ | revises
  · rw [coherent.get?_admitted room] at stored
    split at stored
    · obtain rfl := Option.some.inj stored
      exact congrArg Volume.units admissible.whole
    · rw [absent] at stored
      cases stored
  · rw [revises.records, absent] at stored
    cases stored

theorem Move.accounted {trades : List Trade} (move : Move config ledger before events next later)
    (coherent : ledger.Coherent before) (accounted : ledger.Accounted trades) :
    next.Accounted (trades ++ Event.trades events) where
  settled := by
    intro id order stored
    rw [Trade.volumeOf_append]
    cases found : ledger.get? id with
    | some old =>
      obtain ⟨rest, there, sameVolume, kept⟩ := move.conserves coherent found
      obtain rfl := Option.some.inj (stored.symm.trans there)
      have earlier := accounted.settled found
      rw [sameVolume]
      omega
    | none =>
      rw [accounted.unknown found, move.unnamed found, move.whole coherent found stored]
      rfl
  unknown := by
    intro id absent
    have new : ledger.get? id = none := by
      cases found : ledger.get? id with
      | none => rfl
      | some order =>
        obtain ⟨rest, there⟩ := move.keeps_record coherent ⟨order, found⟩
        rw [there] at absent
        cases absent
    rw [Trade.volumeOf_append, accounted.unknown new, move.unnamed new]
  paired := by
    intro trade reported
    rcases List.mem_append.mp reported with earlier | now
    · obtain ⟨apart, taker, maker⟩ := accounted.paired trade earlier
      exact ⟨apart, move.keeps_record coherent taker, move.keeps_record coherent maker⟩
    · obtain ⟨apart, taker, maker⟩ := move.paired now
      exact ⟨apart, move.keeps_record coherent taker, move.keeps_record coherent maker⟩

/-- The trades that the events of a history report account for every order. -/
theorem Moves.accounted (moves : Moves config .empty none events next later) :
    next.Accounted (Event.trades events) := by
  generalize origin : Ledger.empty = start at moves
  generalize nobody : none = flying at moves
  induction moves with
  | refl =>
    subst origin
    exact accounted_empty
  | tail moves move ih =>
    subst origin nobody
    rw [Event.trades_append]
    exact move.accounted (moves.coherent coherent_empty) (ih rfl)

end Ledger
end LimitBook
