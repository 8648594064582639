import LimitBook.Proofs.Order
import LimitBook.Proofs.Ledger.Views

/-! Filling both ends of a trade. Whether the records permit a trade is settled before anything changes. Of a permitted
trade both ends are filled, and all that remains is to strike the entries of those that are executed by then. -/
namespace LimitBook

theorem Side.eq_opposite_of_ne {one other : Side} (apart : one ≠ other) : other = one.opposite := by
  cases one <;> cases other
  · exact absurd rfl apart
  · rfl
  · rfl
  · exact absurd rfl apart

theorem Side.indexKind_opposite_ne (side : Side) : side.opposite.indexKind ≠ side.indexKind := by cases side <;> decide

namespace Ledger
variable {ledger next : Ledger} {trade : Trade} {taker maker order : Order} {side : Side} {id : OrderId}

structure Permits (ledger : Ledger) (trade : Trade) (taker maker : Order) (side : Side) : Prop where
  takerFound : ledger.get? trade.taker = some taker
  makerFound : ledger.get? trade.maker = some maker
  takerSide : taker.side = some side
  makerSide : maker.side = some side.opposite
  positive : trade.volume ≠ 0
  takerHas : trade.volume ≤ taker.remaining
  makerHas : trade.volume ≤ maker.remaining
  within : ∀ limit, taker.limitPrice = some limit → side.within limit trade.price = true

theorem apart_of_sides (takerFound : ledger.get? trade.taker = some taker)
    (makerFound : ledger.get? trade.maker = some maker)
    (takerSide : taker.side = some side) (makerSide : maker.side = some side.opposite) : trade.maker ≠ trade.taker := by
  intro same
  rw [same, takerFound] at makerFound
  rw [← Option.some.inj makerFound, takerSide] at makerSide
  exact side.opposite_ne (Option.some.inj makerSide).symm

/-- The checks of a trade pass only if both records permit it. -/
theorem permits_of_ends {found : Ends} (agreed : ledger.ends trade = .ok found) :
    ledger.Permits trade found.taker found.maker found.takerSide ∧ found.makerSide = found.takerSide.opposite := by
  unfold ends at agreed
  cases takerFound : ledger.find trade.taker with
  | error fault => simp [takerFound, bind, Except.bind] at agreed
  | ok taker =>
    cases makerFound : ledger.find trade.maker with
    | error fault => simp [takerFound, makerFound, bind, Except.bind] at agreed
    | ok maker =>
      simp only [takerFound, makerFound, bind, Except.bind] at agreed
      split at agreed
      · cases agreed
      rename_i positive
      split at agreed
      · cases agreed
      rename_i fits
      rw [Volume.lt_iff_units, Volume.lt_iff_units, not_or, Nat.not_lt, Nat.not_lt] at fits
      split at agreed
      · rename_i side other takerSide makerSide
        split at agreed
        · cases agreed
        rename_i apart
        have opposed : other = side.opposite := Side.eq_opposite_of_ne apart
        subst opposed
        -- Whatever the limit of the taker is, the ends are these; it has to be met where there is one.
        have both : (∀ limit, taker.limitPrice = some limit → side.within limit trade.price = true)
            ∧ found = ⟨taker, side, maker, side.opposite⟩ := by
          split at agreed
          · rename_i limit limited
            split at agreed
            · rename_i meets
              refine ⟨fun other same => ?_, (Except.ok.inj agreed).symm⟩
              obtain rfl := Option.some.inj (limited.symm.trans same)
              exact meets
            · cases agreed
          · rename_i unlimited
            exact ⟨fun other same => by simp [unlimited] at same, (Except.ok.inj agreed).symm⟩
        obtain ⟨within, rfl⟩ := both
        exact ⟨⟨get?_of_find takerFound, get?_of_find makerFound, takerSide, makerSide, positive, fits.1,
          fits.2, within⟩, rfl⟩
      · cases agreed

private theorem Permits.ends_eq (permits : ledger.Permits trade taker maker side) :
    ledger.ends trade = .ok ⟨taker, side, maker, side.opposite⟩ := by
  have takes := Volume.le_iff_units.mp permits.takerHas
  have makes := Volume.le_iff_units.mp permits.makerHas
  have fits : ¬ (taker.remaining < trade.volume ∨ maker.remaining < trade.volume) := by
    rw [Volume.lt_iff_units, Volume.lt_iff_units]
    omega
  have sides : side ≠ side.opposite := side.opposite_ne.symm
  simp only [ends, find_of_get? permits.takerFound, find_of_get? permits.makerFound, bind, Except.bind,
    permits.positive, fits, if_false, permits.takerSide, permits.makerSide, sides]
  cases limited : taker.limitPrice with
  | none => rfl
  | some limit =>
    simp only [permits.within limit limited, if_true]
    rfl

private theorem fill_eq_put {volume : Volume} (found : ledger.get? id = some order) (positive : volume ≠ 0)
    (within : volume ≤ order.remaining) : ledger.fill id volume = .ok (ledger.put id (order.take volume)) := by
  simp only [fill, find_of_get? found, bind, Except.bind, Order.fill?_eq_take positive within]
  rfl

theorem change_andThen {α : Type} {changed : Except Fault Ledger} (happens : changed = .ok next)
    (later : Ledger → Unit → Outcome α) : (Outcome.change ledger changed).andThen later = later next () := by
  rw [happens]
  rfl

def filled (ledger : Ledger) (trade : Trade) (taker maker : Order) : Ledger :=
  { (ledger.put trade.taker (taker.take trade.volume)).put trade.maker (maker.take trade.volume) with
    lastPrice := some trade.price }

@[simp] theorem index_filled (ledger : Ledger) (trade : Trade) (taker maker : Order) (kind : IndexKind) :
    (ledger.filled trade taker maker).index kind = ledger.index kind := by
  change ((ledger.put trade.taker _).put trade.maker _).index kind = _
  rw [index_put, index_put]

theorem get?_filled_eq (takerFound : ledger.get? trade.taker = some taker)
    (makerFound : ledger.get? trade.maker = some maker) (apart : trade.maker ≠ trade.taker) (id : OrderId) :
    (ledger.filled trade taker maker).get? id = if id = trade.maker then some (maker.take trade.volume)
      else if id = trade.taker then some (taker.take trade.volume) else ledger.get? id := by
  have there : (ledger.put trade.taker (taker.take trade.volume)).get? trade.maker = some maker := by
    rw [get?_put takerFound, if_neg apart, makerFound]
  change ((ledger.put trade.taker _).put trade.maker _).get? id = _
  rw [get?_put there, get?_put takerFound]

namespace Permits

theorem apart (permits : ledger.Permits trade taker maker side) : trade.maker ≠ trade.taker :=
  apart_of_sides permits.takerFound permits.makerFound permits.takerSide permits.makerSide

theorem get?_taker (permits : ledger.Permits trade taker maker side) :
    (ledger.filled trade taker maker).get? trade.taker = some (taker.take trade.volume) := by
  rw [get?_filled_eq permits.takerFound permits.makerFound permits.apart, if_neg permits.apart.symm, if_pos rfl]

theorem get?_maker (permits : ledger.Permits trade taker maker side) :
    (ledger.filled trade taker maker).get? trade.maker = some (maker.take trade.volume) := by
  rw [get?_filled_eq permits.takerFound permits.makerFound permits.apart, if_pos rfl]

/-- What is left of a permitted trade once both ends are filled: striking those that are exhausted. No fill of
it fails. -/
theorem apply_eq_retire (permits : ledger.Permits trade taker maker side) :
    ledger.apply trade = (Outcome.change (ledger.filled trade taker maker)
      ((ledger.filled trade taker maker).retire trade.maker side.opposite maker.limitPrice true)).andThen
        fun struck _ => Outcome.change struck (struck.retire trade.taker side taker.limitPrice false) := by
  have there : (ledger.put trade.taker (taker.take trade.volume)).get? trade.maker = some maker := by
    rw [get?_put permits.takerFound, if_neg permits.apart, permits.makerFound]
  have takes := fill_eq_put permits.takerFound permits.positive permits.takerHas
  have makes := fill_eq_put there permits.positive permits.makerHas
  unfold apply
  rw [permits.ends_eq]
  exact (change_andThen takes _).trans (change_andThen makes _)

end Permits

/-- How the retirement of an order ends. Only one that is executed is struck, from where its limit put it; one without a
limit is in no index, which `rested` makes a fault. -/
inductive Retires (ledger : Ledger) (id : OrderId) (order : Order) (side : Side) (rested : Bool) :
    Except Fault Ledger → Prop
  | stays (unfilled : order.executed = false) : Retires ledger id order side rested (.ok ledger)
  | loose (executed : order.executed = true) (unlimited : order.limitPrice = none) (taking : rested = false) :
      Retires ledger id order side rested (.ok ledger)
  | struck {price : Price} (executed : order.executed = true) (limited : order.limitPrice = some price)
      (listed : (⟨price, id⟩ : Entry) ∈ ledger.index side.indexKind) :
      Retires ledger id order side rested
        (.ok (ledger.setIndex side.indexKind ((ledger.index side.indexKind).erase ⟨price, id⟩)))
  | unlimited (executed : order.executed = true) (unlimited : order.limitPrice = none) (resting : rested = true) :
      Retires ledger id order side rested (.error (.unlimitedMaker id))
  | missing {price : Price} (executed : order.executed = true) (limited : order.limitPrice = some price)
      (absent : (⟨price, id⟩ : Entry) ∉ ledger.index side.indexKind) :
      Retires ledger id order side rested (.error (.missingEntry ⟨price, id⟩ side.indexKind))

private theorem leave_of_not_mem {kind : IndexKind} {entry : Entry} (absent : entry ∉ ledger.index kind) :
    ledger.leave kind entry = .error (.missingEntry entry kind) := by
  have unlisted : entry ∉ (ledger.index kind).toList := absent
  simp only [leave, PriceIndex.remove?, unlisted, if_false]

theorem retires (found : ledger.get? id = some order) (side : Side) (rested : Bool) :
    ledger.Retires id order side rested (ledger.retire id side order.limitPrice rested) := by
  simp only [retire, find_of_get? found, bind, Except.bind]
  cases executed : order.executed with
  | false => exact .stays executed
  | true =>
    cases limited : order.limitPrice with
    | none =>
      cases rested with
      | false => exact .loose executed limited rfl
      | true => exact .unlimited executed limited rfl
    | some price =>
      by_cases listed : (⟨price, id⟩ : Entry) ∈ ledger.index side.indexKind
      · simp only [if_true, leave_of_mem listed]
        exact .struck executed limited listed
      · simp only [if_true, leave_of_not_mem listed]
        exact .missing executed limited listed

end Ledger
end LimitBook
