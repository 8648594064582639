import LimitBook.Proofs.Ledger.Coherence
import LimitBook.Proofs.Ledger.Filling

/-! What the operations do to a coherent ledger. A fair trade, a stop that fires and an open order that
is withdrawn go through without a fault, and rewrite the records as their events say. -/
namespace LimitBook.Ledger

variable {ledger : Ledger} {carried : Option OrderId}

structure Fair (ledger : Ledger) (trade : Trade) (taker maker : Order) (side : Side) : Prop where
  takerFound : ledger.get? trade.taker = some taker
  makerFound : ledger.get? trade.maker = some maker
  takerActive : taker.isActive = true
  makerActive : maker.isActive = true
  takerSide : taker.side = some side
  makerSide : maker.side = some side.opposite
  price : maker.limitPrice = some trade.price
  within : ∀ limit, taker.limitPrice = some limit → side.within limit trade.price = true
  volume : trade.volume = min taker.remaining maker.remaining

namespace Fair
variable {trade : Trade} {taker maker : Order} {side : Side}

theorem apart (fair : ledger.Fair trade taker maker side) : trade.maker ≠ trade.taker :=
  apart_of_sides fair.takerFound fair.makerFound fair.takerSide fair.makerSide

theorem volume_le_taker (fair : ledger.Fair trade taker maker side) : trade.volume ≤ taker.remaining := by
  rw [fair.volume, Volume.le_iff_units, Volume.units_min]
  exact Nat.min_le_left _ _

theorem volume_le_maker (fair : ledger.Fair trade taker maker side) : trade.volume ≤ maker.remaining := by
  rw [fair.volume, Volume.le_iff_units, Volume.units_min]
  exact Nat.min_le_right _ _

theorem exhausts (fair : ledger.Fair trade taker maker side) :
    taker.remaining = trade.volume ∨ maker.remaining = trade.volume := by
  have least := Volume.units_min taker.remaining maker.remaining
  rw [← fair.volume] at least
  rcases Nat.le_total taker.remaining.units maker.remaining.units with below | above
  · exact .inl (Volume.ext (by omega))
  · exact .inr (Volume.ext (by omega))

theorem volume_ne_zero (fair : ledger.Fair trade taker maker side) (coherent : ledger.Coherent carried) :
    trade.volume ≠ 0 := by
  have takes := Order.remaining_pos (coherent.regular fair.takerFound) fair.takerActive
  have makes := Order.remaining_pos (coherent.regular fair.makerFound) fair.makerActive
  rw [Ne, Volume.eq_zero_iff] at takes makes ⊢
  rw [fair.volume, Volume.units_min]
  omega

/-- The records permit a fair trade of some volume, whatever the indexes say. -/
theorem permits (fair : ledger.Fair trade taker maker side) (positive : trade.volume ≠ 0) :
    ledger.Permits trade taker maker side where
  takerFound := fair.takerFound
  makerFound := fair.makerFound
  takerSide := fair.takerSide
  makerSide := fair.makerSide
  positive := positive
  takerHas := fair.volume_le_taker
  makerHas := fair.volume_le_maker
  within := fair.within

end Fair

def release (ledger : Ledger) (order : Order) (exhausted : Bool) : Ledger :=
  if exhausted then ledger.delist order else ledger

section Release
variable (ledger : Ledger) (order : Order) (exhausted : Bool)

@[simp] theorem orders_release : (ledger.release order exhausted).orders = ledger.orders := by
  unfold release
  split <;> simp

@[simp] theorem nextId_release : (ledger.release order exhausted).nextId = ledger.nextId := by
  unfold release
  split <;> simp

@[simp] theorem cancelled_release : (ledger.release order exhausted).cancelled = ledger.cancelled := by
  unfold release
  split <;> simp

@[simp] theorem lastPrice_release : (ledger.release order exhausted).lastPrice = ledger.lastPrice := by
  unfold release
  split <;> simp

@[simp] theorem get?_release (id : OrderId) : (ledger.release order exhausted).get? id = ledger.get? id := by
  simp only [get?, orders_release]

end Release

theorem mem_release {order : Order} {exhausted : Bool} {kind : IndexKind} {entry : Entry} :
    entry ∈ (ledger.release order exhausted).index kind ↔ entry ∈ ledger.index kind
      ∧ ¬ (exhausted = true ∧ entry.id = order.id ∧ order.place = some (kind, entry.price)) := by
  unfold release
  split
  · rename_i done
    simp [mem_delist, done]
  · rename_i left
    simp [left]

private theorem retire_eq_release {id : OrderId} {before after : Order} {side : Side} {rested : Bool}
    (found : ledger.get? id = some after) (numbered : before.id = id) (active : before.isActive = true)
    (sided : before.side = some side) (limited : rested = true → before.limitPrice ≠ none)
    (listed : ∀ kind price, before.place = some (kind, price) → (⟨price, id⟩ : Entry) ∈ ledger.index kind) :
    ledger.retire id side before.limitPrice rested = .ok (ledger.release before after.executed) := by
  have placed := Order.place_of_active active sided
  simp only [retire, find_of_get? found, bind, Except.bind, release]
  split
  · cases given : before.limitPrice with
    | some price =>
      rw [given] at placed
      simp only [leave_of_mem (listed _ _ placed), delist, placed, numbered, Option.map_some]
    | none =>
      rw [given] at placed
      -- Makers rest at a limit, so that only a taker comes without one.
      have loose : rested = false := by
        rw [← Bool.not_eq_true]
        exact fun resting => limited resting given
      simp only [loose, delist, placed, Option.map_none, Bool.false_eq_true, if_false]
      rfl
  · rfl

theorem effect_matched {trade : Trade} {order : Order} :
    (Event.matched trade).effect order =
      if order.id = trade.taker ∨ order.id = trade.maker then order.take trade.volume else order := rfl

def exchanged (ledger : Ledger) (trade : Trade) (taker maker : Order) : Ledger :=
  ((ledger.filled trade taker maker).release maker (maker.take trade.volume).executed).release taker
    (taker.take trade.volume).executed

namespace Fair
variable {trade : Trade} {taker maker : Order} {side : Side}

private theorem get?_filled (fair : ledger.Fair trade taker maker side) (coherent : ledger.Coherent carried)
    (id : OrderId) :
    (ledger.filled trade taker maker).get? id = (ledger.get? id).map (Event.matched trade).effect := by
  rw [get?_filled_eq fair.takerFound fair.makerFound fair.apart]
  by_cases making : id = trade.maker
  · subst making
    simp [fair.makerFound, effect_matched, coherent.numbered fair.makerFound]
  by_cases taking : id = trade.taker
  · subst taking
    simp [making, fair.takerFound, effect_matched, coherent.numbered fair.takerFound]
  rw [if_neg making, if_neg taking]
  cases found : ledger.get? id with
  | none => rfl
  | some order => simp [effect_matched, coherent.numbered found, making, taking]

theorem apply_eq (fair : ledger.Fair trade taker maker side) (coherent : ledger.Coherent carried) :
    ledger.apply trade = .done (ledger.exchanged trade taker maker) () := by
  have takerId := coherent.numbered fair.takerFound
  have makerId := coherent.numbered fair.makerFound
  have permits := fair.permits (fair.volume_ne_zero coherent)
  have makerRetires : (ledger.filled trade taker maker).retire trade.maker side.opposite maker.limitPrice true = _ :=
    retire_eq_release permits.get?_maker makerId fair.makerActive fair.makerSide (fun _ => by simp [fair.price])
      (fun kind price placed => by
        rw [index_filled]
        exact coherent.listed.mpr ⟨maker, fair.makerFound, placed⟩)
  -- The maker's entry is gone by now if it had to go; the taker's is another one.
  have takerRetires : ((ledger.filled trade taker maker).release maker (maker.take trade.volume).executed).retire
      trade.taker side taker.limitPrice false = _ :=
    retire_eq_release ((get?_release ..).trans permits.get?_taker) takerId fair.takerActive fair.takerSide nofun
      (fun kind price placed => by
        rw [mem_release, index_filled, makerId]
        exact ⟨coherent.listed.mpr ⟨taker, fair.takerFound, placed⟩, fun struck => fair.apart struck.2.1.symm⟩)
  rw [permits.apply_eq_retire]
  exact (change_andThen makerRetires _).trans (congrArg (Outcome.change _) takerRetires)

private theorem place_effect (fair : ledger.Fair trade taker maker side) (coherent : ledger.Coherent carried)
    {kind : IndexKind} {entry : Entry} {order : Order} (found : ledger.get? entry.id = some order) :
    ((Event.matched trade).effect order).place = some (kind, entry.price)
      ↔ order.place = some (kind, entry.price)
        ∧ ¬ ((maker.take trade.volume).executed = true ∧ entry.id = maker.id
          ∧ maker.place = some (kind, entry.price))
        ∧ ¬ ((taker.take trade.volume).executed = true ∧ entry.id = taker.id
          ∧ taker.place = some (kind, entry.price)) := by
  rw [effect_matched, coherent.numbered found, coherent.numbered fair.makerFound,
    coherent.numbered fair.takerFound]
  by_cases making : entry.id = trade.maker
  · have same : maker = order := Option.some.inj (fair.makerFound.symm.trans (making ▸ found))
    subst same
    simp only [making, or_true, if_true, Order.place_take fair.makerActive]
    cases (maker.take trade.volume).executed <;> simp [fair.apart]
  by_cases taking : entry.id = trade.taker
  · have same : taker = order := Option.some.inj (fair.takerFound.symm.trans (taking ▸ found))
    subst same
    simp only [taking, true_or, if_true, Order.place_take fair.takerActive]
    cases (taker.take trade.volume).executed <;> simp [fair.apart.symm]
  · simp [making, taking]

theorem revises (fair : ledger.Fair trade taker maker side) (coherent : ledger.Coherent carried) :
    ledger.Revises (Event.matched trade).effect (some trade.price) (ledger.exchanged trade taker maker) where
  size := by simp [exchanged, filled]
  nextId := by simp [exchanged, filled]
  records := by
    intro id
    rw [exchanged, get?_release, get?_release, fair.get?_filled coherent]
  entries := by
    intro kind entry
    rw [exchanged, mem_release, mem_release, index_filled, coherent.listed]
    cases found : ledger.get? entry.id with
    | none => simp
    | some order =>
      simp only [Option.some.injEq, exists_eq_left', fair.place_effect coherent found]
      exact and_assoc
  withdrawn := by
    intro id
    simp only [exchanged, cancelled_release, filled, cancelled_put, coherent.withdrawn]
    have same : ∀ order : Order, ((Event.matched trade).effect order).cancelled = order.cancelled := by
      intro order
      rw [effect_matched]
      split <;> rfl
    simp only [same]
  lastPrice := by simp [exchanged, filled]

theorem get?_taker (fair : ledger.Fair trade taker maker side) (coherent : ledger.Coherent carried) :
    (ledger.exchanged trade taker maker).get? trade.taker = some (taker.take trade.volume) := by
  rw [(fair.revises coherent).records, fair.takerFound, Option.map_some, effect_matched,
    coherent.numbered fair.takerFound, if_pos (.inl rfl)]

/-- After a fair trade the ledger is coherent again. -/
theorem coherent_exchanged (fair : ledger.Fair trade taker maker side) (coherent : ledger.Coherent carried) :
    (ledger.exchanged trade taker maker).Coherent carried := by
  have active : ∀ {id order}, ledger.get? id = some order →
      order.id = trade.taker ∨ order.id = trade.maker → order.isActive = true := by
    rintro id order found (taking | making)
    · rw [coherent.numbered found] at taking
      rw [taking, fair.takerFound] at found
      exact Option.some.inj found ▸ fair.takerActive
    · rw [coherent.numbered found] at making
      rw [making, fair.makerFound] at found
      exact Option.some.inj found ▸ fair.makerActive
  refine coherent.revised (fair.revises coherent) (Order.id_effect _) ?_ ?_
  · intro id order found
    rw [effect_matched]
    split
    · rename_i named
      exact (coherent.regular found).take (active found named) trade.volume
    · exact coherent.regular found
  · intro id order found
    rw [effect_matched]
    split
    · rename_i named
      exact fun _ unlimited => coherent.limited found (active found named) unlimited
    · exact coherent.limited found

end Fair

theorem delist_of_unplaced {order : Order} (unplaced : order.place = none) : ledger.delist order = ledger := by
  rw [delist, unplaced]

section Dismissal
variable {id : OrderId} {order : Order}

theorem unlist_eq_delist (coherent : ledger.Coherent carried) (found : ledger.get? id = some order)
    (trades : order.isCancel = false) (unfilled : order.executed = false) (live : order.cancelled = false) :
    ledger.unlist id order = .ok (ledger.delist order) := by
  have sided := (coherent.regular found).sided trades
  cases pending : order.isPending with
  | true =>
    obtain ⟨stop, waiting, -⟩ := Order.isPending_iff.mp pending
    obtain ⟨trigger, given⟩ := Order.triggerPrice_of_isStop stop
    have placed := Order.place_eq_stops_iff.mpr ⟨pending, given⟩
    simp only [unlist, given, waiting]
    exact coherent.leave_eq_delist found placed
  | false =>
    have fired : order.isStop = true → order.triggered = true := by
      intro stop
      cases waiting : order.triggered with
      | true => rfl
      | false => exact absurd (Order.isPending_iff.mpr ⟨stop, waiting, live⟩) (by simp [pending])
    have active := Order.isActive_iff.mpr ⟨live, unfilled, trades, fired⟩
    obtain ⟨side, own⟩ := Option.ne_none_iff_exists'.mp sided
    have placed := Order.place_of_active active own
    cases limited : order.limitPrice with
    | some limit =>
      rw [limited] at placed
      have leaves : ledger.unlist id order = ledger.leave side.indexKind ⟨limit, id⟩ := by
        cases given : order.triggerPrice with
        | none => simp only [unlist, given, own, limited]
        | some trigger => simp only [unlist, given, fired (Order.isStop_of_triggerPrice given), own, limited]
      rw [leaves]
      exact coherent.leave_eq_delist found placed
    | none =>
      rw [limited] at placed
      have stays : ledger.unlist id order = .ok ledger := by
        cases given : order.triggerPrice with
        | none => simp only [unlist, given, own, limited]
        | some trigger => simp only [unlist, given, fired (Order.isStop_of_triggerPrice given), own, limited]
      rw [stays, delist_of_unplaced placed]

theorem discard_revises (coherent : ledger.Coherent carried) (found : ledger.get? id = some order)
    (reason : CancelReason) : ledger.Revises (Event.cancelled id reason).effect ledger.lastPrice
      ((ledger.delist order).discard id order) := by
  have still : (ledger.delist order).get? id = some order := by rw [get?_delist, found]
  have marked : (ledger.delist order).discard id order
      = { (ledger.delist order).put id order.withdraw with
          cancelled := ((ledger.delist order).put id order.withdraw).cancelled.insert id } := rfl
  have revises : ledger.Revises (Order.changedAt id Order.withdraw) ledger.lastPrice
      ((ledger.delist order).discard id order) := by
    refine coherent.revises_at found (by simp [discard]) (by simp [discard]) ?_ ?_ ?_ (by simp [discard])
    · intro other
      change ((ledger.delist order).put id order.withdraw).get? other = _
      rw [get?_put still, get?_delist]
    · intro kind entry
      rw [index_discard, coherent.mem_delist found, Order.place_withdraw]
      split <;> simp_all
    · intro other
      rw [marked, SortedSet.mem_insert, cancelled_put, cancelled_delist]
      split <;> simp_all
  exact revises

/-- Withdrawing an order that has not been filled leaves a coherent ledger, with nothing in flight. -/
theorem coherent_discard (coherent : ledger.Coherent carried) (found : ledger.get? id = some order)
    (trades : order.isCancel = false) (unfilled : order.executed = false)
    (only : ∀ other, carried = some other → other = id) :
    ((ledger.delist order).discard id order).Coherent none := by
  refine coherent.revised_at found (discard_revises coherent found .requested) (fun _ => rfl)
    ((coherent.regular found).withdraw trades unfilled) ?_ ?_
  · intro active
    exact absurd (Order.isActive_iff.mp active).1 (by simp)
  · intro other apart flying
    exact apart (only other flying)

end Dismissal

section Promotion
variable {id : OrderId} {stop : Order}

def promoted (ledger : Ledger) (id : OrderId) (stop : Order) : Ledger :=
  ((ledger.delist stop).put id stop.fire).enlist stop.fire

theorem isActive_of_fired (regular : stop.Regular) (pending : stop.isPending = true) :
    stop.fire.isActive = true := by
  obtain ⟨isStop, -, live⟩ := Order.isPending_iff.mp pending
  exact Order.isActive_iff.mpr
    ⟨live, regular.executed_of_isPending pending, Order.isCancel_of_isStop isStop, fun _ => rfl⟩

theorem promote_eq (coherent : ledger.Coherent carried) (found : ledger.get? id = some stop)
    (pending : stop.isPending = true) (price : Price) :
    ledger.promote id price = ⟨ledger.promoted id stop, [.stopTriggered id price], .ok ()⟩ := by
  obtain ⟨isStop, -, -⟩ := Order.isPending_iff.mp pending
  obtain ⟨trigger, given⟩ := Order.triggerPrice_of_isStop isStop
  obtain ⟨side, sided⟩ := Option.ne_none_iff_exists'.mp
    ((coherent.regular found).sided (Order.isCancel_of_isStop isStop))
  have active := isActive_of_fired (coherent.regular found) pending
  have numbered : stop.fire.id = id := (Order.id_fire stop).trans (coherent.numbered found)
  unfold promote
  rw [find_of_get? found]
  dsimp only
  split
  · rename_i own ownSide given' sided'
    have leaves := coherent.leave_eq_delist found (Order.place_eq_stops_iff.mpr ⟨pending, given'⟩)
    have placed : stop.fire.place = stop.limitPrice.map fun limit => (ownSide.indexKind, limit) :=
      Order.place_of_active active sided'
    rw [leaves, promoted, enlist, placed, numbered]
    cases stop.limitPrice <;> rfl
  · rename_i lacking
    exact absurd sided (lacking trigger side given)

theorem effect_stopTriggered {price : Price} {order : Order} :
    (Event.stopTriggered id price).effect order = if order.id = id then order.fire else order := rfl

theorem promoted_revises (coherent : ledger.Coherent carried) (found : ledger.get? id = some stop)
    (price : Price) :
    ledger.Revises (Event.stopTriggered id price).effect ledger.lastPrice (ledger.promoted id stop) := by
  have still : (ledger.delist stop).get? id = some stop := by rw [get?_delist, found]
  have revises : ledger.Revises (Order.changedAt id Order.fire) ledger.lastPrice (ledger.promoted id stop) := by
    refine coherent.revises_at found (by simp [promoted]) (by simp [promoted]) ?_ ?_ ?_ (by simp [promoted])
    · intro other
      rw [promoted, get?_enlist, get?_put still, get?_delist]
    · intro kind entry
      rw [promoted, mem_enlist, index_put, coherent.mem_delist found, Order.id_fire, coherent.numbered found]
      split <;> simp_all
    · intro other
      have unmarked : id ∈ ledger.cancelled ↔ stop.fire.cancelled = true := by
        rw [coherent.withdrawn]
        simp [found, Order.fire]
      rw [promoted, cancelled_enlist, cancelled_put, cancelled_delist]
      split <;> simp_all
  exact revises

theorem coherent_promoted (coherent : ledger.Coherent none) (found : ledger.get? id = some stop)
    (pending : stop.isPending = true) : (ledger.promoted id stop).Coherent (some id) := by
  obtain ⟨isStop, -, -⟩ := Order.isPending_iff.mp pending
  refine coherent.revised_at found (promoted_revises coherent found 0) (fun _ => rfl)
    ((coherent.regular found).fire isStop) (fun _ _ => rfl) ?_
  intro other apart flying
  cases flying

end Promotion

end LimitBook.Ledger
