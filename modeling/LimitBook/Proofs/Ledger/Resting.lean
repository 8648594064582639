import LimitBook.Proofs.Ledger.Levels

/-! What rests in a ledger, read off the records alone: the open orders of a side, their limits, how much rests
at each of them, and the stops that wait. In a coherent ledger that is what the indexes show. -/
namespace LimitBook

section Fixed
variable {places : Nat}

instance : Trans (α := Fixed places) (· < ·) (· < ·) (· < ·) := ⟨Int.lt_trans⟩

instance : Std.Irrefl (α := Fixed places) (· < ·) := ⟨fun number => Int.lt_irrefl number.raw⟩

instance : Std.Trichotomous (α := Fixed places) (· < ·) := ⟨fun left right notBelow notAbove => by
  rw [Fixed.lt_iff_raw] at notBelow notAbove
  exact Fixed.ext (by omega)⟩

end Fixed

namespace Order

def entry? (kind : IndexKind) (order : Order) : Option Entry :=
  match order.place with
  | some (other, price) => if other = kind then some ⟨price, order.id⟩ else none
  | none => none

def holding? (order : Order) : Option Quantity := order.limitPrice.map fun price => (price, order.remaining.units)

private theorem entry?_eq_some_iff {order : Order} {kind : IndexKind} {entry : Entry} :
    order.entry? kind = some entry ↔ order.place = some (kind, entry.price) ∧ order.id = entry.id := by
  unfold entry?
  cases order.place with
  | none => simp
  | some place => simp [Entry.ext_iff, Prod.ext_iff, and_assoc]

end Order

private theorem Quantity.unitsAt_holdings {price : Price} {orders : List Order} :
    unitsAt price (orders.filterMap Order.holding?)
    = ((orders.filter fun order => order.limitPrice = some price).map fun order => order.remaining.units).sum := by
  induction orders with
  | nil => rfl
  | cons order rest ih =>
    rw [List.filterMap_cons, List.filter_cons]
    cases limited : order.limitPrice with
    | none => simpa [Order.holding?, limited] using ih
    | some limit =>
      simp only [Order.holding?, limited, Option.map_some, unitsAt_cons, Option.some.injEq, decide_eq_true_eq]
      split <;> simp [ih]

namespace Ledger

def records (ledger : Ledger) : List Order := ledger.orders.toList.filter fun order => order.id.isAssigned

def resting (ledger : Ledger) (side : Side) : List Order :=
  ledger.records.filter fun order => order.isActive && order.side = some side

def waiting (ledger : Ledger) : List Order := ledger.records.filter Order.isPending

def limits (ledger : Ledger) (side : Side) : List Price :=
  let ascending := (SortedSet.ofList ((ledger.resting side).filterMap Order.limitPrice)).toList
  if side = .buy then ascending.reverse else ascending

def restingAt (ledger : Ledger) (side : Side) (price : Price) : Nat :=
  (((ledger.resting side).filter fun order => order.limitPrice = some price).map fun order => order.remaining.units).sum

def restingUnits (ledger : Ledger) (side : Side) : Nat :=
  ((ledger.resting side).map fun order => order.remaining.units).sum

def levels (ledger : Ledger) (side : Side) : List Level :=
  (ledger.limits side).map fun price => ⟨price, .capped (ledger.restingAt side price)⟩

variable {ledger : Ledger} {carried : Option OrderId} {side : Side}

theorem mem_limits {price : Price} :
    price ∈ ledger.limits side ↔ ∃ order ∈ ledger.resting side, order.limitPrice = some price := by
  rw [← List.mem_filterMap, limits]
  split
  · exact List.mem_reverse.trans SortedSet.mem_ofList
  · exact SortedSet.mem_ofList

theorem pairwise_limits : (ledger.limits side).Pairwise side.leads := by
  unfold limits
  cases side with
  | buy => exact List.pairwise_reverse.mpr (SortedSet.ascending _)
  | sell => exact SortedSet.ascending _

private theorem Coherent.records_eq (coherent : ledger.Coherent carried) : ledger.records = ledger.orders.toList := by
  refine List.filter_eq_self.mpr fun order stored => ?_
  have positive := ne_unassigned_of_get? (coherent.mem_orders_iff.mp stored)
  simpa [OrderId.isAssigned] using positive

private theorem Coherent.perm_entries (coherent : ledger.Coherent carried) (kind : IndexKind) :
    (ledger.index kind).toList.Perm (ledger.orders.toList.filterMap (Order.entry? kind)) := by
  have once : (ledger.orders.toList.filterMap (Order.entry? kind)).Nodup := by
    refine List.pairwise_filterMap.mpr (coherent.pairwise_orders.imp fun apart left one right two same => apart ?_)
    rw [(Order.entry?_eq_some_iff.mp one).2, (Order.entry?_eq_some_iff.mp two).2, same]
  refine (List.perm_ext_iff_of_nodup (SortedSet.ascending _).nodup once).mpr fun entry => ?_
  rw [← SortedSet.mem_iff, coherent.listed, List.mem_filterMap]
  constructor
  · rintro ⟨order, found, placed⟩
    have own := coherent.numbered found
    exact ⟨order, coherent.mem_orders_iff.mpr (own ▸ found), Order.entry?_eq_some_iff.mpr ⟨placed, own⟩⟩
  · rintro ⟨order, stored, listed⟩
    obtain ⟨placed, own⟩ := Order.entry?_eq_some_iff.mp listed
    exact ⟨order, own ▸ coherent.mem_orders_iff.mp stored, placed⟩

private theorem Coherent.perm_quantities (coherent : ledger.Coherent carried) (side : Side) :
    ((ledger.index side.indexKind).toList.map ledger.quantity).Perm
      ((ledger.resting side).filterMap Order.holding?) := by
  refine ((coherent.perm_entries side.indexKind).map ledger.quantity).trans (.of_eq ?_)
  rw [List.map_filterMap, resting, coherent.records_eq, List.filterMap_filter]
  refine List.filterMap_congr fun order stored => ?_
  have found := coherent.mem_orders_iff.mp stored
  apply Option.ext
  intro quantity
  simp only [Option.map_eq_some_iff, Order.entry?_eq_some_iff, Order.place_eq_side_iff, Option.ite_none_right_eq_some,
    Order.holding?, Bool.and_eq_true, decide_eq_true_eq]
  constructor
  · rintro ⟨entry, ⟨⟨active, sided, limited⟩, own⟩, rfl⟩
    rw [own] at found
    exact ⟨⟨active, sided⟩, entry.price, limited, (quantity_of_get? found).symm⟩
  · rintro ⟨⟨active, sided⟩, price, limited, rfl⟩
    exact ⟨⟨price, order.id⟩, ⟨⟨active, sided, limited⟩, rfl⟩, quantity_of_get? found⟩

private theorem Coherent.limited_of_resting (coherent : ledger.Coherent none) {order : Order}
    (rests : order ∈ ledger.resting side) :
    ∃ price, order.limitPrice = some price := by
  obtain ⟨stored, may⟩ := List.mem_filter.mp rests
  rw [coherent.records_eq] at stored
  rw [Bool.and_eq_true] at may
  by_contra unlimited
  rw [← Option.ne_none_iff_exists', not_not] at unlimited
  cases coherent.limited (coherent.mem_orders_iff.mp stored) may.1 unlimited

def walked (ledger : Ledger) (side : Side) : List Quantity :=
  ((ledger.index side.indexKind).walk (side = .buy)).map ledger.quantity

private theorem Coherent.perm_walked (coherent : ledger.Coherent carried) :
    (ledger.walked side).Perm ((ledger.resting side).filterMap Order.holding?) := by
  refine List.Perm.trans (List.Perm.map _ ?_) (coherent.perm_quantities side)
  unfold PriceIndex.walk
  split
  · exact List.reverse_perm _
  · rfl

private theorem sorted_walked : Quantity.Sorted side (ledger.walked side) := by
  have ascending : (ledger.index side.indexKind).toList.Pairwise
      fun left right => left.price.raw ≤ right.price.raw := by
    refine (ledger.index side.indexKind).ascending.imp fun below => ?_
    rcases Entry.lt_iff.mp below with lower | ⟨same, -⟩
    · exact Int.le_of_lt lower
    · exact Int.le_of_eq same
  unfold walked PriceIndex.walk
  refine List.pairwise_map.mpr ?_
  cases side with
  | buy => exact List.pairwise_reverse.mpr (ascending.imp fun order => by simpa [Side.leads_iff, quantity] using order)
  | sell => exact ascending.imp fun order => by simpa [Side.leads_iff, quantity] using order

private theorem Coherent.prices_tally (coherent : ledger.Coherent carried) :
    (Quantity.tally (ledger.walked side)).map Prod.fst = ledger.limits side := by
  refine (Quantity.pairwise_tally sorted_walked).eq_of_mem_iff pairwise_limits fun price => ?_
  rw [Quantity.mem_tally, (coherent.perm_walked.map Prod.fst).mem_iff, mem_limits, List.map_filterMap,
    List.mem_filterMap]
  simp [Order.holding?]

theorem Coherent.levels_eq (coherent : ledger.Coherent carried) :
    (Quantity.tally (ledger.walked side)).map Quantity.level = ledger.levels side := by
  rw [levels, ← coherent.prices_tally, List.map_map]
  refine List.map_congr_left fun quantity member => ?_
  have all := Quantity.units_of_mem_tally sorted_walked member
  rw [Quantity.level, all, Quantity.unitsAt, ((coherent.perm_walked.filter _).map _).sum_eq, ← Quantity.unitsAt,
    Quantity.unitsAt_holdings]
  rfl

theorem Coherent.depth_eq_take (coherent : ledger.Coherent carried) (side : Side) (limit : Nat) :
    ledger.depth side limit = .ok ((ledger.levels side).take limit) := by
  rw [depth, gather_eq_take, ← coherent.levels_eq, walked]
  intro entry member
  obtain ⟨order, found, -⟩ := coherent.listed.mp (PriceIndex.mem_walk.mp member)
  exact ⟨order, found⟩

theorem Coherent.bestPrice_eq (coherent : ledger.Coherent carried) (side : Side) :
    (ledger.index side.indexKind).bestPrice (side = .buy) = (ledger.limits side).head? := by
  rw [← coherent.prices_tally, List.head?_map, Quantity.head?_tally, walked, PriceIndex.bestPrice,
    List.head?_map, Option.map_map]
  rfl

private theorem Coherent.totalVolume_levels (coherent : ledger.Coherent none) (side : Side) :
    Snapshot.totalVolume (ledger.levels side) = .capped (ledger.restingUnits side) := by
  have all : ((Quantity.tally (ledger.walked side)).map Prod.snd).sum = ledger.restingUnits side := by
    rw [Quantity.sum_tally, (coherent.perm_walked.map Prod.snd).sum_eq, restingUnits, List.map_filterMap,
      ← List.filterMap_eq_map]
    refine congrArg List.sum (List.filterMap_congr fun order rests => ?_)
    obtain ⟨price, limited⟩ := coherent.limited_of_resting rests
    simp [Order.holding?, limited]
  have total := Quantity.foldl_capped ((Quantity.tally (ledger.walked side)).map Prod.snd) 0
  rw [List.foldl_map, List.foldl_map, Nat.zero_add] at total
  rw [← coherent.levels_eq, ← all, Snapshot.totalVolume, List.foldl_map]
  exact total

private theorem Coherent.size_stops (coherent : ledger.Coherent carried) :
    ledger.stops.size = ledger.waiting.length := by
  change (ledger.index .stops).toList.length = _
  rw [(coherent.perm_entries .stops).length_eq, List.length_filterMap_eq_countP, waiting, coherent.records_eq,
    ← List.countP_eq_length_filter]
  refine List.countP_congr fun order _ => ?_
  rw [Option.isSome_iff_exists]
  simp only [Order.entry?_eq_some_iff, Order.place_eq_stops_iff]
  constructor
  · rintro ⟨entry, ⟨pending, -⟩, -⟩
    exact pending
  · intro pending
    obtain ⟨trigger, given⟩ := Order.triggerPrice_of_isStop (Order.isPending_iff.mp pending).1
    exact ⟨⟨trigger, order.id⟩, ⟨pending, given⟩, rfl⟩

structure Tallied (ledger : Ledger) : Prop where
  limited : ∀ side, ∀ order ∈ ledger.resting side, ∃ price, order.limitPrice = some price
  depth : ∀ side limit, ledger.depth side limit = .ok ((ledger.levels side).take limit)
  best : ∀ side, (ledger.index side.indexKind).bestPrice (side = .buy) = (ledger.limits side).head?
  total : ∀ side, Snapshot.totalVolume (ledger.levels side) = .capped (ledger.restingUnits side)
  stops : ledger.stops.size = ledger.waiting.length
  few : ledger.stops.size < 0x1_0000_0000_0000_0000

theorem Coherent.tallied (coherent : ledger.Coherent none) : ledger.Tallied where
  limited := fun _ _ => coherent.limited_of_resting
  depth := coherent.depth_eq_take
  best := coherent.bestPrice_eq
  total := coherent.totalVolume_levels
  stops := coherent.size_stops
  few := by
    rw [coherent.size_stops, waiting, coherent.records_eq]
    exact Nat.lt_of_le_of_lt (List.length_filter_le ..) coherent.bounded

private theorem Alike.depth_eq {full : Ledger} (alike : ledger.Alike full) (side : Side) (limit : Nat) :
    ledger.depth side limit = full.depth side limit := by
  have same : ∀ entries begun, ledger.gather limit begun entries = full.gather limit begun entries := by
    intro entries
    induction entries with
    | nil => exact fun _ => rfl
    | cons entry rest ih =>
      intro begun
      simp only [gather, find, alike.records, ih]
  rw [depth, depth, alike.entries, same]

/-- A ledger whose indexes and records show the same as those of a tallied one. -/
theorem Tallied.congr {full : Ledger} (tallied : full.Tallied) (alike : ledger.Alike full)
    (same : ledger.records = full.records) :
    ledger.Tallied := by
  have stops : ledger.stops = full.stops := alike.entries .stops
  have levels : ∀ side, ledger.levels side = full.levels side := by
    intro side
    simp only [Ledger.levels, limits, restingAt, resting, same]
  constructor
  · simpa only [resting, same] using tallied.limited
  · intro side limit
    rw [alike.depth_eq, levels, tallied.depth]
  · simpa only [alike.entries, limits, resting, same] using tallied.best
  · simpa only [levels, restingUnits, resting, same] using tallied.total
  · simpa only [stops, waiting, same] using tallied.stops
  · rw [stops]
    exact tallied.few

/-- The number that follows the last one is none, and a record stored under it does not count. -/
theorem Coherent.records_store (coherent : ledger.Coherent carried)
    (spent : ledger.orders.size + 1 = 0x1_0000_0000_0000_0000)
    (order : Order) : (ledger.store order).records = ledger.records := by
  have number : ledger.nextId.number = 0 := by rw [coherent.counted, spent]
  simp [records, store, OrderId.isAssigned, number]

end Ledger
end LimitBook
