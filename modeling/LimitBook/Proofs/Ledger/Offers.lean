import LimitBook.Proofs.PriceIndex
import LimitBook.Proofs.Ledger.Effects

/-! Offers: what the orders resting on the other side propose to a taker, the best price first and the
oldest order first at a price. In a coherent ledger the best trade is the one with the first offer. -/
namespace LimitBook

@[ext] structure Offer where
  maker : OrderId
  price : Price
  volume : Volume
deriving DecidableEq

namespace Offer

def before (side : Side) (left right : Offer) : Bool :=
  match side with
  | .buy => left.price < right.price || (left.price = right.price && left.maker ≤ right.maker)
  | .sell => right.price < left.price || (left.price = right.price && left.maker ≤ right.maker)

theorem before_iff {side : Side} {left right : Offer} :
    before side left right = true ↔ (match side with
      | .buy => left.price.raw < right.price.raw
      | .sell => right.price.raw < left.price.raw)
      ∨ (left.price.raw = right.price.raw ∧ left.maker.number ≤ right.maker.number) := by
  cases side <;>
    simp [before, Fixed.lt_iff_raw, Fixed.ext_iff, OrderId.le_iff_number]

theorem before_trans {side : Side} (first second third : Offer) (one : before side first second = true)
    (two : before side second third = true) : before side first third = true := by
  rw [before_iff] at *
  cases side <;> simp only at * <;> omega

theorem before_total {side : Side} (left right : Offer) :
    (before side left right || before side right left) = true := by
  rw [Bool.or_eq_true, before_iff, before_iff]
  cases side <;> simp only <;> omega

def Ahead (side : Side) (left right : Offer) : Prop := before side left right = true ∧ left.maker ≠ right.maker

instance (side : Side) : Std.Irrefl (Ahead side) := ⟨fun _ ahead => ahead.2 rfl⟩

instance (side : Side) : Std.Antisymm (Ahead side) where
  antisymm := by
    intro left right below above
    have one := before_iff.mp below.1
    have two := before_iff.mp above.1
    have same : left.maker = right.maker := by
      apply OrderId.ext
      cases side <;> simp only at one two <;> omega
    exact absurd same below.2

end Offer

namespace Order

def offer? (maker : Order) (side : Side) (bound : Option Price) : Option Offer :=
  match maker.limitPrice with
  | some price =>
    if maker.isActive && maker.side = some side.opposite && bound.all (fun limit => side.within limit price) then
      some ⟨maker.id, price, maker.remaining⟩
    else none
  | none => none

def accept (taker : Order) (offer : Offer) : Trade :=
  ⟨taker.id, offer.maker, min taker.remaining offer.volume, offer.price⟩

theorem offer?_eq_some_iff {maker : Order} {side : Side} {bound : Option Price} {offer : Offer} :
    maker.offer? side bound = some offer ↔ maker.isActive = true ∧ maker.side = some side.opposite
      ∧ maker.limitPrice = some offer.price ∧ (∀ limit, bound = some limit → side.within limit offer.price = true)
      ∧ offer.maker = maker.id ∧ offer.volume = maker.remaining := by
  unfold offer?
  cases limited : maker.limitPrice with
  | none => simp
  | some price =>
    simp only [Option.ite_none_right_eq_some, Option.some.injEq, Bool.and_eq_true, decide_eq_true_eq,
      Option.all_eq_true, Offer.ext_iff]
    constructor
    · rintro ⟨⟨⟨active, sided⟩, within⟩, own, priced, volume⟩
      exact ⟨active, sided, priced, priced ▸ within, own.symm, volume.symm⟩
    · rintro ⟨active, sided, priced, within, own, volume⟩
      exact ⟨⟨⟨active, sided⟩, priced ▸ within⟩, own.symm, priced, volume.symm⟩

end Order

namespace Ledger

def offers (ledger : Ledger) (side : Side) (bound : Option Price) : List Offer :=
  (ledger.orders.toList.filterMap fun maker => maker.offer? side bound).mergeSort (Offer.before side)

variable {ledger : Ledger} {carried : Option OrderId}

theorem Coherent.mem_orders_iff (coherent : ledger.Coherent carried) {order : Order} :
    order ∈ ledger.orders.toList ↔ ledger.get? order.id = some order := by
  rw [Array.mem_toList_iff, Array.mem_iff_getElem?]
  constructor
  · rintro ⟨place, found⟩
    obtain ⟨within, -⟩ := Array.getElem?_eq_some_iff.mp found
    have bounded := coherent.bounded
    have fits : place + 1 < 0x1_0000_0000_0000_0000 ∨ place + 1 = 0x1_0000_0000_0000_0000 := by omega
    rcases fits with fits | top
    · rw [getElem?_orders ledger fits] at found
      rw [coherent.numbered found]
      exact found
    · omega
  · intro found
    have positive := ne_unassigned_of_get? found
    simp only [get?, positive, if_false] at found
    exact ⟨_, found⟩

theorem Coherent.mem_offers (coherent : ledger.Coherent carried) {side : Side} {bound : Option Price} {offer : Offer} :
    offer ∈ ledger.offers side bound
      ↔ ∃ maker, ledger.get? offer.maker = some maker ∧ maker.offer? side bound = some offer := by
  rw [offers, List.mem_mergeSort, List.mem_filterMap]
  constructor
  · rintro ⟨maker, stored, proposed⟩
    rw [coherent.mem_orders_iff, ← (Order.offer?_eq_some_iff.mp proposed).2.2.2.2.1] at stored
    exact ⟨maker, stored, proposed⟩
  · rintro ⟨maker, stored, proposed⟩
    refine ⟨maker, ?_, proposed⟩
    rw [coherent.mem_orders_iff, ← (Order.offer?_eq_some_iff.mp proposed).2.2.2.2.1]
    exact stored

theorem Coherent.pairwise_orders (coherent : ledger.Coherent carried) :
    ledger.orders.toList.Pairwise fun left right => left.id ≠ right.id := by
  rw [List.pairwise_iff_getElem]
  intro first second early late between same
  have bounded := coherent.bounded
  rw [Array.length_toList] at early late
  have one := getElem?_orders ledger (show first + 1 < 0x1_0000_0000_0000_0000 by omega)
  have two := getElem?_orders ledger (show second + 1 < 0x1_0000_0000_0000_0000 by omega)
  rw [Array.getElem?_eq_getElem early] at one
  rw [Array.getElem?_eq_getElem late] at two
  rw [Array.getElem_toList, Array.getElem_toList, coherent.numbered one.symm, coherent.numbered two.symm] at same
  have places := congrArg OrderId.number same
  simp only at places
  omega

/-- No order makes two offers, so that the offers stand in one strict order. -/
theorem Coherent.pairwise_offers (coherent : ledger.Coherent carried) (side : Side) (bound : Option Price) :
    (ledger.offers side bound).Pairwise (Offer.Ahead side) := by
  have makers : (ledger.offers side bound).Pairwise fun left right => left.maker ≠ right.maker := by
    have unsorted : (ledger.orders.toList.filterMap fun maker => maker.offer? side bound).Pairwise
        fun left right => left.maker ≠ right.maker := by
      rw [List.pairwise_filterMap]
      refine coherent.pairwise_orders.imp fun apart left one right two => ?_
      rw [(Order.offer?_eq_some_iff.mp one).2.2.2.2.1, (Order.offer?_eq_some_iff.mp two).2.2.2.2.1]
      exact apart
    exact ((List.mergeSort_perm _ _).pairwise_iff fun apart => apart.symm).mpr unsorted
  have sorted : (ledger.offers side bound).Pairwise fun left right => Offer.before side left right = true :=
    List.pairwise_mergeSort Offer.before_trans Offer.before_total _
  exact sorted.and makers

end Ledger

namespace Trade
variable {side : Side}

private theorem rank_ne_gt_iff {left right : Trade} : rank side left right ≠ .gt ↔
    Offer.before side ⟨left.maker, left.price, left.volume⟩ ⟨right.maker, right.price, right.volume⟩ = true := by
  have prices : ∀ one two : Price, compare one two = compare one.raw two.raw := fun _ _ => rfl
  unfold rank
  rw [Offer.before_iff, Ne, Ordering.then_eq_gt, Nat.compare_eq_gt]
  cases side <;> simp only [prices, Int.compare_eq_gt, Int.compare_eq_eq] <;> omega

theorem rank_trans {first second third : Trade} (one : rank side first second ≠ .gt)
    (two : rank side second third ≠ .gt) : rank side first third ≠ .gt := by
  rw [rank_ne_gt_iff] at *
  exact Offer.before_trans _ _ _ one two

theorem rank_total {left right : Trade} (behind : rank side left right = .gt) : rank side right left ≠ .gt := by
  rw [rank_ne_gt_iff]
  have total : (Offer.before side ⟨left.maker, left.price, left.volume⟩ ⟨right.maker, right.price, right.volume⟩
      || Offer.before side ⟨right.maker, right.price, right.volume⟩ ⟨left.maker, left.price, left.volume⟩) = true :=
    Offer.before_total _ _
  rw [Bool.or_eq_true] at total
  rcases total with ahead | ahead
  · exact absurd behind (rank_ne_gt_iff.mpr ahead)
  · exact ahead

def prefer (side : Side) (best : Option Trade) (candidate : Trade) : Option Trade :=
  match best with
  | some current => if rank side current candidate = .gt then some candidate else some current
  | none => some candidate

private theorem foldl_prefer (side : Side) (rest : List Trade) (current : Trade) :
    ∃ best, rest.foldl (prefer side) (some current) = some best ∧ best ∈ current :: rest
      ∧ ∀ other ∈ current :: rest, rank side best other ≠ .gt := by
  induction rest generalizing current with
  | nil =>
    refine ⟨current, rfl, List.mem_cons_self, fun other member => ?_⟩
    obtain rfl := List.mem_singleton.mp member
    exact fun behind => rank_total behind behind
  | cons head rest ih =>
    rw [List.foldl_cons]
    by_cases behind : rank side current head = .gt
    · obtain ⟨best, chosen, member, least⟩ := ih head
      refine ⟨best, by simpa only [prefer, behind, if_true] using chosen, List.mem_cons_of_mem _ member, ?_⟩
      intro other listed
      rcases List.mem_cons.mp listed with rfl | later
      · exact rank_trans (least head List.mem_cons_self) (rank_total behind)
      · exact least other later
    · obtain ⟨best, chosen, member, least⟩ := ih current
      refine ⟨best, by simpa only [prefer, behind, if_false] using chosen, ?_, ?_⟩
      · rcases List.mem_cons.mp member with rfl | later
        · exact List.mem_cons_self
        · exact List.mem_cons_of_mem _ (List.mem_cons_of_mem _ later)
      · intro other listed
        rcases List.mem_cons.mp listed with rfl | within
        · exact least other List.mem_cons_self
        rcases List.mem_cons.mp within with rfl | later
        · exact rank_trans (least current List.mem_cons_self) behind
        · exact least other (List.mem_cons_of_mem _ later)

theorem exists_best (side : Side) {trades : List Trade} (trading : trades ≠ []) :
    ∃ best, best? side trades = some best ∧ best ∈ trades ∧ ∀ other ∈ trades, rank side best other ≠ .gt := by
  cases trades with
  | nil => exact absurd rfl trading
  | cons head rest => exact foldl_prefer side rest head

private theorem best?_eq_head? {taker : Order} {offers : List Offer} {trades : List Trade}
    (ordered : offers.Pairwise (Offer.Ahead side)) (same : ∀ trade, trade ∈ trades ↔ trade ∈ offers.map taker.accept) :
    best? side trades = offers.head?.map taker.accept := by
  cases offers with
  | nil =>
    have idle : trades = [] :=
      List.eq_nil_iff_forall_not_mem.mpr fun trade member => by simpa using (same trade).mp member
    rw [idle]
    rfl
  | cons first rest =>
    have leads := (same (taker.accept first)).mpr List.mem_cons_self
    obtain ⟨best, chosen, member, least⟩ := exists_best side (List.ne_nil_of_mem leads)
    obtain ⟨offer, offered, rfl⟩ := List.mem_map.mp ((same best).mp member)
    rw [chosen]
    rcases List.mem_cons.mp offered with rfl | later
    · rfl
    · have ahead := (List.pairwise_cons.mp ordered).1 offer later
      have behind : Offer.Ahead side offer first := ⟨rank_ne_gt_iff.mp (least _ leads), ahead.2.symm⟩
      exact absurd (congrArg Offer.maker (antisymm ahead behind)) ahead.2

end Trade

theorem PriceIndex.mem_atOrBetter {index : PriceIndex} {side : Side} {bound : Option Price} {entry : Entry} :
    entry ∈ index.atOrBetter bound (side = .sell)
      ↔ entry ∈ index ∧ ∀ limit, bound = some limit → side.within limit entry.price = true := by
  cases bound with
  | none => simp [(lists_all _).mem_iff]
  | some limit =>
    cases side with
    | buy =>
      change entry ∈ index.atOrBetter (some limit) false ↔ _
      simp [lists_atOrBelow.mem_iff, Side.within]
    | sell =>
      change entry ∈ index.atOrBetter (some limit) true ↔ _
      simp [lists_atOrAbove.mem_iff, Side.within]

private theorem Order.tradeWith?_eq {taker maker : Order} {side : Side} {offer : Offer} (takes : taker.isActive = true)
    (sided : taker.side = some side) (offered : maker.offer? side taker.limitPrice = some offer)
    (wanting : taker.remaining ≠ 0) (giving : maker.remaining ≠ 0) :
    taker.tradeWith? maker offer.price = some (taker.accept offer) := by
  obtain ⟨makes, opposed, -, within, named, volume⟩ := Order.offer?_eq_some_iff.mp offered
  obtain ⟨-, -, takerTrades, -⟩ := Order.isActive_iff.mp takes
  obtain ⟨-, -, makerTrades, fired⟩ := Order.isActive_iff.mp makes
  have sides : side ≠ side.opposite := side.opposite_ne.symm
  have ready : (maker.isStop && !maker.triggered) = false := by
    cases stop : maker.isStop with
    | false => rfl
    | true => simp [fired stop]
  have meets : taker.limitPrice.any (fun limit => !side.within limit offer.price) = false := by
    cases limited : taker.limitPrice with
    | none => rfl
    | some limit => simp [within limit limited]
  have trading : min taker.remaining maker.remaining ≠ 0 := by
    rw [Ne, Volume.eq_zero_iff] at *
    rw [Volume.units_min]
    omega
  simp only [tradeWith?, sided, opposed, sides, takerTrades, makerTrades, ready, meets, trading, accept, named, volume]
  rfl

namespace Ledger
variable {ledger : Ledger} {carried : Option OrderId}

/-- The entries that a taker looks at are those of the orders that make it an offer. -/
theorem Coherent.mem_candidates (coherent : ledger.Coherent carried) {side : Side} {bound : Option Price}
    {entry : Entry} : entry ∈ (ledger.index side.opposite.indexKind).atOrBetter bound (side = .sell)
      ↔ ∃ maker, ledger.get? entry.id = some maker
        ∧ maker.offer? side bound = some ⟨entry.id, entry.price, maker.remaining⟩ := by
  rw [PriceIndex.mem_atOrBetter, coherent.listed]
  constructor
  · rintro ⟨⟨maker, found, placed⟩, within⟩
    obtain ⟨active, sided, limited⟩ := Order.place_eq_side_iff.mp placed
    refine ⟨maker, found, Order.offer?_eq_some_iff.mpr ⟨active, sided, limited, within, ?_, rfl⟩⟩
    exact (coherent.numbered found).symm
  · rintro ⟨maker, found, offered⟩
    obtain ⟨active, sided, limited, within, -⟩ := Order.offer?_eq_some_iff.mp offered
    exact ⟨⟨maker, found, Order.place_eq_side_iff.mpr ⟨active, sided, limited⟩⟩, within⟩

private theorem confirm_eq {side : Side} {bound : Option Price} {entry : Entry} {maker : Order}
    (found : ledger.get? entry.id = some maker)
    (offered : maker.offer? side bound = some ⟨entry.id, entry.price, maker.remaining⟩) :
    ledger.confirm entry = .ok (entry, maker) := by
  obtain ⟨active, -, limited, -⟩ := Order.offer?_eq_some_iff.mp offered
  simp only [confirm, find_of_get? found, bind, Except.bind, active, limited, decide_true, Bool.and_true, if_true]
  rfl

private theorem Coherent.tradeWith?_eq (coherent : ledger.Coherent carried) {taker id : OrderId}
    {order maker : Order} {side : Side}
    {offer : Offer} (found : ledger.get? taker = some order) (active : order.isActive = true)
    (sided : order.side = some side) (stored : ledger.get? id = some maker)
    (offered : maker.offer? side order.limitPrice = some offer) :
    order.tradeWith? maker offer.price = some (order.accept offer) := by
  have wanting := Order.remaining_pos (coherent.regular found) active
  have giving := Order.remaining_pos (coherent.regular stored) (Order.offer?_eq_some_iff.mp offered).1
  exact Order.tradeWith?_eq active sided offered wanting giving

/-- The trades that a taker compares are those that accept the offers to it. -/
theorem Coherent.mem_proposals_iff (coherent : ledger.Coherent carried) {taker : OrderId} {order : Order} {side : Side}
    {makers : List (Entry × Order)} (found : ledger.get? taker = some order) (active : order.isActive = true)
    (sided : order.side = some side)
    (members : ∀ pair, pair ∈ makers
      ↔ ∃ entry ∈ (ledger.index side.opposite.indexKind).atOrBetter order.limitPrice (side = .sell),
        ledger.confirm entry = .ok pair) (trade : Trade) :
    trade ∈ makers.filterMap (fun pair => order.tradeWith? pair.2 pair.1.price)
      ↔ trade ∈ (ledger.offers side order.limitPrice).map order.accept := by
  rw [List.mem_filterMap, List.mem_map]
  constructor
  · rintro ⟨pair, listed, traded⟩
    obtain ⟨entry, candidate, passes⟩ := (members pair).mp listed
    obtain ⟨maker, stored, offered⟩ := coherent.mem_candidates.mp candidate
    obtain rfl := Except.ok.inj (passes.symm.trans (confirm_eq stored offered))
    have same := (coherent.tradeWith?_eq found active sided stored offered).symm.trans traded
    exact ⟨_, coherent.mem_offers.mpr ⟨maker, stored, offered⟩, Option.some.inj same⟩
  · rintro ⟨offer, offered, rfl⟩
    obtain ⟨maker, stored, proposed⟩ := coherent.mem_offers.mp offered
    have volume := (Order.offer?_eq_some_iff.mp proposed).2.2.2.2.2
    have proposes : maker.offer? side order.limitPrice = some ⟨offer.maker, offer.price, maker.remaining⟩ := by
      rw [proposed, ← volume]
    have entry : (⟨offer.price, offer.maker⟩ : Entry)
        ∈ (ledger.index side.opposite.indexKind).atOrBetter order.limitPrice (side = .sell) :=
      coherent.mem_candidates.mpr ⟨maker, stored, proposes⟩
    have traded := coherent.tradeWith?_eq found active sided stored proposed
    exact ⟨_, (members _).mpr ⟨_, entry, confirm_eq stored proposes⟩, traded⟩

/-- The best trade of an active order accepts the first offer. -/
theorem Coherent.bestTrade_eq (coherent : ledger.Coherent carried) {taker : OrderId} {order : Order} {side : Side}
    (found : ledger.get? taker = some order) (sided : order.side = some side) :
    ledger.bestTrade taker = .ok (if order.isActive then (ledger.offers side order.limitPrice).head?.map order.accept
      else none) := by
  cases active : order.isActive with
  | false =>
    simp only [bestTrade, find_of_get? found, bind, Except.bind, active]
    rfl
  | true =>
    have wanting := Order.remaining_pos (coherent.regular found) active
    obtain ⟨makers, confirmed, members⟩ := mapM_of_ok ledger.confirm
      ((ledger.index side.opposite.indexKind).atOrBetter order.limitPrice (side = .sell)) (by
        intro entry member
        obtain ⟨maker, stored, offered⟩ := coherent.mem_candidates.mp member
        exact ⟨_, confirm_eq stored offered⟩)
    have chosen := Trade.best?_eq_head? (coherent.pairwise_offers side order.limitPrice)
      (coherent.mem_proposals_iff found active sided members)
    simp only [bestTrade, find_of_get? found, bind, Except.bind, active, wanting, sided, confirmed]
    exact congrArg Except.ok chosen

theorem Coherent.fair_of_mem_offers (coherent : ledger.Coherent carried) {taker : OrderId} {order : Order} {side : Side}
    {offer : Offer} (found : ledger.get? taker = some order) (active : order.isActive = true)
    (sided : order.side = some side) (offered : offer ∈ ledger.offers side order.limitPrice) :
    ∃ maker, ledger.get? offer.maker = some maker ∧ maker.offer? side order.limitPrice = some offer
      ∧ ledger.Fair (order.accept offer) order maker side := by
  obtain ⟨maker, stored, proposed⟩ := coherent.mem_offers.mp offered
  obtain ⟨makes, opposed, limited, within, -, volume⟩ := Order.offer?_eq_some_iff.mp proposed
  exact ⟨maker, stored, proposed, {
    takerFound := by
      rw [Order.accept, coherent.numbered found]
      exact found
    makerFound := stored
    takerActive := active
    makerActive := makes
    takerSide := sided
    makerSide := opposed
    price := limited
    within := within
    volume := by rw [Order.accept, volume] }⟩

theorem Coherent.first_of_bestTrade (coherent : ledger.Coherent carried) {taker : OrderId} {order : Order} {side : Side}
    {trade : Trade} (found : ledger.get? taker = some order) (sided : order.side = some side)
    (best : ledger.bestTrade taker = .ok (some trade)) :
    order.isActive = true ∧ ∃ first rest, ledger.offers side order.limitPrice = first :: rest
      ∧ trade = order.accept first := by
  rw [coherent.bestTrade_eq found sided] at best
  have chosen := Except.ok.inj best
  split at chosen
  · rename_i active
    cases offers : ledger.offers side order.limitPrice with
    | nil =>
      rw [offers] at chosen
      cases chosen
    | cons first rest =>
      rw [offers] at chosen
      exact ⟨active, first, rest, rfl, (Option.some.inj chosen).symm⟩
  · cases chosen

theorem Coherent.fair_of_bestTrade (coherent : ledger.Coherent carried) {taker : OrderId} {order : Order} {side : Side}
    {trade : Trade} (found : ledger.get? taker = some order) (sided : order.side = some side)
    (best : ledger.bestTrade taker = .ok (some trade)) :
    trade.taker = taker ∧ ∃ maker, ledger.Fair trade order maker side := by
  obtain ⟨active, first, rest, offers, rfl⟩ := coherent.first_of_bestTrade found sided best
  obtain ⟨maker, -, -, fair⟩ := coherent.fair_of_mem_offers found active sided (offers ▸ List.mem_cons_self)
  exact ⟨coherent.numbered found, maker, fair⟩

end Ledger
end LimitBook
