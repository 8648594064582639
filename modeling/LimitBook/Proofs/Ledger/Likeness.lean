import LimitBook.Proofs.Renaming

/-! Likenesses of ledgers. Ledgers are alike if under every number the records agree, up to a renaming, in all
that is read of them. Such ledgers make the same offers and fire the same stops, and the same events leave them
alike. -/
namespace LimitBook

theorem Order.isActive_eq_isLive (order : Order) : order.isActive = (order.isLive && !order.isPending) := by
  unfold isActive isLive isPending
  cases order.cancelled <;> cases order.executed <;> cases order.isCancel <;> cases order.isStop <;>
    cases order.triggered <;> rfl

theorem Order.Regular.isLive_of_isPending {order : Order} (regular : order.Regular) (pending : order.isPending = true) :
    order.isLive = true := by
  obtain ⟨stop, -, live⟩ := isPending_iff.mp pending
  simp [isLive, isCancel_of_isStop stop, regular.executed_of_isPending pending, live]

/-- What two records have in common, up to a renaming, where a book cannot tell them apart. Of a closed order it reads
nothing but that it is closed. -/
structure Order.Resembles (names : Renaming) (order other : Order) : Prop where
  id : other.id = order.id
  isLive : other.isLive = order.isLive
  isPending : order.isLive = true → other.isPending = order.isPending
  side : order.isLive = true → other.side = order.side.map names.side
  limitPrice : order.isLive = true → other.limitPrice = order.limitPrice.map names.price
  triggerPrice : order.isLive = true → order.isPending = true → other.triggerPrice = order.triggerPrice.map names.price
  remaining : order.isLive = true → other.remaining = order.remaining
  known : ∀ price ∈ order.kind.prices, names.knows price

/-- What is closed stays closed. -/
theorem Order.GoesOn.isLive {order record : Order} (goesOn : order.GoesOn record) (live : record.isLive = true) :
    order.isLive = true := by
  have same : record.isCancel = order.isCancel := by
    unfold isCancel
    rw [goesOn.sameKind]
  unfold Order.isLive at live ⊢
  rw [same] at live
  cases cancelled : order.cancelled with
  | true => simp [goesOn.cancelled cancelled] at live
  | false =>
    cases executed : order.executed with
    | true => simp [goesOn.executed executed] at live
    | false =>
      rw [Bool.and_eq_true, Bool.and_eq_true] at live
      simp [live.1.1]

namespace Order.Resembles
variable {names : Renaming} {order other : Order}

theorem refl (order : Order) : order.Resembles .same order where
  id := rfl
  isLive := rfl
  isPending := fun _ => rfl
  side := fun _ => (Option.map_id_apply).symm
  limitPrice := fun _ => (Option.map_id_apply).symm
  triggerPrice := fun _ _ => (Option.map_id_apply).symm
  remaining := fun _ => rfl
  known := fun _ _ => trivial

theorem isActive (alike : order.Resembles names other) : other.isActive = order.isActive := by
  rw [isActive_eq_isLive, isActive_eq_isLive, alike.isLive]
  cases live : order.isLive with
  | false => rfl
  | true => rw [alike.isPending live]

theorem known_limit (alike : order.Resembles names other) {limit : Price} (limited : order.limitPrice = some limit) :
    names.knows limit :=
  alike.known limit (OrderKind.mem_prices_iff.mpr (.inl limited))

private theorem offer? (alike : order.Resembles names other) (side : Side) {bound : Option Price}
    (bounded : ∀ limit, bound = some limit → names.knows limit) :
    other.offer? (names.side side) (bound.map names.price) = (order.offer? side bound).map names.offer := by
  cases active : order.isActive with
  | false =>
    have nothing : ∀ {record : Order} {own : Side} {limit : Option Price}, record.isActive = false →
        record.offer? own limit = none := by
      intro record own limit idle
      unfold Order.offer?
      rw [idle]
      split <;> rfl
    rw [nothing active, nothing (alike.isActive.trans active)]
    rfl
  | true =>
    have live := isLive_of_isActive active
    have opposite : (other.side = some (names.side side).opposite) ↔ order.side = some side.opposite := by
      rw [alike.side live, ← names.side_opposite, Option.map_eq_some_iff]
      simp [Renaming.side_inj]
    unfold Order.offer?
    rw [alike.limitPrice live, alike.isActive, active, alike.id, alike.remaining live]
    cases limited : order.limitPrice with
    | none => rfl
    | some price =>
      have within : (bound.map names.price).all (fun limit => (names.side side).within limit (names.price price))
          = bound.all fun limit => side.within limit price := by
        cases given : bound with
        | none => rfl
        | some limit => exact names.within_eq side (bounded limit given) (alike.known_limit limited)
      simp only [Option.map_some, within, opposite]
      split <;> rfl

private theorem isTriggeredBy (alike : order.Resembles names other) (regular : order.Regular)
    (pending : order.isPending = true) {price : Price} (priceKnown : names.knows price) :
    other.isTriggeredBy (names.price price) = order.isTriggeredBy price := by
  have live := regular.isLive_of_isPending pending
  obtain ⟨trigger, given⟩ := triggerPrice_of_isStop (isPending_iff.mp pending).1
  have triggerKnown := alike.known trigger (by
    unfold Order.triggerPrice OrderKind.triggerPrice at given
    split at given
    · rename_i kind
      rw [kind, ← Option.some.inj given]
      exact List.mem_cons_self
    · cases given)
  unfold Order.isTriggeredBy
  rw [alike.triggerPrice live pending, alike.side live, given]
  cases order.side with
  | none => rfl
  | some side => exact Renaming.crosses_eq side triggerKnown priceKnown

/-- A record and its counterpart are listed in corresponding indexes, or in none. -/
theorem place (alike : order.Resembles names other) (regular : order.Regular) (also : other.Regular) :
    other.place = order.place.map fun (kind, price) => (names.index kind, names.price price) := by
  have pending : other.isPending = true ↔ order.isPending = true := by
    constructor
    · intro waits
      have live := also.isLive_of_isPending waits
      rw [alike.isLive] at live
      rw [← alike.isPending live]
      exact waits
    · intro waits
      rw [alike.isPending (regular.isLive_of_isPending waits)]
      exact waits
  unfold Order.place
  by_cases waits : order.isPending = true
  · have live := regular.isLive_of_isPending waits
    rw [if_pos waits, if_pos (pending.mpr waits), alike.triggerPrice live waits, Option.map_map, Option.map_map]
    rfl
  rw [if_neg waits, if_neg (mt pending.mp waits), alike.isActive]
  cases active : order.isActive with
  | false => rfl
  | true =>
    have live := isLive_of_isActive active
    rw [alike.side live, alike.limitPrice live]
    cases order.side with
    | none => rfl
    | some side =>
      cases order.limitPrice with
      | none => rfl
      | some limit => simp [Renaming.index_indexKind]

theorem place_same {order other : Order} (alike : order.Resembles .same other) (regular : order.Regular)
    (also : other.Regular) :
    other.place = order.place := by
  rw [alike.place regular also, Renaming.index_same]
  cases order.place <;> rfl

end Order.Resembles

/-- A relation between records, and one between last prices, that new orders satisfy and that every event keeps. -/
structure Likeness (names : Renaming) where
  rel : Order → Order → Prop
  last : Option Price → Option Price → Prop
  resembles : ∀ {order other}, rel order other → order.Resembles names other
  effect : ∀ event {order other}, rel order other → rel (event.effect order) ((names.event event).effect other)
  price : ∀ event {one other}, last one other → last (event.price one) ((names.event event).price other)
  fresh : ∀ {order : Order} id, (∀ price ∈ order.kind.prices, names.knows price) →
    rel (order.numbered id) ((names.order order).numbered id)

namespace Likeness
open Ledger (Coherent Moves InFlight Awaits)

def exact (names : Renaming) : Likeness names where
  rel order other := other = names.order order ∧ ∀ price ∈ order.kind.prices, names.knows price
  last one other := other = one.map names.price
  resembles := by
    rintro order _ ⟨rfl, known⟩
    exact {
      id := rfl
      isLive := Order.isLive_rename
      isPending := fun _ => Order.isPending_rename
      side := fun _ => rfl
      limitPrice := fun _ => OrderKind.limitPrice_rename _
      triggerPrice := fun _ _ => OrderKind.triggerPrice_rename _
      remaining := fun _ => rfl
      known := known }
  effect := by
    rintro event order _ ⟨rfl, known⟩
    refine ⟨Event.effect_rename event order, ?_⟩
    rw [(Order.GoesOn.effect event order).sameKind]
    exact known
  price := by
    rintro event last _ rfl
    exact Event.price_rename event last
  fresh := fun _ known => ⟨rfl, known⟩

variable {names : Renaming} {like : Likeness names}

private theorem effects (events : List Event) {order other : Order} (alike : like.rel order other) :
    like.rel (Event.effects events order) (Event.effects (events.map names.event) other) := by
  induction events generalizing order other with
  | nil => exact alike
  | cons event rest ih => exact ih (like.effect event alike)

private theorem prices (events : List Event) {one other : Option Price} (alike : like.last one other) :
    like.last (Event.prices events one) (Event.prices (events.map names.event) other) := by
  induction events generalizing one other with
  | nil => exact alike
  | cons event rest ih => exact ih (like.price event alike)

structure Between (like : Likeness names) (ledger other : Ledger) (carried : Option OrderId) : Prop where
  coherent : ledger.Coherent carried
  also : other.Coherent carried
  size : other.orders.size = ledger.orders.size
  records : ∀ id, Option.Rel like.rel (ledger.get? id) (other.get? id)
  last : like.last ledger.lastPrice other.lastPrice

variable {config further : Config} {ledger other next later : Ledger} {carried during : Option OrderId}
    {events : List Event}
  {order : Order} {id : OrderId}

namespace Between

theorem nextId (between : like.Between ledger other carried) : other.nextId = ledger.nextId := by
  apply OrderId.ext
  rw [between.also.counted, between.coherent.counted, between.size]

theorem found (between : like.Between ledger other carried) (found : ledger.get? id = some order) :
    ∃ copy, other.get? id = some copy ∧ like.rel order copy := by
  have records := between.records id
  rw [found] at records
  cases there : other.get? id with
  | none =>
    rw [there] at records
    cases records
  | some copy =>
    rw [there] at records
    exact ⟨copy, rfl, Option.rel_some_some.mp records⟩

theorem original (between : like.Between ledger other carried) {copy : Order} (found : other.get? id = some copy) :
    ∃ order, ledger.get? id = some order ∧ like.rel order copy := by
  have records := between.records id
  rw [found] at records
  cases there : ledger.get? id with
  | none =>
    rw [there] at records
    cases records
  | some order =>
    rw [there] at records
    exact ⟨order, rfl, Option.rel_some_some.mp records⟩

theorem empty (last : like.last none none) : like.Between .empty .empty none :=
  ⟨Ledger.coherent_empty, Ledger.coherent_empty, rfl, fun _ => by simp [Ledger.get?, Ledger.empty], last⟩

/-- The entries of alike ledgers correspond. -/
theorem mem_index_iff (between : like.Between ledger other carried) {kind : IndexKind} {entry : Entry} :
    entry ∈ other.index (names.index kind) ↔ ∃ own ∈ ledger.index kind, entry = ⟨names.price own.price, own.id⟩ := by
  rw [between.also.listed]
  constructor
  · rintro ⟨copy, there, placed⟩
    obtain ⟨order, found, related⟩ := between.original there
    rw [(like.resembles related).place (between.coherent.regular found) (between.also.regular there)] at placed
    obtain ⟨⟨listed, price⟩, own, same⟩ := Option.map_eq_some_iff.mp placed
    obtain ⟨kinds, prices⟩ := Prod.mk.inj same
    obtain rfl := Renaming.index_inj.mp kinds
    exact ⟨⟨price, entry.id⟩, between.coherent.listed.mpr ⟨order, found, own⟩, Entry.ext prices.symm rfl⟩
  · rintro ⟨own, listed, rfl⟩
    obtain ⟨order, found, placed⟩ := between.coherent.listed.mp listed
    obtain ⟨copy, there, related⟩ := between.found found
    refine ⟨copy, there, ?_⟩
    rw [(like.resembles related).place (between.coherent.regular found) (between.also.regular there), placed]
    rfl

/-- Where all keep their names the indexes are equal. -/
theorem index {like : Likeness .same} (between : like.Between ledger other carried) (kind : IndexKind) :
    other.index kind = ledger.index kind := by
  refine SortedSet.eq_of_mem_iff fun entry => ?_
  have corresponds := @mem_index_iff _ _ _ _ _ between kind entry
  rw [Renaming.index_same] at corresponds
  exact corresponds.trans ⟨fun ⟨own, listed, same⟩ => same ▸ listed, fun listed => ⟨entry, listed, rfl⟩⟩

/-- What agrees on all pairs of records agrees on all records. -/
theorem map_orders {α : Type} {one two : Order → α} (between : like.Between ledger other carried)
    (same : ∀ {id order copy}, ledger.get? id = some order → other.get? id = some copy → like.rel order copy →
      two copy = one order) :
    other.orders.map two = ledger.orders.map one := by
  have bounded := between.coherent.bounded
  apply Array.ext_getElem?
  intro place
  rw [Array.getElem?_map, Array.getElem?_map]
  by_cases within : place < ledger.orders.size
  · have number : place + 1 < 0x1_0000_0000_0000_0000 := by omega
    rw [Ledger.getElem?_orders other number, Ledger.getElem?_orders ledger number]
    cases found : ledger.get? ⟨place + 1, number⟩ with
    | none =>
      rw [Ledger.get?_eq_none_iff] at found
      simp only at found
      omega
    | some order =>
      obtain ⟨copy, there, related⟩ := between.found found
      rw [there]
      exact congrArg some (same found there related)
  · rw [Array.getElem?_eq_none (by rw [between.size]; omega), Array.getElem?_eq_none (by omega)]
    rfl

theorem cancelled (between : like.Between ledger other carried)
    (same : ∀ {order copy}, like.rel order copy → copy.cancelled = order.cancelled) :
    other.cancelled = ledger.cancelled := by
  refine SortedSet.eq_of_mem_iff fun id => ?_
  rw [between.also.withdrawn, between.coherent.withdrawn]
  constructor
  · rintro ⟨copy, there, marked⟩
    obtain ⟨order, found, related⟩ := between.original there
    exact ⟨order, found, (same related).symm.trans marked⟩
  · rintro ⟨order, found, marked⟩
    obtain ⟨copy, there, related⟩ := between.found found
    exact ⟨copy, there, (same related).trans marked⟩

/-- Histories without admissions that report the same leave alike ledgers alike. -/
theorem moved (between : like.Between ledger other carried) (moves : Moves config ledger carried events next during)
    (also : Moves further other carried (events.map names.event) later during) (settled : ∀ id, .accepted id ∉ events) :
    like.Between next later during := by
  have unsettled : ∀ id, .accepted id ∉ events.map names.event := by
    intro id member
    obtain ⟨event, member, same⟩ := List.mem_map.mp member
    cases event <;> first | exact Event.noConfusion same | exact settled _ member
  have revises := moves.revises between.coherent settled
  have copies := also.revises between.also unsettled
  refine ⟨moves.coherent between.coherent, also.coherent between.also, ?_, ?_, ?_⟩
  · rw [revises.size, copies.size, between.size]
  · intro id
    have records := between.records id
    rw [revises.records, copies.records]
    generalize ledger.get? id = one, other.get? id = two at records ⊢
    cases records with
    | none => exact .none
    | some alike => exact .some (effects events alike)
  · rw [revises.lastPrice, copies.lastPrice]
    exact prices events between.last

theorem known_of_mem_offers (between : like.Between ledger other carried) {side : Side} {bound : Option Price}
    {offer : Offer} (offered : offer ∈ ledger.offers side bound) : names.knows offer.price := by
  obtain ⟨maker, stored, proposed⟩ := between.coherent.mem_offers.mp offered
  obtain ⟨copy, -, alike⟩ := between.found stored
  exact (like.resembles alike).known_limit (Order.offer?_eq_some_iff.mp proposed).2.2.1

private theorem mem_offers (between : like.Between ledger other carried) (side : Side) {bound : Option Price}
    (bounded : ∀ limit, bound = some limit → names.knows limit) (offer : Offer) :
    offer ∈ other.offers (names.side side) (bound.map names.price)
      ↔ offer ∈ (ledger.offers side bound).map names.offer := by
  rw [between.also.mem_offers, List.mem_map]
  constructor
  · rintro ⟨copy, there, proposed⟩
    obtain ⟨maker, stored, alike⟩ := between.original there
    rw [(like.resembles alike).offer? side bounded] at proposed
    obtain ⟨own, proposes, rfl⟩ := Option.map_eq_some_iff.mp proposed
    exact ⟨own, between.coherent.mem_offers.mpr ⟨maker, stored, proposes⟩, rfl⟩
  · rintro ⟨own, offered, rfl⟩
    obtain ⟨maker, stored, proposes⟩ := between.coherent.mem_offers.mp offered
    obtain ⟨copy, there, alike⟩ := between.found stored
    refine ⟨copy, there, ?_⟩
    rw [(like.resembles alike).offer? side bounded, proposes]
    rfl

/-- Alike ledgers make the same offers in the same order. -/
theorem offers (between : like.Between ledger other carried) (side : Side) {bound : Option Price}
    (bounded : ∀ limit, bound = some limit → names.knows limit) :
    other.offers (names.side side) (bound.map names.price) = (ledger.offers side bound).map names.offer := by
  have ordered : ((ledger.offers side bound).map names.offer).Pairwise (Offer.Ahead (names.side side)) := by
    rw [List.pairwise_map]
    apply (between.coherent.pairwise_offers side bound).imp_of_mem
    intro left right first second ahead
    refine ⟨?_, ahead.2⟩
    rw [Renaming.before_eq side (between.known_of_mem_offers first) (between.known_of_mem_offers second)]
    exact ahead.1
  exact (between.also.pairwise_offers _ _).eq_of_mem_iff ordered (between.mem_offers side bounded)

theorem awaits_iff (between : like.Between ledger other carried) {price : Price} (known : names.knows price) :
    other.Awaits (names.price price) id ↔ ledger.Awaits price id := by
  constructor
  · rintro ⟨copy, there, pending, crossed⟩
    obtain ⟨stop, found, related⟩ := between.original there
    have alike := like.resembles related
    have live := (between.also.regular there).isLive_of_isPending pending
    rw [alike.isLive] at live
    rw [alike.isPending live] at pending
    rw [alike.isTriggeredBy (between.coherent.regular found) pending known] at crossed
    exact ⟨stop, found, pending, crossed⟩
  · rintro ⟨stop, found, pending, crossed⟩
    obtain ⟨copy, there, related⟩ := between.found found
    have alike := like.resembles related
    have regular := between.coherent.regular found
    refine ⟨copy, there, ?_, ?_⟩
    · rw [alike.isPending (regular.isLive_of_isPending pending), pending]
    · rw [alike.isTriggeredBy regular pending known, crossed]

/-- In alike ledgers a trade fires the same stops. -/
theorem firedBy (between : like.Between ledger other carried) {price : Price} (known : names.knows price) :
    other.firedBy (names.price price) = ledger.firedBy price := by
  obtain ⟨ids, firing, ascending, await⟩ := between.coherent.firedBy_eq price
  obtain ⟨copies, fires, sorted, waits⟩ := between.also.firedBy_eq (names.price price)
  have same : copies = ids := sorted.eq_of_mem_iff ascending fun id => by
    rw [waits, await, between.awaits_iff known]
  rw [firing, fires, same]

end Between
end Likeness
end LimitBook
