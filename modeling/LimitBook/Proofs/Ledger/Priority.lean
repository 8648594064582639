import LimitBook.Proofs.Ledger.Conservation
import LimitBook.Proofs.Ledger.Runs

/-! Priority. Matching looks for the best trade again and again; it makes the trades of one walk through the
offers in their order, and leaves what that walk leaves. -/
namespace LimitBook

def Offer.walk (taker : OrderId) (wanted : Volume) : List Offer → List Trade
  | [] => []
  | offer :: rest =>
    if wanted = 0 then []
    else
      let volume := min wanted offer.volume
      ⟨taker, offer.maker, volume, offer.price⟩ :: walk taker (wanted - volume) rest

theorem Offer.walk_exhausted (taker : OrderId) (offers : List Offer) : Offer.walk taker 0 offers = [] := by
  cases offers <;> simp [walk]

namespace Ledger
variable {config : Config} {ledger : Ledger} {carried : Option OrderId}

private theorem Fair.mem_offers_exchanged {trade : Trade} {taker maker : Order} {side : Side} {bound : Option Price}
    {offer : Offer} (fair : ledger.Fair trade taker maker side) (coherent : ledger.Coherent carried)
    (exhausted : (maker.take trade.volume).executed = true) :
    offer ∈ (ledger.exchanged trade taker maker).offers side bound
      ↔ offer ∈ ledger.offers side bound ∧ offer.maker ≠ trade.maker := by
  have opposed : ∀ {order : Order}, order.side = some side → order.offer? side bound ≠ some offer := by
    intro order sided proposed
    have other := (Order.offer?_eq_some_iff.mp proposed).2.1
    rw [sided] at other
    exact side.opposite_ne (Option.some.inj other).symm
  rw [(fair.coherent_exchanged coherent).mem_offers, coherent.mem_offers]
  simp only [(fair.revises coherent).records]
  constructor
  · rintro ⟨record, stored, proposed⟩
    obtain ⟨old, found, rfl⟩ := Option.map_eq_some_iff.mp stored
    rw [effect_matched, coherent.numbered found] at proposed
    by_cases making : offer.maker = trade.maker
    · obtain rfl := Option.some.inj (fair.makerFound.symm.trans (making ▸ found))
      rw [if_pos (.inr making)] at proposed
      have active := (Order.offer?_eq_some_iff.mp proposed).1
      rw [(Order.isActive_iff.mp active).2.1] at exhausted
      cases exhausted
    by_cases taking : offer.maker = trade.taker
    · obtain rfl := Option.some.inj (fair.takerFound.symm.trans (taking ▸ found))
      rw [if_pos (.inl taking)] at proposed
      exact absurd proposed (opposed fair.takerSide)
    rw [if_neg (not_or.mpr ⟨taking, making⟩)] at proposed
    exact ⟨⟨old, found, proposed⟩, making⟩
  · rintro ⟨⟨old, found, proposed⟩, making⟩
    have taking : offer.maker ≠ trade.taker := by
      intro taking
      obtain rfl := Option.some.inj (fair.takerFound.symm.trans (taking ▸ found))
      exact opposed fair.takerSide proposed
    refine ⟨old, ?_, proposed⟩
    rw [found, Option.map_some, effect_matched, coherent.numbered found, if_neg (not_or.mpr ⟨taking, making⟩)]

private theorem Fair.offers_exchanged {order maker : Order} {side : Side} {bound : Option Price} {first : Offer}
    {rest : List Offer} (fair : ledger.Fair (order.accept first) order maker side) (coherent : ledger.Coherent carried)
    (exhausted : (maker.take (order.accept first).volume).executed = true)
    (offers : ledger.offers side bound = first :: rest) :
    (ledger.exchanged (order.accept first) order maker).offers side bound = rest := by
  have ordered := coherent.pairwise_offers side bound
  rw [offers] at ordered
  obtain ⟨ahead, later⟩ := List.pairwise_cons.mp ordered
  refine List.Pairwise.eq_of_mem_iff
    ((fair.coherent_exchanged coherent).pairwise_offers side bound) later fun offer => ?_
  rw [fair.mem_offers_exchanged coherent exhausted, offers]
  constructor
  · rintro ⟨member, apart⟩
    refine (List.mem_cons.mp member).resolve_left ?_
    rintro rfl
    exact apart rfl
  · intro member
    exact ⟨List.mem_cons_of_mem _ member, (ahead offer member).2.symm⟩

-- Either the maker is exhausted and its offer is gone, or the taker is and wants nothing more.
private theorem Fair.walk_exchanged {order maker : Order} {side : Side} {bound : Option Price} {first : Offer}
    {rest : List Offer} (fair : ledger.Fair (order.accept first) order maker side) (coherent : ledger.Coherent carried)
    (offers : ledger.offers side bound = first :: rest) :
    Offer.walk order.id (order.remaining - (order.accept first).volume)
        ((ledger.exchanged (order.accept first) order maker).offers side bound)
      = Offer.walk order.id (order.remaining - (order.accept first).volume) rest := by
  by_cases exhausted : (maker.take (order.accept first).volume).executed = true
  · rw [fair.offers_exchanged coherent exhausted offers]
  · have nothing : order.remaining - (order.accept first).volume = 0 := by
      have left : maker.remaining - (order.accept first).volume ≠ 0 := by
        intro zero
        exact exhausted (by simp [Order.take, zero])
      rw [Ne, Volume.eq_zero_iff, Volume.units_sub, fair.volume, Volume.units_min] at left
      rw [Volume.eq_zero_iff, Volume.units_sub, fair.volume, Volume.units_min]
      omega
    rw [nothing, Offer.walk_exhausted, Offer.walk_exhausted]

/-- Matching makes the trades of the walk through the offers. -/
theorem sweep_events {taker : OrderId} {order : Order} {side : Side} (coherent : ledger.Coherent (some taker))
    (found : ledger.get? taker = some order) (sided : order.side = some side)
    (state : order.isActive = true ∨ order.executed = true) :
    (ledger.sweep taker).events
      = (Offer.walk taker order.remaining (ledger.offers side order.limitPrice)).map .matched := by
  fun_induction sweep ledger taker generalizing order with
  | case1 ledger fault stuck =>
    rw [coherent.bestTrade_eq found sided] at stuck
    cases stuck
  | case2 ledger idle =>
    rw [coherent.bestTrade_eq found sided] at idle
    rcases state with active | exhausted
    · rw [if_pos active] at idle
      have nothing := List.head?_eq_none_iff.mp (Option.map_eq_none_iff.mp (Except.ok.inj idle))
      rw [nothing]
      rfl
    · rw [(coherent.regular found).remaining_of_executed exhausted, Offer.walk_exhausted]
      rfl
  | case3 ledger trade best next events fault applied =>
    obtain ⟨-, maker, fair⟩ := coherent.fair_of_bestTrade found sided best
    rw [fair.apply_eq coherent] at applied
    cases applied
  | case4 ledger trade best next events applied ih =>
    obtain ⟨active, first, rest, offers, rfl⟩ := coherent.first_of_bestTrade found sided best
    obtain ⟨maker, -, -, fair⟩ := coherent.fair_of_mem_offers found active sided (offers ▸ List.mem_cons_self)
    obtain ⟨rfl, rfl, -⟩ := Outcome.mk.inj ((fair.apply_eq coherent).symm.trans applied)
    have own : order.id = taker := coherent.numbered found
    subst own
    have wanting := Order.remaining_pos (coherent.regular found) active
    have state' := Order.active_or_executed_take active (order.accept first).volume
    have later := ih (fair.coherent_exchanged coherent) (fair.get?_taker coherent) sided state'
    have onward := fair.walk_exchanged coherent offers
    rw [offers, Offer.walk, if_neg wanting]
    change [Event.matched (order.accept first)] ++ _ = [Event.matched (order.accept first)] ++ _
    exact congrArg _ (later.trans (congrArg _ onward))

end Ledger

structure Order.LeftBy (trades : List Trade) (order rest : Order) : Prop where
  used : rest.remaining.units + Trade.volumeOf order.id trades = order.remaining.units
  executed : rest.executed = true
    ↔ order.executed = true ∨ ((∃ trade ∈ trades, trade.names order.id = true) ∧ rest.remaining = 0)
  same : rest = { order with remaining := rest.remaining, executed := rest.executed }

section Effects
variable {trades : List Trade} {order : Order}

private theorem effects_cons (event : Event) (events : List Event) (order : Order) :
    Event.effects (event :: events) order = Event.effects events (event.effect order) := rfl

private theorem effects_unnamed (unnamed : ∀ trade ∈ trades, trade.names order.id = false) :
    Event.effects (trades.map .matched) order = order := by
  induction trades with
  | nil => rfl
  | cons trade rest ih =>
    have apart : ¬ (order.id = trade.taker ∨ order.id = trade.maker) := by
      rw [← Trade.names_iff, unnamed trade List.mem_cons_self]
      exact Bool.false_ne_true
    rw [List.map_cons, effects_cons, Ledger.effect_matched, if_neg apart]
    exact ih fun other member => unnamed other (List.mem_cons_of_mem _ member)

private theorem effects_same (trades : List Trade) (order : Order) :
    Event.effects (trades.map .matched) order
      = { order with
          remaining := (Event.effects (trades.map .matched) order).remaining
          executed := (Event.effects (trades.map .matched) order).executed } := by
  induction trades generalizing order with
  | nil => rfl
  | cons trade rest ih =>
    rw [List.map_cons, effects_cons]
    refine (ih _).trans ?_
    rw [Ledger.effect_matched]
    split <;> rfl

private theorem effects_executed (trades : List Trade) (order : Order) :
    (Event.effects (trades.map .matched) order).executed = true ↔ order.executed = true
      ∨ ((∃ trade ∈ trades, trade.names order.id = true)
        ∧ (Event.effects (trades.map .matched) order).remaining = 0) := by
  induction trades generalizing order with
  | nil => simp [Event.effects]
  | cons trade rest ih =>
    rw [List.map_cons, effects_cons, ih, Order.id_effect]
    by_cases named : trade.names order.id = true
    · rw [Ledger.effect_matched, if_pos (Trade.names_iff.mp named)]
      have done : (order.take trade.volume).executed = true
          ↔ order.executed = true ∨ (order.take trade.volume).remaining = 0 := by
        simp [Order.take]
      have below := (Order.GoesOn.effects (rest.map .matched) (order.take trade.volume)).remaining
      rw [done]
      constructor
      · rintro ((executed | nothing) | ⟨-, nothing⟩)
        · exact .inl executed
        · rw [nothing, Volume.le_iff_units, Volume.units_zero, Nat.le_zero, ← Volume.eq_zero_iff] at below
          exact .inr ⟨⟨trade, List.mem_cons_self, named⟩, below⟩
        · exact .inr ⟨⟨trade, List.mem_cons_self, named⟩, nothing⟩
      · rintro (executed | ⟨-, nothing⟩)
        · exact .inl (.inl executed)
        -- If no later trade names the order, the first one has used it up.
        · by_cases later : ∃ other ∈ rest, other.names order.id = true
          · exact .inr ⟨later, nothing⟩
          · have unnamed : ∀ other ∈ rest, other.names (order.take trade.volume).id = false := by
              intro other member
              exact Bool.eq_false_iff.mpr fun also => later ⟨other, member, also⟩
            rw [effects_unnamed unnamed] at nothing
            exact .inl (.inr nothing)
    · rw [Ledger.effect_matched, if_neg (mt Trade.names_iff.mpr named)]
      simp [named]

private theorem Order.place_iff_of_filled {rest : Order} {place : IndexKind × Price} (regular : rest.Regular)
    (same : rest = { order with remaining := rest.remaining, executed := rest.executed })
    (kept : order.executed = true → rest.executed = true) :
    rest.place = some place ↔ order.place = some place ∧ rest.executed = false := by
  have waits : rest.isPending = order.isPending := by rw [same]; rfl
  cases pending : rest.isPending with
  | true =>
    have left := regular.executed_of_isPending pending
    have sameTrigger : rest.triggerPrice = order.triggerPrice := by rw [same]; rfl
    rw [pending] at waits
    simp [Order.place, pending, ← waits, sameTrigger, left]
  | false =>
    rw [pending] at waits
    cases executed : rest.executed with
    | true =>
      have idle : rest.isActive = false := by simp [Order.isActive, executed]
      simp [Order.place, pending, idle]
    | false =>
      have unfilled : order.executed = false := by
        rw [← Bool.not_eq_true]
        intro done
        rw [kept done] at executed
        cases executed
      have active : rest.isActive = order.isActive := by
        rw [same, executed]
        unfold Order.isActive
        rw [unfilled]
        rfl
      have sameSide : rest.side = order.side := by rw [same]
      have sameLimit : rest.limitPrice = order.limitPrice := by rw [same]; rfl
      simp [Order.place, pending, ← waits, active, sameSide, sameLimit]

end Effects

namespace Ledger
variable {config : Config} {ledger : Ledger} {carried : Option OrderId}

structure LeftBy (trades : List Trade) (ledger next : Ledger) : Prop where
  records : ∀ id order, ledger.get? id = some order → ∃ rest, next.get? id = some rest ∧ order.LeftBy trades rest
  others : ∀ id, (∀ trade ∈ trades, trade.names id = false) → next.get? id = ledger.get? id
  entries : ∀ kind entry, entry ∈ next.index kind
    ↔ entry ∈ ledger.index kind ∧ ∃ rest, next.get? entry.id = some rest ∧ rest.executed = false
  lastPrice : next.lastPrice = (trades.getLast?.map Trade.price).or ledger.lastPrice
  size : next.orders.size = ledger.orders.size
  nextId : next.nextId = ledger.nextId
  cancelled : next.cancelled = ledger.cancelled

/-- A history that reports nothing but trades leaves what these trades leave. -/
theorem Moves.leftBy {trades : List Trade} {next : Ledger} {before later : Option OrderId}
    (moves : Moves config ledger before (trades.map .matched) next later) (coherent : ledger.Coherent before) :
    LeftBy trades ledger next := by
  have revises := moves.revises coherent (by simp)
  have settled := moves.coherent coherent
  have goesOn := Order.GoesOn.effects (trades.map .matched)
  exact {
    records := by
      intro id order found
      obtain ⟨rest, stored, -, used⟩ := moves.conserves coherent found
      refine ⟨rest, stored, ?_⟩
      rw [Event.trades_matched] at used
      rw [revises.records, found] at stored
      obtain rfl := Option.some.inj stored
      refine ⟨?_, effects_executed trades order, effects_same trades order⟩
      rw [coherent.numbered found]
      exact used
    others := by
      intro id unnamed
      rw [revises.records]
      cases found : ledger.get? id with
      | none => rfl
      | some order =>
        rw [← coherent.numbered found] at unnamed
        rw [Option.map_some, effects_unnamed unnamed]
    entries := by
      intro kind entry
      rw [revises.entries, coherent.listed, revises.records]
      cases found : ledger.get? entry.id with
      | none => simp
      | some order =>
        have stored : next.get? entry.id = some (Event.effects (trades.map .matched) order) := by
          rw [revises.records, found]
          rfl
        simp only [Option.some.injEq, exists_eq_left', Option.map_some]
        exact Order.place_iff_of_filled (settled.regular stored) (effects_same trades order) (goesOn order).executed
    lastPrice := by rw [revises.lastPrice, Event.prices_eq, Event.trades_matched]
    size := revises.size
    nextId := revises.nextId
    cancelled := by
      refine SortedSet.eq_of_mem_iff fun id => ?_
      rw [revises.withdrawn, coherent.withdrawn]
      have same : ∀ order, (Event.effects (trades.map .matched) order).cancelled = order.cancelled := by
        intro order
        rw [effects_same]
      simp only [same] }

end Ledger
end LimitBook
