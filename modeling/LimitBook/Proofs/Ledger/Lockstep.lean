import LimitBook.Proofs.Ledger.Calls
import LimitBook.Proofs.Ledger.Likeness

/-! Lockstep. Alike ledgers that carry out the same order, up to a renaming, report the same and are alike again. -/
namespace LimitBook

namespace Offer
variable {taker : OrderId} {wanted : Volume} {offers : List Offer}

private theorem walk_map (names : Renaming) :
    walk taker wanted (offers.map names.offer) = (walk taker wanted offers).map names.trade := by
  induction offers generalizing wanted with
  | nil => rfl
  | cons offer rest ih =>
    rw [List.map_cons, walk, walk]
    split
    · rfl
    · exact congrArg (List.cons _) ih

private theorem exists_offer_of_mem_walk {trade : Trade} (taken : trade ∈ walk taker wanted offers) :
    ∃ offer ∈ offers, offer.price = trade.price := by
  induction offers generalizing wanted with
  | nil => cases taken
  | cons offer rest ih =>
    rw [walk] at taken
    split at taken
    · cases taken
    · rcases List.mem_cons.mp taken with rfl | later
      · exact ⟨offer, List.mem_cons_self, rfl⟩
      · obtain ⟨other, member, priced⟩ := ih later
        exact ⟨other, List.mem_cons_of_mem _ member, priced⟩

end Offer

def Order.landing (order : Order) : Landing :=
  if order.executed then .exhausted
  else
    match order.side, order.limitPrice with
    | some side, some price => .rested side price order.remaining
    | _, _ => .discarded

private theorem Order.executed_eq_not_isLive {order : Order} (state : order.isActive = true ∨ order.executed = true) :
    order.executed = !order.isLive := by
  rcases state with active | executed
  · rw [isLive_of_isActive active, (isActive_iff.mp active).2.1]
    rfl
  · simp [isLive, executed]

private theorem Order.Resembles.landing_events {names : Renaming} {order other : Order}
    (alike : order.Resembles names other) (id : OrderId)
    (state : order.isActive = true ∨ order.executed = true) (also : other.isActive = true ∨ other.executed = true) :
    other.landing.events id = (order.landing.events id).map names.event := by
  unfold Order.landing
  rw [executed_eq_not_isLive state, executed_eq_not_isLive also, alike.isLive]
  cases live : order.isLive with
  | false => rfl
  | true =>
    rw [alike.side live, alike.limitPrice live, alike.remaining live]
    cases order.side <;> cases order.limitPrice <;> rfl

private theorem Ledger.settle_events {ledger : Ledger} {id : OrderId} {order : Order}
    (found : ledger.get? id = some order) :
    (ledger.settle id).events = order.landing.events id := by
  unfold settle Order.landing
  rw [find_of_get? found]
  dsimp only
  cases order.executed <;> cases order.side <;> cases order.limitPrice <;> rfl

namespace Likeness
open Ledger (Coherent Moves InFlight Awaits)

variable {names : Renaming} {like : Likeness names} {config further : Config} {ledger other : Ledger}
    {id taker : OrderId}
  {price : Price} {one two : Outcome (List Trade)}

structure Agree (like : Likeness names) (one two : Outcome (List Trade)) : Prop where
  between : like.Between one.ledger two.ledger none
  events : two.events = one.events.map names.event
  answer : one.answer = .ok (Event.trades one.events)
  reply : two.answer = .ok (Event.trades two.events)
  known : ∀ trade ∈ Event.trades one.events, names.knows trade.price

namespace Agree

theorem trades (agree : like.Agree one two) : Event.trades two.events = (Event.trades one.events).map names.trade := by
  rw [agree.events]
  exact Event.trades_rename

private theorem after {events : List Event} (agree : like.Agree one two) (quiet : Event.trades events = []) :
    like.Agree (one.after events) (two.after (events.map names.event)) where
  between := agree.between
  events := by
    change _ ++ two.events = (events ++ one.events).map names.event
    rw [agree.events, List.map_append]
  answer := by
    change one.answer = .ok (Event.trades (events ++ one.events))
    rw [Event.trades_append, quiet, List.nil_append, agree.answer]
  reply := by
    have also : Event.trades (events.map names.event) = [] := by
      refine Event.trades_rename.trans ?_
      rw [quiet]
      rfl
    change two.answer = .ok (Event.trades (_ ++ two.events))
    rw [Event.trades_append, also, List.nil_append, agree.reply]
  known := by
    change ∀ trade ∈ Event.trades (events ++ one.events), _
    rw [Event.trades_append, quiet, List.nil_append]
    exact agree.known

private theorem andThen {onward further : Ledger → List Trade → Outcome (List Trade)} (first : like.Agree one two)
    (rest : like.Agree (onward one.ledger (Event.trades one.events)) (further two.ledger (Event.trades two.events))) :
    like.Agree (one.andThen fun reached own => (onward reached own).map (own ++ ·))
      (two.andThen fun reached own => (further reached own).map (own ++ ·)) := by
  unfold Outcome.andThen
  rw [first.answer, first.reply]
  refine ⟨rest.between, ?_, ?_, ?_, ?_⟩
  · change two.events ++ (further two.ledger (Event.trades two.events)).events
      = (one.events ++ (onward one.ledger (Event.trades one.events)).events).map names.event
    rw [rest.events, first.events, List.map_append]
  · change (onward _ _).answer.map _ = .ok (Event.trades (one.events ++ _))
    rw [rest.answer, Event.trades_append]
    rfl
  · change (further _ _).answer.map _ = .ok (Event.trades (two.events ++ _))
    rw [rest.reply, Event.trades_append]
    rfl
  · intro trade member
    change trade ∈ Event.trades (one.events ++ _) at member
    rw [Event.trades_append] at member
    rcases List.mem_append.mp member with own | later
    · exact first.known trade own
    · exact rest.known trade later

end Agree

namespace Between

/-- Alike ledgers match an order alike. -/
theorem sweep (between : like.Between ledger other (some taker)) (flying : ledger.InFlight taker)
    (also : other.InFlight taker) :
    like.Between (ledger.sweep taker).ledger (other.sweep taker).ledger (some taker)
      ∧ (other.sweep taker).events = (ledger.sweep taker).events.map names.event
      ∧ ∀ trade ∈ Event.trades (ledger.sweep taker).events, names.knows trade.price := by
  have swept := (Ledger.sweep_carries .standard between.coherent flying).1
  have copies := (Ledger.sweep_carries .standard between.also also).1
  obtain ⟨order, side, found, sided, state⟩ := flying
  obtain ⟨copy, copySide, there, copySided, copyState⟩ := also
  obtain ⟨_, there', related⟩ := between.found found
  obtain rfl := Option.some.inj (there.symm.trans there')
  have alike := like.resembles related
  have walked := Ledger.sweep_events between.coherent found sided state
  have events : (other.sweep taker).events = (ledger.sweep taker).events.map names.event := by
    rw [walked, Ledger.sweep_events between.also there copySided copyState]
    cases live : order.isLive with
    | false =>
      -- Exhausted orders want nothing, whatever is offered to them.
      have spent := Order.executed_eq_not_isLive state
      have copySpent := Order.executed_eq_not_isLive copyState
      rw [live] at spent
      rw [alike.isLive, live] at copySpent
      rw [(between.coherent.regular found).remaining_of_executed spent,
        (between.also.regular there).remaining_of_executed copySpent, Offer.walk_exhausted, Offer.walk_exhausted]
      rfl
    | true =>
      have sides : copySide = names.side side := by
        have given := alike.side live
        rw [copySided, sided] at given
        exact Option.some.inj given
      rw [alike.remaining live, alike.limitPrice live, sides, between.offers side fun limit => alike.known_limit,
        Offer.walk_map, List.map_map, List.map_map]
      rfl
  refine ⟨between.moved swept.moves (events ▸ copies.moves) ?_, events, ?_⟩
  · rw [walked]
    simp
  · rw [walked, Event.trades_matched]
    intro trade taken
    obtain ⟨offer, offered, priced⟩ := Offer.exists_offer_of_mem_walk taken
    exact priced ▸ between.known_of_mem_offers offered

/-- Alike ledgers carry an order out alike. -/
theorem execute (between : like.Between ledger other (some taker)) (flying : ledger.InFlight taker)
    (also : other.InFlight taker) :
    like.Agree (ledger.execute taker) (other.execute taker) := by
  have executed := Ledger.execute_carries .standard between.coherent flying
  have copies := Ledger.execute_carries .standard between.also also
  obtain ⟨swept, walked, known⟩ := between.sweep flying also
  obtain ⟨carried, ⟨order, _, found, -, state⟩, -⟩ := Ledger.sweep_carries .standard between.coherent flying
  obtain ⟨copied, ⟨copy, _, there, -, copyState⟩, -⟩ := Ledger.sweep_carries .standard between.also also
  obtain ⟨_, there', related⟩ := swept.found found
  obtain rfl := Option.some.inj (there.symm.trans there')
  have whole : (ledger.execute taker).events = (ledger.sweep taker).events ++ order.landing.events taker := by
    rw [← Ledger.settle_events found, Ledger.execute, Outcome.andThen, carried.answer]
    rfl
  have events : (other.execute taker).events = (ledger.execute taker).events.map names.event := by
    rw [whole, List.map_append, ← walked, ← (like.resembles related).landing_events taker state copyState,
      ← Ledger.settle_events there, Ledger.execute, Outcome.andThen, copied.answer]
    rfl
  obtain ⟨turn, -, turned⟩ := Ledger.execute_turn between.coherent flying
  have settled : ∀ id, .accepted id ∉ (ledger.execute taker).events := by
    intro id member
    cases Turn.isRecorded _ (turned ▸ member)
  refine ⟨between.moved executed.moves (events ▸ copies.moves) settled, events, executed.answer, copies.answer, ?_⟩
  rw [whole, Event.trades_append, Landing.trades_events, List.append_nil]
  exact known

/-- The stops that one trade fires are carried out alike. -/
theorem fire {ids : List OrderId} (between : like.Between ledger other none) (known : names.knows price)
    (ascending : ids.Pairwise (· < ·)) (await : ∀ id ∈ ids, ledger.Awaits price id) :
    like.Agree (Ledger.fire .settling price ledger ids) (Ledger.fire .settling (names.price price) other ids) := by
  induction ids generalizing ledger other with
  | nil => exact ⟨between, rfl, rfl, rfl, by simp [Ledger.fire, Outcome.done]⟩
  | cons id rest ih =>
    obtain ⟨stop, fires⟩ := (await id List.mem_cons_self).fires between.coherent
    obtain ⟨copy, refires⟩ := ((between.awaits_iff known).mpr (await id List.mem_cons_self)).fires between.also
    have promoted : like.Between (ledger.promoted id stop) (other.promoted id copy) (some id) :=
      between.moved (.single (fires.trigger .standard)) (.single (refires.trigger .standard)) (by simp)
    have executed := promoted.execute fires.ready refires.ready
    have others := ih executed.between ascending.of_cons (fires.rest_await ascending await)
    rw [fires.fire_cons, refires.fire_cons]
    exact (executed.andThen others).after rfl

/-- Alike ledgers follow trades at the same prices alike through all stops that they fire. -/
theorem cascade {waiting : List Price} (between : like.Between ledger other none)
    (known : ∀ price ∈ waiting, names.knows price) :
    like.Agree (Ledger.cascade .settling ledger waiting)
    (Ledger.cascade .settling other (waiting.map names.price)) := by
  fun_induction Ledger.cascade Executor.settling ledger waiting generalizing other with
  | case1 ledger =>
    rw [List.map_nil, Ledger.cascade]
    exact ⟨between, rfl, rfl, rfl, by simp [Outcome.done]⟩
  | case2 ledger price waiting fault stuck =>
    obtain ⟨ids, firing, -⟩ := between.coherent.firedBy_eq price
    rw [firing] at stuck
    cases stuck
  | case3 ledger price waiting ids firing next events fault fired =>
    obtain ⟨chosen, same, ascending, await⟩ := between.coherent.firedBy_eq price
    obtain rfl := Except.ok.inj (firing.symm.trans same)
    have batch := between.fire (known price List.mem_cons_self) ascending fun id => (await id).mp
    have answered := batch.answer
    rw [fired] at answered
    cases answered
  | case4 ledger price waiting ids firing next events trades fired ih =>
    obtain ⟨chosen, same, ascending, await⟩ := between.coherent.firedBy_eq price
    obtain rfl := Except.ok.inj (firing.symm.trans same)
    have here := known price List.mem_cons_self
    have batch := between.fire here ascending fun id => (await id).mp
    rw [List.map_cons, Ledger.cascade_cons, between.firedBy here, firing]
    rw [fired] at batch
    obtain rfl : trades = Event.trades events := Except.ok.inj batch.answer
    have later := ih batch.between (by
      intro other member
      rcases List.mem_append.mp member with queued | fresh
      · exact known other (List.mem_cons_of_mem _ queued)
      · obtain ⟨trade, traded, rfl⟩ := List.mem_map.mp fresh
        exact batch.known trade traded)
    have prices : (waiting ++ (Event.trades events).map Trade.price).map names.price
        = waiting.map names.price
          ++ (Event.trades (Ledger.fire .settling (names.price price) other ids).events).map Trade.price := by
      rw [batch.trades, List.map_append, List.map_map, List.map_map]
      rfl
    rw [prices] at later
    change like.Agree
      (Outcome.andThen ⟨next, events, .ok (Event.trades events)⟩ fun reached own =>
        (Ledger.cascade .settling reached (waiting ++ own.map Trade.price)).map (own ++ ·))
      ((Ledger.fire .settling (names.price price) other ids).andThen fun reached own =>
        (Ledger.cascade .settling reached (waiting.map names.price ++ own.map Trade.price)).map (own ++ ·))
    exact batch.andThen later

private theorem trade (between : like.Between ledger other (some taker)) (flying : ledger.InFlight taker)
    (also : other.InFlight taker) :
    like.Agree (ledger.trade taker) (other.trade taker) := by
  have executed := between.execute flying also
  have prices : (Event.trades (other.execute taker).events).map Trade.price
      = ((Event.trades (ledger.execute taker).events).map Trade.price).map names.price := by
    rw [executed.trades, List.map_map, List.map_map]
    rfl
  have known : ∀ price ∈ (Event.trades (ledger.execute taker).events).map Trade.price, names.knows price := by
    intro price member
    obtain ⟨trade, traded, rfl⟩ := List.mem_map.mp member
    exact executed.known trade traded
  have others := executed.between.cascade known
  rw [← prices] at others
  exact executed.andThen others

/-- Alike ledgers withdraw the same target, or pass over it. -/
theorem withdraw {target : OrderId} (between : like.Between ledger other none) :
    like.Agree ((ledger.withdraw id target).map fun _ => []) ((other.withdraw id target).map fun _ => []) := by
  have same : ∀ {order copy : Order}, like.rel order copy →
      Ledger.isWithdrawable id copy = Ledger.isWithdrawable id order := by
    intro order copy related
    have alike := like.resembles related
    rw [Bool.eq_iff_iff, Ledger.isWithdrawable_iff_isLive, Ledger.isWithdrawable_iff_isLive, alike.id, alike.isLive]
  rcases Ledger.withdraw_cases between.coherent id target with
    ⟨closed, passes⟩ | ⟨order, found, withdrawable, withdraws⟩
  · have also : (other.get? target).filter (Ledger.isWithdrawable id) = none := by
      rw [Option.filter_eq_none_iff] at closed ⊢
      intro copy there
      obtain ⟨order, found, related⟩ := between.original there
      rw [same related]
      exact closed order found
    rcases Ledger.withdraw_cases between.also id target with ⟨-, passes'⟩ | ⟨copy, there, withdrawable, -⟩
    · rw [passes, passes']
      exact ⟨between, rfl, rfl, rfl, by simp [Outcome.map, Event.trades, Event.trade?]⟩
    · rw [there, Option.filter_eq_none_iff] at also
      exact absurd withdrawable (also copy rfl)
  · obtain ⟨copy, there, related⟩ := between.found found
    rcases Ledger.withdraw_cases between.also id target with ⟨closed, -⟩ | ⟨_, there', rewithdrawable, rewithdraws⟩
    · rw [there, Option.filter_eq_none_iff] at closed
      exact absurd ((same related).trans withdrawable) (closed copy rfl)
    · obtain rfl := Option.some.inj (there.symm.trans there')
      have move : Moves .standard ledger none [.cancelled target .requested] _ none :=
        .single (.withdraw found withdrawable)
      have remove : Moves .standard other none [.cancelled target .requested] _ none :=
        .single (.withdraw there rewithdrawable)
      rw [withdraws, rewithdraws]
      exact ⟨between.moved move remove (by simp), rfl, rfl, rfl, by simp [Outcome.map, Event.trades, Event.trade?]⟩

section Acceptance
variable {order : Order}

/-- Alike ledgers that admit the same order are alike. -/
theorem admitted (between : like.Between ledger other none) (room : ledger.orders.size + 1 < 0x1_0000_0000_0000_0000)
    (admissible : order.Admissible config) (also : (names.order order).Admissible further)
    (known : ∀ price ∈ order.kind.prices, names.knows price) :
    like.Between (ledger.admitted order) (other.admitted (names.order order))
      (if order.isActive then some ledger.nextId else none) := by
  have space : other.orders.size + 1 < 0x1_0000_0000_0000_0000 := by
    rw [between.size]
    exact room
  have copied := Ledger.coherent_admitted between.also space also
  have active : (names.order order).isActive = order.isActive := Order.isActive_rename
  rw [active, between.nextId] at copied
  refine ⟨Ledger.coherent_admitted between.coherent room admissible, copied, ?_, ?_, ?_⟩
  · rw [Ledger.size_admitted, Ledger.size_admitted, between.size]
  · intro id
    rw [between.coherent.get?_admitted room, between.also.get?_admitted space, between.nextId]
    split
    · exact .some (like.fresh ledger.nextId known)
    · exact between.records id
  · have kept : ∀ (state : Ledger) (new : Order), (state.admitted new).lastPrice = state.lastPrice := by
      intro state new
      rw [Ledger.admitted, Ledger.lastPrice_enlist, Ledger.lastPrice_store]
    rw [kept, kept]
    exact between.last

/-- Alike ledgers that take in the same order report the same. -/
theorem accept (between : like.Between ledger other none) (room : ledger.orders.size + 1 < 0x1_0000_0000_0000_0000)
    (admissible : order.Admissible config) (also : (names.order order).Admissible further)
    (known : ∀ price ∈ order.kind.prices, names.knows price) :
    like.Agree (ledger.accept order) (other.accept (names.order order)) := by
  have space : other.orders.size + 1 < 0x1_0000_0000_0000_0000 := by
    rw [between.size]
    exact room
  have settled := between.admitted room admissible also known
  rw [Ledger.accept_eq between.coherent room, Ledger.accept_eq between.also space]
  suffices carried : like.Agree
      ((ledger.store order).carryOut ledger.nextId (order.numbered ledger.nextId))
      ((other.store (names.order order)).carryOut other.nextId ((names.order order).numbered other.nextId)) by
    have reported : [Event.accepted other.nextId] = [Event.accepted ledger.nextId].map names.event := by
      rw [between.nextId]
      rfl
    rw [reported]
    exact carried.after rfl
  rcases admissible.kind_cases with active | ⟨idle, trigger, limit, kind⟩ | ⟨idle, target, kind⟩
  · have reactive : (names.order order).isActive = true := Order.isActive_rename.trans active
    have flying := Ledger.inFlight_admitted between.coherent room admissible active
    have reflying := Ledger.inFlight_admitted between.also space also reactive
    rw [if_pos active] at settled
    rw [Ledger.carryOut_of_active admissible active, Ledger.carryOut_of_active also reactive]
    rw [between.nextId] at reflying ⊢
    exact settled.trade flying reflying
  · have rekind : (names.order order).kind = .stop (names.price trigger) (limit.map names.price) :=
      congrArg (OrderKind.rename names.price) kind
    rw [idle] at settled
    rw [Ledger.carryOut_of_stop admissible kind, Ledger.carryOut_of_stop also rekind, between.nextId]
    exact ⟨settled, rfl, rfl, rfl, by simp [Event.trades, Event.trade?]⟩
  · have rekind : (names.order order).kind = .cancel target := congrArg (OrderKind.rename names.price) kind
    rw [idle] at settled
    rw [Ledger.carryOut_of_cancel admissible kind, Ledger.carryOut_of_cancel also rekind, between.nextId]
    exact settled.withdraw

end Acceptance

end Between
end Likeness
end LimitBook
