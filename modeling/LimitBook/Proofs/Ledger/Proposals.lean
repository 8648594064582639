import LimitBook.Proofs.Ledger.Application

/-! Proposals. In any ledger whose records bear the numbers of their places, the best trade of an order that is
listed at its limit goes through: choosing a trade and applying it agree on who may trade, even where indexes
and flags are wrong. -/
namespace LimitBook.Ledger
variable {ledger last next : Ledger} {taker : OrderId} {trade : Trade} {trades : List Trade} {order : Order}
    {side : Side}

structure Poised (ledger : Ledger) (taker : OrderId) (order : Order) (side : Side) : Prop where
  found : ledger.get? taker = some order
  sided : order.side = some side
  listed : order.remaining ≠ 0 → ∀ price, order.limitPrice = some price →
    (⟨price, taker⟩ : Entry) ∈ ledger.index side.indexKind

private theorem mem_of_mapM_error {α β : Type} {check : α → Except Fault β} {items : List α} {fault : Fault}
    (mapped : items.mapM check = .error fault) : ∃ item ∈ items, check item = .error fault := by
  induction items with
  | nil => cases mapped
  | cons head rest ih =>
    rw [List.mapM_cons] at mapped
    cases first : check head with
    | error reason =>
      simp only [first, bind, Except.bind] at mapped
      obtain rfl := Except.error.inj mapped
      exact ⟨head, List.mem_cons_self, first⟩
    | ok checked =>
      cases others : rest.mapM check with
      | error reason =>
        simp only [first, others, bind, Except.bind] at mapped
        obtain rfl := Except.error.inj mapped
        obtain ⟨item, member, failed⟩ := ih others
        exact ⟨item, List.mem_cons_of_mem _ member, failed⟩
      | ok more =>
        simp only [first, others, bind, Except.bind] at mapped
        cases mapped

private theorem kind_of_confirm {entry : Entry} {fault : Fault} (failed : ledger.confirm entry = .error fault) :
    fault.kind = .structuralFault := by
  unfold confirm find at failed
  split at failed
  · simp only [bind, Except.bind] at failed
    split at failed
    · cases failed
    · obtain rfl := Except.error.inj failed
      rfl
  · obtain rfl := Except.error.inj failed
    rfl

/-- The choice of a trade for an order with a side fails only on an index that disagrees with the records. -/
theorem kind_of_bestTrade {fault : Fault} (found : ledger.get? taker = some order) (sided : order.side = some side)
    (failed : ledger.bestTrade taker = .error fault) : fault.kind = .structuralFault := by
  simp only [bestTrade, find_of_get? found, sided, bind, Except.bind] at failed
  split at failed
  · cases failed
  split at failed
  · rename_i reason unconfirmed
    obtain rfl := Except.error.inj failed
    obtain ⟨entry, -, stale⟩ := mem_of_mapM_error unconfirmed
    exact kind_of_confirm stale
  · cases failed

namespace Poised

/-- The best trade of a poised order is carried out, and leaves the order poised. -/
theorem accepts (poised : ledger.Poised taker order side) (numbered : ledger.Numbered)
    (best : ledger.bestTrade taker = .ok (some trade)) :
    ∃ next, ledger.apply trade = .done next () ∧ next.Poised taker (order.take trade.volume) side := by
  obtain ⟨rfl, positive, own, maker, ownSide, fair, listed⟩ := numbered.fair_of_bestTrade best
  obtain rfl := Option.some.inj (fair.takerFound.symm.trans poised.found)
  obtain rfl := Option.some.inj (fair.takerSide.symm.trans poised.sided)
  obtain ⟨-, unfilled, -, -⟩ := Order.isActive_iff.mp fair.takerActive
  have takes := Volume.le_iff_units.mp fair.volume_le_taker
  have wanting : own.remaining ≠ 0 := by
    rw [Ne, Volume.eq_zero_iff] at positive ⊢
    omega
  have concludes := (fair.permits positive).concludes
  generalize ledger.apply trade = outcome at concludes ⊢
  cases concludes with
  | @carriedOut next exchanges =>
    refine ⟨next, rfl, ?_, poised.sided, ?_⟩
    · rw [exchanges.records, if_neg fair.apart.symm, if_pos rfl]
    · intro left price limited
      refine (exchanges.entries _ _).mpr ⟨poised.listed wanting price limited, ?_, ?_⟩
      · exact fun vacated => ownSide.indexKind_opposite_ne vacated.2.1.symm
      · rintro ⟨executed, -⟩
        simp [Order.take, unfilled] at executed left
        exact left executed
  | stopped unlisted =>
    cases unlisted with
    | unlimited _ unlimited =>
      rw [fair.price] at unlimited
      cases unlimited
    | maker _ limited absent =>
      rw [fair.price] at limited
      obtain rfl := Option.some.inj limited
      exact absurd listed absent
    | taker _ limited absent => exact absurd (poised.listed wanting _ limited) absent

end Poised

structure Halts (ledger : Ledger) (taker : OrderId) (trades : List Trade) (last : Ledger)
    (outcome : Outcome (List Trade)) :
    Prop where
  rounds : Rounds taker ledger trades last
  reported : outcome.events = trades.map .matched
  reached : outcome.ledger = last
  answered : (last.bestTrade taker = .ok none ∧ outcome.answer = .ok trades)
    ∨ ∃ fault, last.bestTrade taker = .error fault ∧ outcome.answer = .error fault ∧ fault.kind = .structuralFault

/-- A completed round goes before the others. -/
theorem Halts.after_round {outcome : Outcome (List Trade)} (halts : next.Halts taker trades last outcome)
    (round : ledger.Round taker trade next) :
    ledger.Halts taker (trade :: trades) last ((outcome.map (trade :: ·)).after [.matched trade]) where
  rounds := .head round halts.rounds
  reported := by
    change [Event.matched trade] ++ outcome.events = _
    rw [halts.reported]
    rfl
  reached := halts.reached
  answered := by
    rcases halts.answered with ⟨idle, answered⟩ | ⟨fault, stuck, answered, structural⟩
    · refine .inl ⟨idle, ?_⟩
      change outcome.answer.map (trade :: ·) = _
      rw [answered]
      rfl
    · refine .inr ⟨fault, stuck, ?_, structural⟩
      change outcome.answer.map (trade :: ·) = _
      rw [answered]
      rfl

/-- The matching of a poised order halts with the order poised. -/
theorem Poised.halts (poised : ledger.Poised taker order side) (numbered : ledger.Numbered) :
    ∃ trades last after, ledger.Halts taker trades last (ledger.sweep taker) ∧ last.Poised taker after side := by
  fun_induction sweep ledger taker generalizing order with
  | case1 ledger fault stuck =>
    have structural := kind_of_bestTrade poised.found poised.sided stuck
    exact ⟨[], ledger, order, ⟨.refl, rfl, rfl, .inr ⟨fault, stuck, rfl, structural⟩⟩, poised⟩
  | case2 ledger idle => exact ⟨[], ledger, order, ⟨.refl, rfl, rfl, .inl ⟨idle, rfl⟩⟩, poised⟩
  | case3 ledger trade best failed events fault applied =>
    obtain ⟨next, accepted, -⟩ := poised.accepts numbered best
    rw [accepted] at applied
    cases applied
  | case4 ledger trade best next events applied ih =>
    obtain ⟨_, accepted, still⟩ := poised.accepts numbered best
    rw [accepted] at applied
    cases applied
    have round : ledger.Round taker trade next := ⟨best, by rw [accepted]; exact ⟨rfl, rfl⟩⟩
    obtain ⟨trades, last, after, halts, poisedAfter⟩ := ih still (numbered.later round.continues)
    exact ⟨trade :: trades, last, after, halts.after_round round, poisedAfter⟩

/-- Whatever the indexes and the flags are, if the records bear the numbers of their places: the best trade of
an order that is listed at its limit goes through, and the order stays listed while it has volume left. Matching
it fails only where an index disagrees with the records, found in a choice before anything of that round has
changed; what has been carried out has been reported. -/
theorem proposals_go_through (numbered : ledger.Numbered) (poised : ledger.Poised taker order side) :
    (∀ trade, ledger.bestTrade taker = .ok (some trade) →
        ∃ next, (ledger.apply trade).Reaches next () ∧ next.Poised taker (order.take trade.volume) side)
      ∧ ∃ trades last after, ledger.Halts taker trades last (ledger.sweep taker) ∧ last.Poised taker after side := by
  refine ⟨fun trade best => ?_, poised.halts numbered⟩
  obtain ⟨next, accepted, still⟩ := poised.accepts numbered best
  exact ⟨next, by rw [accepted]; exact ⟨rfl, rfl⟩, still⟩

/-- An ask for two units that is counted as cancelled, a bid for three that both sides list, a sale, and a bid
of nobody. -/
def crooked : Ledger where
  orders := #[
    (Order.limit .sell (.ofUnits 2) (.ofCents 100)).numbered (.ofNumber 1),
    (Order.limit .buy (.ofUnits 3) (.ofCents 101)).numbered (.ofNumber 2),
    (Order.market .sell (.ofUnits 1)).numbered (.ofNumber 3)]
  bids := .ofList [⟨.ofCents 101, .ofNumber 2⟩, ⟨.ofCents 103, .ofNumber 9⟩]
  asks := .ofList [⟨.ofCents 100, .ofNumber 1⟩, ⟨.ofCents 101, .ofNumber 2⟩]
  stops := .empty
  nextId := .first
  cancelled := .ofList [.ofNumber 1]
  lastPrice := none

/-- The bid passes over its own entry among the asks and takes what there is. The sale comes upon a bid of nobody. -/
theorem proposals_go_through_crooked : crooked.Numbered
    ∧ (∃ order trades last after, crooked.Poised (.ofNumber 2) order .buy
        ∧ crooked.Halts (.ofNumber 2) trades last (crooked.sweep (.ofNumber 2)) ∧ last.Poised (.ofNumber 2) after .buy
        ∧ (crooked.sweep (.ofNumber 2)).answer = .ok [⟨.ofNumber 2, .ofNumber 1, .ofUnits 2, .ofCents 100⟩])
    ∧ ∃ order trades last after, crooked.Poised (.ofNumber 3) order .sell
        ∧ crooked.Halts (.ofNumber 3) trades last (crooked.sweep (.ofNumber 3)) ∧ last.Poised (.ofNumber 3) after .sell
        ∧ (crooked.sweep (.ofNumber 3)).answer = .error (.unknownOrder (.ofNumber 9)) := by
  have numbered : crooked.Numbered := by
    intro place record stored
    obtain ⟨within, rfl⟩ := Array.getElem?_eq_some_iff.mp stored
    have all : ∀ place : Fin 3, crooked.orders[place].id.number = place + 1 := by decide +kernel
    exact all ⟨place, within⟩
  have bid : crooked.Poised (.ofNumber 2)
      ((Order.limit .buy (.ofUnits 3) (.ofCents 101)).numbered (.ofNumber 2)) .buy := by
    refine ⟨by decide, rfl, fun _ price limited => ?_⟩
    obtain rfl := Option.some.inj limited
    rw [SortedSet.mem_iff]
    decide +kernel
  have sale : crooked.Poised (.ofNumber 3) ((Order.market .sell (.ofUnits 1)).numbered (.ofNumber 3)) .sell :=
    ⟨by decide, rfl, fun _ price limited => by cases limited⟩
  obtain ⟨trades, last, after, halts, poised⟩ := (proposals_go_through numbered bid).2
  obtain ⟨idle, same, left, stopped, still⟩ := (proposals_go_through numbered sale).2
  exact ⟨numbered, ⟨_, trades, last, after, bid, halts, poised, by decide +kernel⟩,
    _, idle, same, left, sale, stopped, still, by decide +kernel⟩

end LimitBook.Ledger
