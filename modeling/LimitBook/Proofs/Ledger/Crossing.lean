import LimitBook.Proofs.Ledger.Moves

/-! Crossing prices. An order may cross the other side only while it is in flight: it comes to rest when nothing on
the other side meets its limit. -/
namespace LimitBook.Ledger

variable {config : Config} {ledger next : Ledger} {before later : Option OrderId} {events : List Event} {id : OrderId}

def Uncrossed (ledger : Ledger) (carried : Option OrderId) : Prop :=
  ∀ bid ∈ ledger.index .bids, ∀ ask ∈ ledger.index .asks, carried ≠ some bid.id → carried ≠ some ask.id →
    bid.price < ask.price

theorem uncrossed_empty : empty.Uncrossed none := by
  intro bid bidding
  cases bidding

namespace Move

private theorem lands (move : Move config ledger (some id) events next later) : later = none ∨ later = some id := by
  cases move with
  | trade => exact .inr rfl
  | close => exact .inl rfl
  | rest => exact .inl rfl
  | discard => exact .inl rfl

/-- On the two sides a move enters nothing but the order that it leaves in flight. -/
theorem listed_before (move : Move config ledger before events next later) (coherent : ledger.Coherent before)
    (side : Side) {entry : Entry} (listed : entry ∈ next.index side.indexKind) (landed : later ≠ some entry.id) :
    entry ∈ ledger.index side.indexKind := by
  cases move with
  | park | close | rest | ignore | reject => exact listed
  | @enrol order room admissible =>
    rw [admitted, mem_enlist, index_store] at listed
    rcases listed with old | ⟨new, placed⟩
    · exact old
    · have active := (Order.place_eq_side_iff.mp placed).1
      rw [Order.isActive_numbered] at active
      rw [if_pos active, new] at landed
      exact absurd rfl landed
  | trade fair =>
    rw [exchanged, mem_release, mem_release, index_filled] at listed
    exact listed.1.1
  | discard found =>
    rw [index_discard, coherent.mem_delist found] at listed
    exact listed.1
  | withdraw found =>
    rw [index_discard, coherent.mem_delist found] at listed
    exact listed.1
  | trigger found =>
    rw [promoted, mem_enlist, index_put, coherent.mem_delist found, Order.id_fire, coherent.numbered found] at listed
    rcases listed with ⟨old, -⟩ | ⟨new, -⟩
    · exact old
    · exact absurd (congrArg some new.symm) landed

/-- What an order in flight leaves resting meets no entry of the other side. -/
theorem not_within_of_landed (move : Move config ledger (some id) events next none)
    (coherent : ledger.Coherent (some id))
    (side : Side) {own other : Entry} (resting : own ∈ next.index side.indexKind) (mine : own.id = id)
    (offered : other ∈ next.index side.opposite.indexKind) : side.within own.price other.price = false := by
  cases move with
  | close found exhausted =>
    obtain ⟨record, stored, placed⟩ := coherent.listed.mp resting
    rw [mine, found] at stored
    obtain rfl := Option.some.inj stored
    rw [(Order.isActive_iff.mp (Order.place_eq_side_iff.mp placed).1).2.1] at exhausted
    cases exhausted
  | discard found =>
    rw [index_discard, coherent.mem_delist found] at resting
    exact absurd mine resting.2
  | rest found active idle =>
    obtain ⟨record, stored, placed⟩ := coherent.listed.mp resting
    rw [mine, found] at stored
    obtain rfl := Option.some.inj stored
    obtain ⟨-, sided, bound⟩ := Order.place_eq_side_iff.mp placed
    rw [coherent.bestTrade_eq found sided, if_pos active] at idle
    have nothing := List.head?_eq_none_iff.mp (Option.map_eq_none_iff.mp (Except.ok.inj idle))
    rw [← Bool.not_eq_true]
    intro meets
    -- An entry within the limit would still be an offer.
    have candidate : other ∈ (ledger.index side.opposite.indexKind).atOrBetter (some own.price) (side = .sell) := by
      rw [PriceIndex.mem_atOrBetter]
      exact ⟨offered, fun limit given => Option.some.inj given ▸ meets⟩
    obtain ⟨maker, there, proposes⟩ := coherent.mem_candidates.mp candidate
    rw [← bound] at proposes
    have offer := coherent.mem_offers.mpr ⟨maker, there, proposes⟩
    rw [nothing] at offer
    cases offer

theorem uncrossed (move : Move config ledger before events next later) (coherent : ledger.Coherent before)
    (uncrossed : ledger.Uncrossed before) : next.Uncrossed later := by
  intro bid bidding ask asking apartBid apartAsk
  have oldBid := move.listed_before coherent .buy bidding apartBid
  have oldAsk := move.listed_before coherent .sell asking apartAsk
  -- If one of the two was in flight it has landed, since it is in flight no more.
  by_cases bidFlew : before = some bid.id
  · subst bidFlew
    obtain rfl := move.lands.resolve_right apartBid
    have apart := move.not_within_of_landed coherent .buy bidding rfl asking
    simp only [Side.within, decide_eq_false_iff_not, Fixed.le_iff_raw] at apart
    exact Fixed.lt_iff_raw.mpr (by omega)
  by_cases askFlew : before = some ask.id
  · subst askFlew
    obtain rfl := move.lands.resolve_right apartAsk
    have apart := move.not_within_of_landed coherent .sell asking rfl bidding
    simp only [Side.within, decide_eq_false_iff_not, Fixed.le_iff_raw] at apart
    exact Fixed.lt_iff_raw.mpr (by omega)
  exact uncrossed bid oldBid ask oldAsk bidFlew askFlew

end Move

theorem Moves.uncrossed (moves : Moves config ledger before events next later) (coherent : ledger.Coherent before)
    (uncrossed : ledger.Uncrossed before) : next.Uncrossed later := by
  induction moves with
  | refl => exact uncrossed
  | tail moves move ih => exact move.uncrossed (moves.coherent coherent) (ih coherent uncrossed)

/-- Every entry on the two sides has a positive price. -/
theorem Rooted.positive (rooted : ledger.Rooted config) {carried : Option OrderId} (coherent : ledger.Coherent carried)
    (side : Side) {entry : Entry} (listed : entry ∈ ledger.index side.indexKind) : 0 < entry.price :=
  (rooted.quotes coherent listed).positive

end LimitBook.Ledger
