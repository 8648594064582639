import LimitBook.Proofs.Ledger.Continuity
import LimitBook.Proofs.Ledger.Offers

/-! Rounds of matching. Where each record stands at the place of its number, whatever the indexes, the flags and
the volumes say, a completed round takes volume from the taker, and either exhausts it or takes an entry from
the other side. -/
namespace LimitBook

private theorem Trade.mem_of_best? {side : Side} {trades : List Trade} {trade : Trade}
    (chosen : best? side trades = some trade) :
    trade ∈ trades := by
  have trading : trades ≠ [] := by
    rintro rfl
    cases chosen
  obtain ⟨first, same, member, -⟩ := exists_best side trading
  obtain rfl := Option.some.inj (same.symm.trans chosen)
  exact member

private theorem Order.eq_of_tradeWith? {taker maker : Order} {price : Price} {trade : Trade}
    (trades : taker.tradeWith? maker price = some trade) :
    ∃ side, taker.side = some side ∧ maker.side = some side.opposite
      ∧ (∀ limit, taker.limitPrice = some limit → side.within limit price = true) ∧ trade.volume ≠ 0
      ∧ trade = ⟨taker.id, maker.id, min taker.remaining maker.remaining, price⟩ := by
  unfold tradeWith? at trades
  split at trades
  · rename_i takerSide makerSide takes makes
    dsimp only at trades
    split at trades
    · cases trades
    rename_i apart
    split at trades
    · cases trades
    split at trades
    · cases trades
    rename_i meets
    split at trades
    · cases trades
    rename_i wanted
    obtain rfl := Option.some.inj trades
    refine ⟨takerSide, takes, ?_, ?_, wanted, rfl⟩
    · have sides : takerSide ≠ makerSide := fun same => by simp [same] at apart
      rw [makes, Side.eq_opposite_of_ne sides]
    · intro limit limited
      simpa [limited] using meets
  · cases trades

namespace Ledger
variable {ledger next : Ledger} {taker id : OrderId} {trade : Trade} {trades : List Trade} {order : Order} {side : Side}

private theorem eq_of_confirm {entry shown : Entry} (confirmed : ledger.confirm entry = .ok (shown, order)) :
    shown = entry ∧ ledger.get? entry.id = some order ∧ order.isActive = true
      ∧ order.limitPrice = some entry.price := by
  unfold confirm at confirmed
  cases found : ledger.find entry.id with
  | error fault => simp [found, bind, Except.bind] at confirmed
  | ok stored =>
    simp only [found, bind, Except.bind] at confirmed
    split at confirmed
    · rename_i agrees
      obtain ⟨rfl, rfl⟩ := Prod.mk.inj (Except.ok.inj confirmed)
      rw [Bool.and_eq_true, decide_eq_true_eq] at agrees
      exact ⟨rfl, get?_of_find found, agrees⟩
    · cases confirmed

/-- Every record bears the number of its place. Nothing is asked of its flags and volumes, or of the indexes. -/
def Numbered (ledger : Ledger) : Prop :=
  ∀ (place : Nat) (record : Order), ledger.orders[place]? = some record → record.id.number = place + 1

private theorem Numbered.id_eq (numbered : ledger.Numbered) (found : ledger.get? id = some order) : order.id = id := by
  have assigned := ne_unassigned_of_get? found
  simp only [Ledger.get?, assigned, if_false] at found
  have same := numbered _ _ found
  exact OrderId.ext (by omega)

theorem Numbered.later (numbered : ledger.Numbered) (continues : ledger.Continues next) : next.Numbered := by
  intro place record stored
  obtain ⟨old, there, goesOn⟩ := continues.record_before stored
  rw [goesOn.sameId]
  exact numbered place old there

structure Round (ledger : Ledger) (taker : OrderId) (trade : Trade) (next : Ledger) : Prop where
  best : ledger.bestTrade taker = .ok (some trade)
  applied : (ledger.apply trade).Reaches next ()

def opposing (ledger : Ledger) (order : Order) : Nat :=
  order.side.elim 0 fun side => (ledger.index side.opposite.indexKind).size

private theorem bestTrade_cases (best : ledger.bestTrade taker = .ok (some trade)) :
    ∃ order side, ledger.get? taker = some order ∧ order.isActive = true ∧ order.side = some side
      ∧ ∃ entry ∈ ledger.index side.opposite.indexKind, ∃ maker, ledger.confirm entry = .ok (entry, maker)
        ∧ order.tradeWith? maker entry.price = some trade := by
  unfold bestTrade at best
  cases found : ledger.find taker with
  | error fault => simp [found, bind, Except.bind] at best
  | ok order =>
    simp only [found, bind, Except.bind] at best
    split at best
    · cases best
    rename_i ready
    split at best
    · cases best
    rename_i side sided
    split at best
    · cases best
    rename_i makers confirmed
    have offered := Trade.mem_of_best? (Except.ok.inj best)
    obtain ⟨⟨shown, maker⟩, listed, traded⟩ := List.mem_filterMap.mp offered
    obtain ⟨entry, candidate, passes⟩ := mem_of_mapM confirmed listed
    obtain ⟨rfl, -⟩ := eq_of_confirm passes
    rw [Bool.or_eq_true, not_or, Bool.not_eq_true', Bool.not_eq_false] at ready
    exact ⟨order, side, get?_of_find found, ready.1, sided, shown, (PriceIndex.mem_atOrBetter.mp candidate).1,
      maker, passes, traded⟩

/-- The preferred trade is fair, and the maker is listed at its price. -/
theorem Numbered.fair_of_bestTrade (numbered : ledger.Numbered) (best : ledger.bestTrade taker = .ok (some trade)) :
    trade.taker = taker ∧ trade.volume ≠ 0 ∧ ∃ order maker side, ledger.Fair trade order maker side
      ∧ (⟨trade.price, trade.maker⟩ : Entry) ∈ ledger.index side.opposite.indexKind := by
  obtain ⟨order, side, found, active, sided, entry, listed, maker, confirmed, traded⟩ := bestTrade_cases best
  obtain ⟨-, stored, makes, limited⟩ := eq_of_confirm confirmed
  obtain ⟨own, takes, opposed, within, positive, rfl⟩ := Order.eq_of_tradeWith? traded
  obtain rfl := Option.some.inj (takes.symm.trans sided)
  have takerId := numbered.id_eq found
  have makerId := numbered.id_eq stored
  refine ⟨takerId, positive, order, maker, own, ?_, ?_⟩
  · exact {
      takerFound := by rw [takerId, found]
      makerFound := by rw [makerId, stored]
      takerActive := active
      makerActive := makes
      takerSide := takes
      makerSide := opposed
      price := limited
      within := within
      volume := rfl }
  · rw [makerId]
    exact listed

private theorem Round.fair (round : ledger.Round taker trade next) (numbered : ledger.Numbered) :
    trade.taker = taker ∧ trade.volume ≠ 0 ∧ ∃ order maker side, ledger.Fair trade order maker side
      ∧ (⟨trade.price, trade.maker⟩ : Entry) ∈ ledger.index side.opposite.indexKind :=
  numbered.fair_of_bestTrade round.best

theorem size_leave {kind : IndexKind} {entry : Entry} (left : ledger.leave kind entry = .ok next) (other : IndexKind) :
    (next.index other).size + (if other = kind then 1 else 0) = (ledger.index other).size := by
  obtain ⟨member, rfl⟩ := eq_of_leave left
  rw [index_setIndex]
  by_cases same : other = kind
  · subst same
    rw [if_pos rfl, if_pos rfl]
    exact SortedSet.size_erase member
  · rw [if_neg same, if_neg same, Nat.add_zero]

section Retirement
variable {limit : Option Price} {price : Price} {rested : Bool}

theorem get?_of_retire (retired : ledger.retire id side limit rested = .ok next) (other : OrderId) :
    next.get? other = ledger.get? other := by
  rcases eq_or_leave_of_retire retired with rfl | ⟨price, -, left⟩
  · rfl
  · rw [(eq_of_leave left).2, get?_setIndex]

private theorem leave_of_retire (found : ledger.get? id = some order) (executed : order.executed = true)
    (retired : ledger.retire id side (some price) rested = .ok next) :
    ledger.leave side.indexKind ⟨price, id⟩ = .ok next := by
  simpa only [retire, find_of_get? found, bind, Except.bind, executed, if_true] using retired

/-- Retiring an order of one side leaves the index of the other side alone. -/
theorem size_retire_opposite (retired : ledger.retire id side limit rested = .ok next) :
    (next.index side.opposite.indexKind).size = (ledger.index side.opposite.indexKind).size := by
  rcases eq_or_leave_of_retire retired with rfl | ⟨price, -, left⟩
  · rfl
  · have sizes := size_leave left side.opposite.indexKind
    rwa [if_neg side.indexKind_opposite_ne, Nat.add_zero] at sizes

end Retirement

/-- A fair trade that is carried out fills the taker, and strikes the maker from its index if it is exhausted. -/
theorem Fair.of_apply {taker maker : Order} (fair : ledger.Fair trade taker maker side) (positive : trade.volume ≠ 0)
    (applied : (ledger.apply trade).Reaches next ()) :
    next.get? trade.taker = some (taker.take trade.volume) ∧ ((maker.take trade.volume).executed = true →
      (next.index side.opposite.indexKind).size + 1 = (ledger.index side.opposite.indexKind).size) := by
  have permits := fair.permits positive
  rw [permits.apply_eq_retire] at applied
  simp only [Outcome.reaches_andThen, Outcome.reaches_change] at applied
  obtain ⟨struck, _, makerRetired, takerRetired⟩ := applied
  constructor
  · rw [get?_of_retire takerRetired, get?_of_retire makerRetired, permits.get?_taker]
  · intro exhausted
    rw [fair.price] at makerRetired
    have sizes := size_leave (leave_of_retire permits.get?_maker exhausted makerRetired) side.opposite.indexKind
    rwa [if_pos rfl, index_filled, ← size_retire_opposite takerRetired] at sizes

/-- A completed round lowers what the taker has left to trade. -/
theorem Round.lowers (round : ledger.Round taker trade next) (numbered : ledger.Numbered) :
    ∃ before after : Order, ledger.get? taker = some before ∧ next.get? taker = some after
      ∧ after.remaining < before.remaining := by
  obtain ⟨rfl, positive, order, maker, side, fair, -⟩ := round.fair numbered
  refine ⟨order, order.take trade.volume, fair.takerFound, (fair.of_apply positive round.applied).1, ?_⟩
  have within := Volume.le_iff_units.mp fair.volume_le_taker
  rw [Ne, Volume.eq_zero_iff] at positive
  rw [Volume.lt_iff_units]
  simp only [Order.take, Volume.units_sub]
  omega

private theorem opposing_of_side (sided : order.side = some side) :
    ledger.opposing order = (ledger.index side.opposite.indexKind).size := by
  rw [opposing, sided]
  rfl

/-- A completed round exhausts the taker or takes an entry from the other side, where there is one. -/
theorem Round.uses (round : ledger.Round taker trade next) (numbered : ledger.Numbered)
    (found : ledger.get? taker = some order) : ∃ after, next.get? taker = some after ∧ after.side = order.side
      ∧ 0 < ledger.opposing order ∧ (after.remaining = 0 ∨ next.opposing after + 1 = ledger.opposing order) := by
  obtain ⟨rfl, positive, own, maker, side, fair, listed⟩ := round.fair numbered
  obtain rfl := Option.some.inj (found.symm.trans fair.takerFound)
  obtain ⟨after, struck⟩ := fair.of_apply positive round.applied
  have sided : (order.take trade.volume).side = some side := fair.takerSide
  refine ⟨_, after, rfl, ?_, ?_⟩
  · rw [opposing_of_side fair.takerSide]
    exact List.length_pos_of_mem listed
  · -- The trade is as big as what one of the two had left.
    rcases fair.exhausts with taken | given
    · exact .inl (Volume.ext (by simp [Order.take, taken]))
    · rw [opposing_of_side fair.takerSide, opposing_of_side sided]
      exact .inr (struck (by simp [Order.take, given, Volume.eq_zero_iff]))

inductive Rounds (taker : OrderId) : Ledger → List Trade → Ledger → Prop
  | refl {ledger : Ledger} : Rounds taker ledger [] ledger
  | head {ledger middle next : Ledger} {trade : Trade} {trades : List Trade} (round : ledger.Round taker trade middle)
      (rest : Rounds taker middle trades next) : Rounds taker ledger (trade :: trades) next

theorem Round.continues (round : ledger.Round taker trade next) : ledger.Continues next := by
  have kept := continues_apply ledger trade
  rwa [round.applied.1] at kept

theorem Rounds.numbered (rounds : Rounds taker ledger trades next) (numbered : ledger.Numbered) : next.Numbered := by
  induction rounds with
  | refl => exact numbered
  | head round rest ih => exact ih (numbered.later round.continues)

private theorem Rounds.eq_nil_of_exhausted (rounds : Rounds taker ledger trades next)
    (found : ledger.get? taker = some order) (exhausted : order.remaining = 0) : trades = [] := by
  cases rounds with
  | refl => rfl
  | head round rest =>
    have idle : ledger.bestTrade taker = .ok none := by
      simp [bestTrade, find_of_get? found, exhausted, bind, Except.bind, pure, Except.pure]
    rw [round.best] at idle
    cases idle

/-- No more rounds are completed than there are entries on the other side: all but the last one take an entry. -/
theorem Rounds.length_le (rounds : Rounds taker ledger trades next) (numbered : ledger.Numbered)
    (found : ledger.get? taker = some order) : trades.length ≤ ledger.opposing order := by
  induction rounds generalizing order with
  | refl => exact Nat.zero_le _
  | head round rest ih =>
    obtain ⟨after, left, -, there, exhausted | taken⟩ := round.uses numbered found
    · rw [rest.eq_nil_of_exhausted left exhausted]
      exact there
    · have others := ih (numbered.later round.continues) left
      rw [List.length_cons]
      omega

def SweepStops (last : Ledger) (taker : OrderId) (trades : List Trade) (outcome : Outcome (List Trade)) : Prop :=
  (last.bestTrade taker = .ok none ∧ outcome.Reaches last trades)
    ∨ ∃ fault, outcome.answer = .error fault ∧ (last.bestTrade taker = .error fault
      ∨ ∃ trade, last.bestTrade taker = .ok (some trade) ∧ (last.apply trade).answer = .error fault)

section Silence
variable {α β : Type}

private theorem events_change (ledger : Ledger) (changed : Except Fault Ledger) :
    (Outcome.change ledger changed).events = [] := by
  cases changed <;> rfl

private theorem events_andThen {outcome : Outcome α} {onward : Ledger → α → Outcome β} (silent : outcome.events = [])
    (stays : ∀ ledger answer, (onward ledger answer).events = []) : (outcome.andThen onward).events = [] := by
  unfold Outcome.andThen
  split
  · rw [Outcome.after, silent, stays]
    rfl
  · exact silent

private theorem events_apply (ledger : Ledger) (trade : Trade) : (ledger.apply trade).events = [] := by
  unfold apply
  split
  · rfl
  · refine events_andThen (events_change ..) fun filled _ => events_andThen (events_change ..) fun both _ => ?_
    exact events_andThen (events_change ..) fun struck _ => events_change ..

end Silence

/-- Matching is a row of completed rounds, each with its event, up to where it stops. -/
theorem sweep_rounds (ledger : Ledger) (taker : OrderId) : ∃ trades last, Rounds taker ledger trades last
    ∧ (ledger.sweep taker).events = trades.map .matched ∧ last.SweepStops taker trades (ledger.sweep taker) := by
  fun_induction sweep ledger taker with
  | case1 ledger fault stuck => exact ⟨[], ledger, .refl, rfl, .inr ⟨fault, rfl, .inl stuck⟩⟩
  | case2 ledger idle => exact ⟨[], ledger, .refl, rfl, .inl ⟨idle, rfl, rfl⟩⟩
  | case3 ledger trade best next events fault applied =>
    have silent := events_apply ledger trade
    rw [applied] at silent
    exact ⟨[], ledger, .refl, silent, .inr ⟨fault, rfl, .inr ⟨trade, best, by rw [applied]⟩⟩⟩
  | case4 ledger trade best next events applied ih =>
    have silent := events_apply ledger trade
    rw [applied] at silent
    have round : ledger.Round taker trade next := ⟨best, by rw [applied]; exact ⟨rfl, rfl⟩⟩
    obtain ⟨trades, last, rounds, reported, stops⟩ := ih
    refine ⟨trade :: trades, last, .head round rounds, ?_, ?_⟩
    · change events ++ [.matched trade] ++ (next.sweep taker).events = _
      rw [reported, show events = [] from silent]
      rfl
    · rcases stops with ⟨idle, reached⟩ | ⟨fault, answered, stuck⟩
      · exact .inl ⟨idle, Outcome.reaches_map.mpr ⟨trades, reached, rfl⟩⟩
      · refine .inr ⟨fault, ?_, stuck⟩
        change (next.sweep taker).answer.map (trade :: ·) = _
        rw [answered]
        rfl

private theorem exists_taker_of_bestTrade {best : Option Trade} (answered : ledger.bestTrade taker = .ok best) :
    ∃ order, ledger.get? taker = some order := by
  unfold bestTrade at answered
  cases found : ledger.find taker with
  | error fault => simp [found, bind, Except.bind] at answered
  | ok order => exact ⟨order, get?_of_find found⟩

theorem Rounds.exists_taker (rounds : Rounds taker ledger trades next) (idle : next.bestTrade taker = .ok none) :
    ∃ order, ledger.get? taker = some order := by
  cases rounds with
  | refl => exact exists_taker_of_bestTrade idle
  | head round rest => exact exists_taker_of_bestTrade round.best

end Ledger
end LimitBook
