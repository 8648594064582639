import LimitBook.Proofs.Ledger.Rounds

/-! Applying a trade. Nothing is asked of the ledger: its flags may be wrong and its indexes at odds with its records. A
trade that the records do not permit changes nothing. One that they permit fills both ends, and then only the entries of
ends that are executed can be struck, or found missing. -/
namespace LimitBook

def Order.Vacates (order : Order) (id : OrderId) (side : Side) (kind : IndexKind) (entry : Entry) : Prop :=
  order.executed = true ∧ kind = side.indexKind ∧ order.limitPrice = some entry.price ∧ entry.id = id

namespace Ledger
variable {ledger next : Ledger} {trade : Trade} {taker maker order : Order} {side : Side} {id : OrderId} {rested : Bool}

namespace Retires

/-- A retirement that goes through strikes the entry of an executed order and nothing else. -/
theorem mem_index (retires : ledger.Retires id order side rested (.ok next)) {kind : IndexKind} {entry : Entry} :
    entry ∈ next.index kind ↔ entry ∈ ledger.index kind ∧ ¬ order.Vacates id side kind entry := by
  cases retires with
  | stays unfilled => simp [Order.Vacates, unfilled]
  | loose _ unlimited => simp [Order.Vacates, unlimited]
  | @struck price executed limited =>
    have own : order.Vacates id side kind entry ↔ kind = side.indexKind ∧ entry = ⟨price, id⟩ := by
      simp only [Order.Vacates, executed, limited, true_and, Option.some.injEq, Entry.ext_iff, eq_comm]
    rw [mem_setIndex_erase, own]

private theorem orders_eq (retires : ledger.Retires id order side rested (.ok next)) : next.orders = ledger.orders := by
  cases retires <;> simp

private theorem nextId_eq (retires : ledger.Retires id order side rested (.ok next)) : next.nextId = ledger.nextId := by
  cases retires <;> simp

private theorem cancelled_eq (retires : ledger.Retires id order side rested (.ok next)) :
    next.cancelled = ledger.cancelled := by
  cases retires <;> simp

private theorem lastPrice_eq (retires : ledger.Retires id order side rested (.ok next)) :
    next.lastPrice = ledger.lastPrice := by
  cases retires <;> simp

/-- What is struck has been listed. -/
theorem listed (retires : ledger.Retires id order side rested (.ok next)) (executed : order.executed = true) :
    (∀ price, order.limitPrice = some price → (⟨price, id⟩ : Entry) ∈ ledger.index side.indexKind)
      ∧ (rested = true → order.limitPrice ≠ none) := by
  cases retires with
  | stays unfilled => simp [unfilled] at executed
  | loose _ unlimited taking => simp [unlimited, taking]
  | struck _ limited listed => simp [limited, listed]

end Retires

structure Exchanges (ledger : Ledger) (trade : Trade) (taker maker : Order) (side : Side) (next : Ledger) : Prop where
  size : next.orders.size = ledger.orders.size
  records : ∀ id, next.get? id = if id = trade.maker then some (maker.take trade.volume)
    else if id = trade.taker then some (taker.take trade.volume) else ledger.get? id
  entries : ∀ kind entry, entry ∈ next.index kind ↔ entry ∈ ledger.index kind
    ∧ ¬ (maker.take trade.volume).Vacates trade.maker side.opposite kind entry
    ∧ ¬ (taker.take trade.volume).Vacates trade.taker side kind entry
  makerListed : (maker.take trade.volume).executed = true → ∃ price, maker.limitPrice = some price
    ∧ (⟨price, trade.maker⟩ : Entry) ∈ ledger.index side.opposite.indexKind
  takerListed : (taker.take trade.volume).executed = true → ∀ price, taker.limitPrice = some price →
    (⟨price, trade.taker⟩ : Entry) ∈ ledger.index side.indexKind
  lastPrice : next.lastPrice = some trade.price
  nextId : next.nextId = ledger.nextId
  cancelled : next.cancelled = ledger.cancelled

inductive Unlisted (ledger : Ledger) (trade : Trade) (taker maker : Order) (side : Side) : Fault → Prop
  | unlimited (executed : (maker.take trade.volume).executed = true) (unlimited : maker.limitPrice = none) :
      Unlisted ledger trade taker maker side (.unlimitedMaker trade.maker)
  | maker {price : Price} (executed : (maker.take trade.volume).executed = true)
      (limited : maker.limitPrice = some price)
      (absent : (⟨price, trade.maker⟩ : Entry) ∉ ledger.index side.opposite.indexKind) :
      Unlisted ledger trade taker maker side (.missingEntry ⟨price, trade.maker⟩ side.opposite.indexKind)
  | taker {price : Price} (executed : (taker.take trade.volume).executed = true)
      (limited : taker.limitPrice = some price)
      (absent : (⟨price, trade.taker⟩ : Entry) ∉ ledger.index side.indexKind) :
      Unlisted ledger trade taker maker side (.missingEntry ⟨price, trade.taker⟩ side.indexKind)

private theorem Unlisted.kind_eq {fault : Fault} (unlisted : ledger.Unlisted trade taker maker side fault) :
    fault.kind = .structuralFault ∧ ∀ id, fault ≠ .unknownOrder id := by
  cases unlisted <;> exact ⟨rfl, nofun⟩

inductive Concludes (ledger : Ledger) (trade : Trade) (taker maker : Order) (side : Side) : Outcome Unit → Prop
  | carriedOut {next : Ledger} (exchanges : ledger.Exchanges trade taker maker side next) :
      Concludes ledger trade taker maker side (.done next ())
  | stopped {reached : Ledger} {fault : Fault} (unlisted : ledger.Unlisted trade taker maker side fault) :
      Concludes ledger trade taker maker side (.failed reached fault)

namespace Permits
variable {struck : Ledger}

/-- After both fills the maker leaves the one index, and then the taker the other. -/
theorem exchanges (permits : ledger.Permits trade taker maker side)
    (makerRetires :
      (ledger.filled trade taker maker).Retires trade.maker (maker.take trade.volume) side.opposite true (.ok struck))
    (takerRetires : struck.Retires trade.taker (taker.take trade.volume) side false (.ok next)) :
    ledger.Exchanges trade taker maker side next where
  size := by
    rw [takerRetires.orders_eq, makerRetires.orders_eq]
    simp [filled]
  records := by
    intro id
    rw [get?, takerRetires.orders_eq, makerRetires.orders_eq]
    exact get?_filled_eq permits.takerFound permits.makerFound permits.apart id
  entries := by
    intro kind entry
    rw [takerRetires.mem_index, makerRetires.mem_index, index_filled, and_assoc]
  makerListed := by
    intro executed
    obtain ⟨listed, limited⟩ := makerRetires.listed executed
    obtain ⟨price, given⟩ := Option.ne_none_iff_exists'.mp (limited rfl)
    have there := listed price given
    rw [index_filled] at there
    exact ⟨price, given, there⟩
  takerListed := by
    intro executed price given
    have there := (takerRetires.listed executed).1 price given
    rw [makerRetires.mem_index, index_filled] at there
    exact there.1
  lastPrice := by
    rw [takerRetires.lastPrice_eq, makerRetires.lastPrice_eq]
    rfl
  nextId := by
    rw [takerRetires.nextId_eq, makerRetires.nextId_eq]
    simp [filled]
  cancelled := by
    rw [takerRetires.cancelled_eq, makerRetires.cancelled_eq]
    simp [filled]

theorem concludes (permits : ledger.Permits trade taker maker side) :
    ledger.Concludes trade taker maker side (ledger.apply trade) := by
  rw [permits.apply_eq_retire]
  have makerRetires := retires permits.get?_maker side.opposite true
  change Retires _ _ _ _ _ ((ledger.filled trade taker maker).retire trade.maker side.opposite maker.limitPrice true)
    at makerRetires
  cases first : (ledger.filled trade taker maker).retire trade.maker side.opposite maker.limitPrice true with
  | error fault =>
    rw [first] at makerRetires
    refine .stopped ?_
    cases makerRetires with
    | unlimited executed unlimited => exact .unlimited executed unlimited
    | missing executed limited absent =>
      rw [index_filled] at absent
      exact .maker executed limited absent
  | ok struck =>
    rw [first] at makerRetires
    have there : struck.get? trade.taker = some (taker.take trade.volume) := by
      rw [get?_of_retire first, permits.get?_taker]
    have takerRetires := retires there side false
    change Retires _ _ _ _ _ (struck.retire trade.taker side taker.limitPrice false) at takerRetires
    rw [change_andThen rfl]
    cases second : struck.retire trade.taker side taker.limitPrice false with
    | error fault =>
      rw [second] at takerRetires
      refine .stopped ?_
      cases takerRetires with
      | unlimited _ _ resting => cases resting
      | missing executed limited absent =>
        refine .taker executed limited fun present => absent (makerRetires.mem_index.mpr ⟨by rwa [index_filled], ?_⟩)
        -- The maker has left the index of the other side.
        exact fun vacated => side.indexKind_opposite_ne vacated.2.1.symm
    | ok next =>
      rw [second] at takerRetires
      exact .carriedOut (permits.exchanges makerRetires takerRetires)

end Permits

private theorem refused_or_permits (ledger : Ledger) (trade : Trade) :
    (∃ fault, ledger.apply trade = .failed ledger fault)
    ∨ ∃ taker maker side, ledger.Permits trade taker maker side := by
  cases agreed : ledger.ends trade with
  | error fault =>
    simp only [apply, agreed]
    exact .inl ⟨fault, rfl⟩
  | ok found => exact .inr ⟨_, _, _, (permits_of_ends agreed).1⟩

/-- A trade is checked before anything changes. If the answer is a broken matching rule or an unknown order, the
ledger is as before. If there is none, both orders exist, differ and stand on opposite sides, both have the
volume left, the price is within the limit of the taker, and the ledger differs in the two fills, in the last
price and in the entries of ends that are executed by then. A ledger that has changed under a fault lacks such
an entry, or its maker has no limit. -/
theorem applications_checked_first (ledger : Ledger) (trade : Trade) :
    (∀ fault, (ledger.apply trade).answer = .error fault →
        (fault.kind = .invariantViolation ∨ ∃ id, fault = .unknownOrder id) → (ledger.apply trade).ledger = ledger)
      ∧ (∀ next, (ledger.apply trade).Reaches next () → ∃ taker maker side, trade.taker ≠ trade.maker
          ∧ ledger.Permits trade taker maker side ∧ ledger.Exchanges trade taker maker side next)
      ∧ ∀ fault, (ledger.apply trade).answer = .error fault → (ledger.apply trade).ledger ≠ ledger →
          ∃ taker maker side, ledger.Permits trade taker maker side ∧ ledger.Unlisted trade taker maker side fault := by
  rcases refused_or_permits ledger trade with ⟨reason, refused⟩ | ⟨taker, maker, side, permits⟩
  · rw [refused]
    exact ⟨fun _ _ _ => rfl, fun _ reaches => absurd reaches Outcome.not_reaches_failed,
      fun _ _ changed => absurd rfl changed⟩
  have concludes := permits.concludes
  generalize ledger.apply trade = outcome at concludes ⊢
  cases concludes with
  | carriedOut exchanges =>
    refine ⟨?_, ?_, ?_⟩
    · intro fault answered
      cases answered
    · intro next reaches
      obtain ⟨rfl, -⟩ := Outcome.reaches_done.mp reaches
      exact ⟨taker, maker, side, permits.apart.symm, permits, exchanges⟩
    · intro fault answered
      cases answered
  | @stopped _ reason unlisted =>
    refine ⟨?_, fun _ reaches => absurd reaches Outcome.not_reaches_failed, ?_⟩
    · intro fault answered early
      obtain rfl := Except.error.inj answered
      obtain ⟨structural, known⟩ := unlisted.kind_eq
      rcases early with broken | ⟨id, unknown⟩
      · simp [structural] at broken
      · exact absurd unknown (known id)
    · intro fault answered _
      obtain rfl := Except.error.inj answered
      exact ⟨taker, maker, side, permits, unlisted⟩

/-- An ask for five units that is marked as executed though nothing of it has traded, and a market order for three. -/
def marked : Ledger where
  orders := #[
    { (Order.limit .sell (.ofUnits 5) (.ofCents 10000)).numbered (.ofNumber 1) with executed := true },
    (Order.market .buy (.ofUnits 3)).numbered (.ofNumber 2)]
  bids := .empty
  asks := .ofList [⟨.ofCents 10000, .ofNumber 1⟩]
  stops := .empty
  nextId := .ofNumber 3
  cancelled := .empty
  lastPrice := none

def markedTrade (volume : Volume) : Trade := ⟨.ofNumber 2, .ofNumber 1, volume, .ofCents 10000⟩

/-- Three units trade, four are refused, and without its index the marked ask stops the trade after both fills. -/
theorem applications_checked_first_marked :
    (∃ next taker maker side, (marked.apply (markedTrade (.ofUnits 3))).Reaches next ()
        ∧ marked.Permits (markedTrade (.ofUnits 3)) taker maker side
        ∧ marked.Exchanges (markedTrade (.ofUnits 3)) taker maker side next)
      ∧ (marked.apply (markedTrade (.ofUnits 4))).ledger = marked
      ∧ ∃ taker maker side, { marked with asks := .empty }.Permits (markedTrade (.ofUnits 3)) taker maker side
        ∧ { marked with asks := .empty }.Unlisted (markedTrade (.ofUnits 3)) taker maker side
          (.missingEntry ⟨.ofCents 10000, .ofNumber 1⟩ .asks) := by
  refine ⟨?_, ?_, ?_⟩
  · have reaches : (marked.apply (markedTrade (.ofUnits 3))).Reaches
        (marked.apply (markedTrade (.ofUnits 3))).ledger () :=
      ⟨rfl, by decide +kernel⟩
    obtain ⟨taker, maker, side, -, permits, exchanges⟩ := (applications_checked_first _ _).2.1 _ reaches
    exact ⟨_, taker, maker, side, reaches, permits, exchanges⟩
  · have refused : (marked.apply (markedTrade (.ofUnits 4))).answer
        = .error (.excessTrade (.ofUnits 4) (.ofNumber 2) (.ofUnits 3) (.ofNumber 1) (.ofUnits 5)) := by
      decide +kernel
    exact (applications_checked_first _ _).1 _ refused (.inl rfl)
  · have stopped : ({ marked with asks := .empty }.apply (markedTrade (.ofUnits 3))).answer
        = .error (.missingEntry ⟨.ofCents 10000, .ofNumber 1⟩ .asks) := by
      decide +kernel
    refine (applications_checked_first _ _).2.2 _ stopped fun same => ?_
    exact absurd (congrArg Ledger.lastPrice same) (by decide +kernel)

/-- The marked ask has two units left after the trade, and loses its entry all the same. -/
theorem applications_strike_unexhausted : marked.Numbered
    ∧ (⟨.ofCents 10000, .ofNumber 1⟩ : Entry) ∈ marked.asks
    ∧ ∃ next, (marked.apply (markedTrade (.ofUnits 3))).Reaches next ()
      ∧ (next.get? (.ofNumber 1)).map Order.remaining = some (.ofUnits 2)
      ∧ (⟨.ofCents 10000, .ofNumber 1⟩ : Entry) ∉ next.asks := by
  have numbered : marked.Numbered := by
    intro place record stored
    obtain ⟨within, rfl⟩ := Array.getElem?_eq_some_iff.mp stored
    have all : ∀ place : Fin 2, marked.orders[place].id.number = place + 1 := by decide +kernel
    exact all ⟨place, within⟩
  refine ⟨numbered, ?_, _, ⟨rfl, by decide +kernel⟩, by decide +kernel, ?_⟩
  · rw [SortedSet.mem_iff]
    decide +kernel
  · rw [SortedSet.mem_iff]
    decide +kernel

end Ledger
end LimitBook
