import LimitBook.Proofs.Ledger.Cascades

/-! Acceptance: what a ledger reports when it takes in an order. An order that trades at once has its turn, and then
have the stops that its trades fire; a stop and a cancel order report no trades. -/
namespace LimitBook.Ledger

variable {config : Config} {ledger : Ledger} {order : Order} {id : OrderId}

section Kinds

private theorem crossedAt_admitted (coherent : ledger.Coherent none)
    (room : ledger.orders.size + 1 < 0x1_0000_0000_0000_0000)
    (admissible : order.Admissible config) (active : order.isActive = true) :
    (ledger.admitted order).crossedAt = ledger.crossedAt := by
  funext trades id
  unfold crossedAt
  rw [coherent.get?_admitted room]
  split
  · rename_i new
    -- The new order has no trigger, and there was none under its number.
    have unmoved : ∀ price, (order.numbered ledger.nextId).isTriggeredBy price = false := by
      intro price
      rw [← Bool.not_eq_true]
      intro crossed
      have stop : order.isStop = true := Order.isStop_of_isTriggeredBy crossed
      rw [admissible.isActive_eq, stop, Bool.not_true, Bool.and_false] at active
      cases active
    rw [new, coherent.get?_nextId room]
    simp [unmoved]
  · rfl

/-- The stops that fire after an admission waited before it. -/
theorem Orderly.before_admission {trades : List Trade} {start : Nat} {firings : List Firing}
    (orderly : (ledger.admitted order).Orderly trades start firings) (coherent : ledger.Coherent none)
    (room : ledger.orders.size + 1 < 0x1_0000_0000_0000_0000) (admissible : order.Admissible config)
    (active : order.isActive = true) : ledger.Orderly trades start firings := by
  apply orderly.transfer (crossedAt_admitted coherent room admissible active)
  intro id stop there pending
  rw [coherent.get?_admitted room] at there
  split at there
  · obtain rfl := Option.some.inj there
    rw [Order.isPending_numbered, Order.not_isPending_of_isActive active] at pending
    cases pending
  · exact ⟨stop, there, pending⟩

/-- An order that trades at once reports its own turn first, and then those of the stops in their order. -/
theorem accept_of_active (coherent : ledger.Coherent none) (room : ledger.orders.size + 1 < 0x1_0000_0000_0000_0000)
    (admissible : order.Admissible config) (active : order.isActive = true) :
    ∃ (own : Turn) (firings : List Firing), own.taker = ledger.nextId
      ∧ (ledger.accept order).events = .accepted ledger.nextId :: (own.events ++ firings.flatMap Firing.events)
      ∧ ledger.Orderly (own.trades ++ firings.flatMap (·.trades)) 0 firings
      ∧ (ledger.accept order).ledger.Quiet (own.trades ++ firings.flatMap (·.trades)) := by
  have settled := coherent_admitted coherent room admissible
  rw [if_pos active] at settled
  have flying := inFlight_admitted coherent room admissible active
  have executed := execute_carries .standard settled flying
  have landed := executed.moves.coherent settled
  obtain ⟨own, taker, turned⟩ := execute_turn settled flying
  have traded : Event.trades ((ledger.admitted order).execute ledger.nextId).events = own.trades := by
    rw [turned, Turn.trades_events]
  obtain ⟨firings, fired, orderly, quiet⟩ := @cascade_firings _ _ [] own.trades landed rfl (quiet_nil _)
  have before := (orderly.earlier executed settled).before_admission coherent room admissible active
  have whole : ledger.accept order = (((ledger.admitted order).execute ledger.nextId).andThen fun reached own =>
      (cascade .settling reached (own.map Trade.price)).map (own ++ ·)).after [.accepted ledger.nextId] := by
    rw [accept_eq coherent room, carryOut_of_active admissible active, trade]
  rw [whole, Outcome.andThen, executed.answer, traded]
  refine ⟨own, firings, taker, ?_, before, quiet⟩
  change .accepted ledger.nextId :: (_ ++ (cascade _ _ _).events) = _
  rw [turned, fired]

theorem accept_of_stop (coherent : ledger.Coherent none) (room : ledger.orders.size + 1 < 0x1_0000_0000_0000_0000)
    (admissible : order.Admissible config) {trigger : Price} {limit : Option Price}
    (kind : order.kind = .stop trigger limit) :
    ledger.accept order
      = ⟨ledger.admitted order, [.accepted ledger.nextId, .stopPending ledger.nextId trigger], .ok []⟩ := by
  rw [accept_eq coherent room, carryOut_of_stop admissible kind]
  rfl

theorem accept_of_cancel (coherent : ledger.Coherent none) (room : ledger.orders.size + 1 < 0x1_0000_0000_0000_0000)
    (admissible : order.Admissible config) {target : OrderId} (kind : order.kind = .cancel target) : ledger.accept order
      = (((ledger.admitted order).withdraw ledger.nextId target).map fun _ => []).after [.accepted ledger.nextId] := by
  rw [accept_eq coherent room, carryOut_of_cancel admissible kind]

end Kinds

structure Reported (ledger : Ledger) (order : Order) (own : List Trade) (firings : List Firing)
    (outcome : Outcome (List Trade)) : Prop where
  trades : Event.trades outcome.events = own ++ firings.flatMap (·.trades)
  first : ∀ trade ∈ own, trade.taker = ledger.nextId
  fired : Event.firings outcome.events = firings.map fun firing => (firing.taker, firing.price)
  orderly : ledger.Orderly (Event.trades outcome.events) 0 firings
  quiet : outcome.ledger.Quiet (Event.trades outcome.events)
  withdrawn : ∀ id ∈ Event.withdrawals outcome.events,
    id = ledger.nextId ∨ id ∈ firings.map (·.taker) ∨ order.kind = .cancel id
  idle : order.isActive = false → Event.trades outcome.events = []

/-- A call without trades has little to report. -/
theorem reported_nil {outcome : Outcome (List Trade)} (quiet : Event.trades outcome.events = [])
    (idle : Event.firings outcome.events = [])
    (withdrawn : ∀ id ∈ Event.withdrawals outcome.events, order.kind = .cancel id) :
    Reported ledger order [] [] outcome where
  trades := quiet
  first := by simp
  fired := idle
  orderly := orderly_nil ..
  quiet := by
    rw [quiet]
    exact quiet_nil _
  withdrawn := fun id member => .inr (.inr (withdrawn id member))
  idle := fun _ => quiet

theorem accept_reported (coherent : ledger.Coherent none) (room : ledger.orders.size + 1 < 0x1_0000_0000_0000_0000)
    (admissible : order.Admissible config) :
    ∃ own firings, Reported ledger order own firings (ledger.accept order) := by
  rcases admissible.kind_cases with active | ⟨-, trigger, limit, kind⟩ | ⟨idle, target, kind⟩
  · obtain ⟨own, firings, taker, events, orderly, quiet⟩ := accept_of_active coherent room admissible active
    have trades : Event.trades (ledger.accept order).events = own.trades ++ firings.flatMap (·.trades) := by
      rw [events]
      change Event.trades (own.events ++ firings.flatMap Firing.events) = _
      rw [Event.trades_append, Turn.trades_events, trades_flatMap]
    refine ⟨own.trades, firings, trades, fun trade member => (own.taken trade member).trans taker, ?_, trades ▸ orderly,
      trades ▸ quiet, ?_, fun idle => absurd active (by simp [idle])⟩
    · rw [events]
      change Event.firings (own.events ++ firings.flatMap Firing.events) = _
      rw [Event.firings_append, Turn.firings_events, firings_flatMap, List.nil_append]
    · intro id withdrawn
      rw [events] at withdrawn
      change id ∈ Event.withdrawals (own.events ++ firings.flatMap Firing.events) at withdrawn
      rw [Event.withdrawals_append, List.mem_append] at withdrawn
      rcases withdrawn with own | later
      · exact .inl ((Turn.mem_withdrawals own).trans taker)
      · exact .inr (.inl (mem_withdrawals_flatMap later))
  · rw [accept_of_stop coherent room admissible kind]
    refine ⟨[], [], reported_nil rfl rfl ?_⟩
    intro id withdrawn
    cases withdrawn
  · have settled := coherent_admitted coherent room admissible
    rw [idle] at settled
    rw [accept_of_cancel coherent room admissible kind]
    rcases withdraw_cases settled ledger.nextId target with ⟨-, passes⟩ | ⟨record, -, -, withdraws⟩
    · rw [passes]
      refine ⟨[], [], reported_nil rfl rfl ?_⟩
      intro id withdrawn
      cases withdrawn
    · rw [withdraws]
      refine ⟨[], [], reported_nil rfl rfl ?_⟩
      intro id withdrawn
      obtain rfl := List.mem_singleton.mp withdrawn
      exact kind

section Stops
variable {own : List Trade} {firings : List Firing} {outcome : Outcome (List Trade)} {stop record : Order}

private theorem Reported.fires_iff (reported : Reported ledger order own firings outcome)
    (coherent : ledger.Coherent none)
    (moves : Moves config ledger none outcome.events outcome.ledger none) (found : ledger.get? id = some stop)
    (stored : outcome.ledger.get? id = some record) :
    record.triggered = true ↔ stop.triggered = true ∨ id ∈ firings.map (·.taker) := by
  have marked := Mark.fired.flag_of_moves moves coherent found stored
  rw [Mark.set_fired, reported.fired, List.map_map] at marked
  exact marked

/-- A waiting stop is withdrawn only by a cancel order, unless it fires. -/
theorem Reported.fires_or_cancels (reported : Reported ledger order own firings outcome)
    (coherent : ledger.Coherent none) (room : ledger.orders.size + 1 < 0x1_0000_0000_0000_0000)
    (moves : Moves config ledger none outcome.events outcome.ledger none) (found : ledger.get? id = some stop)
    (stored : outcome.ledger.get? id = some record) (pending : stop.isPending = true)
    (cancelled : record.cancelled = true) :
    record.triggered = true ∨ order.kind = .cancel id := by
  obtain ⟨-, -, live⟩ := Order.isPending_iff.mp pending
  rcases (Mark.withdrawn.flag_of_moves moves coherent found stored).mp cancelled with before | marked
  · exact absurd before (by simp [Mark.withdrawn, live])
  rcases reported.withdrawn id marked with rfl | fired | named
  · rw [coherent.get?_nextId room] at found
    cases found
  · exact .inl ((reported.fires_iff coherent moves found stored).mpr (.inr fired))
  · exact .inr named

/-- A waiting stop fires exactly when a trade of the call crosses its trigger. -/
theorem Reported.fires_iff_crossed (reported : Reported ledger order own firings outcome)
    (coherent : ledger.Coherent none) (room : ledger.orders.size + 1 < 0x1_0000_0000_0000_0000)
    (moves : Moves config ledger none outcome.events outcome.ledger none) (found : ledger.get? id = some stop)
    (stored : outcome.ledger.get? id = some record) (pending : stop.isPending = true) :
    record.triggered = true ↔ ∃ trade ∈ Event.trades outcome.events, stop.isTriggeredBy trade.price = true := by
  obtain ⟨isStop, waiting, -⟩ := Order.isPending_iff.mp pending
  constructor
  · intro triggered
    rcases (reported.fires_iff coherent moves found stored).mp triggered with before | fired
    · rw [waiting] at before
      cases before
    · obtain ⟨firing, member, rfl⟩ := List.mem_map.mp fired
      exact reported.orderly.crossed member found
  · rintro ⟨trade, member, crossed⟩
    by_contra untriggered
    rw [Bool.not_eq_true] at untriggered
    obtain ⟨same, there, goesOn⟩ := moves.goesOn coherent found
    obtain rfl := Option.some.inj (stored.symm.trans there)
    cases cancelled : record.cancelled with
    | false =>
      -- It still waits, although the trade crosses its trigger.
      have still := Order.isPending_iff.mpr ⟨goesOn.isStop_eq.trans isStop, untriggered, cancelled⟩
      exact reported.quiet trade member id ⟨record, stored, still, (goesOn.isTriggeredBy_eq _).trans crossed⟩
    | true =>
      rcases reported.fires_or_cancels coherent room moves found stored pending cancelled with fired | named
      · rw [fired] at untriggered
        cases untriggered
      · have idle : order.isActive = false := by
          simp [Order.isActive, Order.isCancel, named]
        rw [reported.idle idle] at member
        cases member

/-- A stop that no longer waits does not fire. -/
theorem Reported.stays (reported : Reported ledger order own firings outcome) (coherent : ledger.Coherent none)
    (moves : Moves config ledger none outcome.events outcome.ledger none) (found : ledger.get? id = some stop)
    (stored : outcome.ledger.get? id = some record) (settled : stop.isPending = false) :
    record.triggered = true ↔ stop.triggered = true := by
  rw [reported.fires_iff coherent moves found stored, or_iff_left]
  intro fired
  obtain ⟨firing, member, rfl⟩ := List.mem_map.mp fired
  obtain ⟨other, there, pending⟩ := reported.orderly.waiting firing member
  obtain rfl := Option.some.inj (found.symm.trans there)
  rw [pending] at settled
  cases settled

end Stops

/-- Trades in blocks of one taker each: those of the new order, and then those of the stops that fired. The
stops fire in the order of the trades that first cross them and, for one and the same trade, in the order of
their admission. -/
structure InTurn (ledger : Ledger) (trades : List Trade) (fired : List (OrderId × Price)) (own : List Trade)
    (blocks : List (List Trade)) : Prop where
  whole : trades = own ++ blocks.flatten
  first : ∀ trade ∈ own, trade.taker = ledger.nextId
  later : List.Forall₂ (fun firing block => ∀ trade ∈ block, trade.taker = firing.1) fired blocks
  distinct : (ledger.nextId :: fired.map Prod.fst).Nodup
  waiting : ∀ firing ∈ fired, ∃ stop, ledger.get? firing.1 = some stop ∧ stop.isPending = true
  price : ∀ firing ∈ fired, (trades[ledger.crossedAt trades firing.1]?).map Trade.price = some firing.2
  sorted : fired.Pairwise fun one two => ledger.crossedAt trades one.1 < ledger.crossedAt trades two.1
    ∨ (ledger.crossedAt trades one.1 = ledger.crossedAt trades two.1 ∧ one.1 < two.1)

theorem Reported.inTurn {own : List Trade} {firings : List Firing} {outcome : Outcome (List Trade)}
    (reported : Reported ledger order own firings outcome) (coherent : ledger.Coherent none)
    (room : ledger.orders.size + 1 < 0x1_0000_0000_0000_0000)
    (moves : Moves config ledger none outcome.events outcome.ledger none) :
    ledger.InTurn (Event.trades outcome.events) (Event.firings outcome.events) own (firings.map (·.trades)) where
  whole := by
    rw [reported.trades, List.flatMap_def]
  first := reported.first
  later := by
    rw [reported.fired, List.forall₂_map_left_iff, List.forall₂_map_right_iff, List.forall₂_same]
    exact fun firing _ => firing.taken
  distinct := by
    rw [List.nodup_cons]
    constructor
    · rw [reported.fired, List.map_map, List.mem_map]
      rintro ⟨firing, member, new⟩
      obtain ⟨stop, found, -⟩ := reported.orderly.waiting firing member
      change firing.taker = _ at new
      rw [new, coherent.get?_nextId room] at found
      cases found
    · rw [← Mark.set_fired]
      exact Mark.fired.nodup_of_moves moves coherent
  waiting := by
    rw [reported.fired, List.forall_mem_map]
    exact reported.orderly.waiting
  price := by
    rw [reported.fired, List.forall_mem_map]
    exact reported.orderly.price
  sorted := by
    rw [reported.fired, List.pairwise_map]
    exact reported.orderly.sorted

end LimitBook.Ledger
