import LimitBook.Proofs.Book.History
import LimitBook.Proofs.Ledger.Acceptance

/-! Stops of a book. A stop fires in the first call that brings a trade beyond its trigger, unless a cancel order has
withdrawn it before. -/
namespace LimitBook.Book

structure Withdraws (book : Book) (order : Order) (id : OrderId) : Prop where
  named : order.kind = .cancel id
  waiting : ∃ stop, book.ledger.get? id = some stop ∧ stop.isPending = true
  gone : ∃ stop, (book.add order).book.ledger.get? id = some stop ∧ stop.cancelled = true

def Spares (book : Book) (id : OrderId) (orders : List Order) : Prop :=
  ∀ earlier order later, orders = earlier ++ order :: later → ¬ (book.after earlier).Withdraws order id

def Crosses (book : Book) (id : OrderId) (side : Side) (trigger : Price) (orders : List Order) : Prop :=
  ∃ earlier order later, orders = earlier ++ order :: later ∧ book.Spares id earlier
    ∧ ∃ trade ∈ ((book.after earlier).add order).trades, side.crosses trigger trade.price = true

variable {book : Book} {id : OrderId} {order : Order} {orders : List Order} {side : Side} {trigger : Price}

private theorem spares_nil (book : Book) (id : OrderId) : book.Spares id [] := by
  intro earlier order later split
  simp at split

private theorem spares_concat :
    book.Spares id (orders ++ [order]) ↔ book.Spares id orders ∧ ¬ (book.after orders).Withdraws order id := by
  constructor
  · intro spares
    refine ⟨?_, spares orders order [] rfl⟩
    intro earlier other later split
    exact spares earlier other (later ++ [order]) (by simp [split])
  · rintro ⟨spares, last⟩ earlier other later split
    rcases concat_eq_append_cons_iff.mp split with ⟨rfl, rfl, -⟩ | ⟨rest, -, inside⟩
    · exact last
    · exact spares earlier other rest inside

private theorem Spares.earlier {earlier later : List Order} (spares : book.Spares id (earlier ++ order :: later)) :
    book.Spares id earlier := by
  intro first other second split
  apply spares first other (second ++ order :: later)
  simp [split]

private theorem not_crosses_nil : ¬ book.Crosses id side trigger [] := by
  rintro ⟨earlier, order, later, split, -⟩
  simp at split

private theorem crosses_concat : book.Crosses id side trigger (orders ++ [order]) ↔ book.Crosses id side trigger orders
    ∨ (book.Spares id orders
      ∧ ∃ trade ∈ ((book.after orders).add order).trades, side.crosses trigger trade.price = true) := by
  constructor
  · rintro ⟨earlier, other, later, split, spares, crossed⟩
    rcases concat_eq_append_cons_iff.mp split with ⟨rfl, rfl, -⟩ | ⟨rest, -, inside⟩
    · exact .inr ⟨spares, crossed⟩
    · exact .inl ⟨earlier, other, rest, inside, spares, crossed⟩
  · rintro (⟨earlier, other, later, rfl, spares, crossed⟩ | ⟨spares, crossed⟩)
    · exact ⟨earlier, other, later ++ [order], by simp, spares, crossed⟩
    · exact ⟨orders, order, [], rfl, spares, crossed⟩

/-- A returned trade comes from one of the calls. -/
theorem exists_call_of_returned {trade : Trade} (returned : trade ∈ book.returned orders) :
    ∃ earlier order later, orders = earlier ++ order :: later ∧ trade ∈ ((book.after earlier).add order).trades := by
  induction orders using List.reverseRecOn with
  | nil => cases returned
  | append_singleton orders order ih =>
    rw [returned_concat, List.mem_append] at returned
    rcases returned with early | last
    · obtain ⟨earlier, other, later, rfl, member⟩ := ih early
      exact ⟨earlier, other, later ++ [order], by simp, member⟩
    · exact ⟨orders, order, [], rfl, last⟩

structure Follows (book : Book) (order : Order) (id : OrderId) (stop record : Order) : Prop where
  stored : (book.add order).book.ledger.get? id = some record
  goesOn : stop.GoesOn record
  fires : stop.isPending = true →
    (record.triggered = true ↔ ∃ trade ∈ (book.add order).trades, stop.isTriggeredBy trade.price = true)
  withdrawn : stop.isPending = true → (book.Withdraws order id ↔ record.cancelled = true ∧ record.triggered = false)
  stays : stop.isPending = false → (record.triggered = true ↔ stop.triggered = true)

/-- A call that is refused leaves stops as they are. -/
theorem follows_of_refused {stop : Order} (found : book.ledger.get? id = some stop)
    (alike : (book.add order).book.ledger.Alike book.ledger) (silent : (book.add order).trades = []) :
    book.Follows order id stop stop where
  stored := (alike.records id).trans found
  goesOn := .refl stop
  fires := by
    intro pending
    simp [silent, (Order.isPending_iff.mp pending).2.1]
  withdrawn := by
    intro pending
    obtain ⟨-, -, live⟩ := Order.isPending_iff.mp pending
    constructor
    · rintro ⟨-, -, other, there, gone⟩
      rw [alike.records, found] at there
      obtain rfl := Option.some.inj there
      rw [live] at gone
      cases gone
    · rintro ⟨gone, -⟩
      rw [live] at gone
      cases gone
  stays := fun _ => Iff.rfl

private theorem Standing.follows {events : List Event} (standing : book.Standing events) (order : Order) {stop : Order}
    (found : book.ledger.get? id = some stop) : ∃ record, book.Follows order id stop record := by
  cases standing.call order with
  | taken _ coherent room admissible added accepted moves =>
    obtain ⟨own, firings, reported⟩ := Ledger.accept_reported coherent room admissible
    rw [accepted] at reported
    obtain ⟨record, stored, goesOn⟩ := moves.goesOn coherent found
    have after : (book.add order).book.ledger.get? id = some record := by
      rw [added]
      exact stored
    have fires : stop.isPending = true →
        (record.triggered = true ↔ ∃ trade ∈ (book.add order).trades, stop.isTriggeredBy trade.price = true) := by
      intro pending
      rw [added]
      exact reported.fires_iff_crossed coherent room moves found stored pending
    refine ⟨record, after, goesOn, fires, ?_, fun settled => reported.stays coherent moves found stored settled⟩
    intro pending
    constructor
    · rintro ⟨named, -, other, there, gone⟩
      obtain rfl := Option.some.inj (after.symm.trans there)
      have idle : order.isActive = false := by
        simp [Order.isActive, Order.isCancel, named]
      have silent : (book.add order).trades = [] := by
        rw [added]
        exact reported.idle idle
      refine ⟨gone, ?_⟩
      rw [← Bool.not_eq_true, fires pending, silent]
      simp
    · rintro ⟨gone, untriggered⟩
      rcases reported.fires_or_cancels coherent room moves found stored pending gone with fired | named
      · rw [fired] at untriggered
        cases untriggered
      · exact ⟨named, ⟨stop, found, pending⟩, record, after, gone⟩
  | refused _ _ added =>
    refine ⟨stop, follows_of_refused found ?_ (by rw [added]; rfl)⟩
    rw [added]
    exact .refl _
  | spent _ spent _ added =>
    refine ⟨stop, follows_of_refused found ?_ (by rw [added]; rfl)⟩
    rw [added]
    exact Ledger.alike_store spent order
  | halted _ added =>
    refine ⟨stop, follows_of_refused found ?_ (by rw [added]; rfl)⟩
    rw [added]
    exact .refl _

/-- How a stop stands some calls after it was admitted: it has fired if one of them crossed its trigger in time, and it
waits or has fired unless one of them has withdrawn it. -/
structure Watched (book : Book) (id : OrderId) (side : Side) (trigger : Price) (admitted : Order) (orders : List Order)
    (stop : Order) : Prop where
  found : (book.after orders).ledger.get? id = some stop
  goesOn : admitted.GoesOn stop
  fired_iff : stop.triggered = true ↔ book.Crosses id side trigger orders
  spared_iff : book.Spares id orders ↔ stop.isPending = true ∨ stop.triggered = true

private theorem watched_nil {stop : Order} (found : book.ledger.get? id = some stop) (pending : stop.isPending = true) :
    book.Watched id side trigger stop [] stop where
  found := found
  goesOn := .refl stop
  fired_iff := by simp [(Order.isPending_iff.mp pending).2.1, not_crosses_nil]
  spared_iff := by simp [pending, spares_nil]

private theorem Watched.concat {admitted stop record : Order}
    (watched : book.Watched id side trigger admitted orders stop)
    (isStop : admitted.isStop = true) (meets : ∀ price, admitted.isTriggeredBy price = side.crosses trigger price)
    (follows : (book.after orders).Follows order id stop record) :
    book.Watched id side trigger admitted (orders ++ [order]) record := by
  have goesOn := watched.goesOn.trans follows.goesOn
  have found : (book.after (orders ++ [order])).ledger.get? id = some record := by
    rw [after_concat]
    exact follows.stored
  cases pending : stop.isPending with
  | true =>
    have spared : book.Spares id orders := watched.spared_iff.mpr (.inl pending)
    have uncrossed : ¬ book.Crosses id side trigger orders := by
      rw [← watched.fired_iff, (Order.isPending_iff.mp pending).2.1]
      exact Bool.false_ne_true
    have fires := follows.fires pending
    simp only [watched.goesOn.isTriggeredBy_eq, meets] at fires
    refine ⟨found, goesOn, ?_, ?_⟩
    · rw [crosses_concat, fires]
      simp only [uncrossed, spared, true_and, false_or]
    · rw [spares_concat, follows.withdrawn pending, Order.isPending_iff, goesOn.isStop_eq, isStop]
      simp only [spared, true_and]
      cases record.cancelled <;> cases record.triggered <;> simp
  | false =>
    -- It has fired or was withdrawn before, and nothing changes that.
    have settled := follows.goesOn.not_isPending pending
    have untouched : ¬ (book.after orders).Withdraws order id := by
      rintro ⟨-, ⟨other, there, waits⟩, -⟩
      obtain rfl := Option.some.inj (watched.found.symm.trans there)
      rw [pending] at waits
      cases waits
    have spared_iff := watched.spared_iff
    rw [pending, watched.fired_iff] at spared_iff
    refine ⟨found, goesOn, ?_, ?_⟩
    · rw [follows.stays pending, watched.fired_iff, crosses_concat, spared_iff]
      tauto
    · rw [spares_concat, follows.stays pending, watched.fired_iff, settled, spared_iff]
      tauto

/-- A stop that was admitted waits at first, and then stands as the calls that come after it decide. -/
theorem watched_after {config : Config} {fresh : Book} (opened : open? config = .ok fresh) (earlier : List Order)
    {limit : Option Price} (kind : order.kind = .stop trigger limit) {trades : List Trade}
    (accepted : ((fresh.after earlier).add order).answer = .ok trades) (later : List Order) :
    let id := (fresh.after earlier).ledger.nextId
    ∃ side stop, order.side = some side
      ∧ ((fresh.after earlier).add order).book.Watched id side trigger (order.numbered id) later stop := by
  intro id
  obtain ⟨standing, -⟩ := standing_after opened earlier
  cases standing.call order with
  | taken _ coherent room admissible added taken =>
    have isStop : order.isStop = true := by rw [Order.isStop, kind]
    obtain ⟨side, sided⟩ := Option.ne_none_iff_exists'.mp (admissible.traded (Order.isCancel_of_isStop isStop)).1
    have meets : ∀ price, (order.numbered id).isTriggeredBy price = side.crosses trigger price :=
      fun price => Order.isTriggeredBy_of_stop kind sided
    suffices watched : ∃ stop,
        ((fresh.after earlier).add order).book.Watched id side trigger (order.numbered id) later stop by
      obtain ⟨stop, watched⟩ := watched
      exact ⟨side, stop, sided, watched⟩
    induction later using List.reverseRecOn with
    | nil =>
      obtain ⟨rfl, -⟩ := Outcome.mk.inj (taken.symm.trans (Ledger.accept_of_stop coherent room admissible kind))
      refine ⟨order.numbered id, watched_nil ?_ (admissible.isPending_eq.trans isStop)⟩
      rw [added]
      exact (coherent.get?_admitted room id).trans (if_pos rfl)
    | append_singleton later last ih =>
      obtain ⟨stop, watched⟩ := ih
      obtain ⟨now, -⟩ := standing_after opened (earlier ++ order :: later)
      have same : fresh.after (earlier ++ order :: later) = ((fresh.after earlier).add order).book.after later :=
        after_append fresh earlier (order :: later)
      rw [same] at now
      obtain ⟨record, follows⟩ := now.follows last watched.found
      exact ⟨record, watched.concat isStop meets follows⟩
  | refused _ _ added | spent _ _ _ added | halted _ added =>
    rw [added] at accepted
    cases accepted

/-- A stop that was admitted has fired after some further calls exactly when one of them, before any that withdrew the
stop while it waited, returned a trade beyond its trigger; as long as it waits no call after it has returned such a
trade; and no stop is reported as fired twice. -/
theorem stop_fires_iff_crossed {config : Config} {fresh : Book} (opened : open? config = .ok fresh)
    (earlier : List Order) {limit : Option Price} (kind : order.kind = .stop trigger limit) {trades : List Trade}
    (accepted : ((fresh.after earlier).add order).answer = .ok trades) (later : List Order) :
    let id := (fresh.after earlier).ledger.nextId
    let book := ((fresh.after earlier).add order).book
    ∃ side stop, order.side = some side ∧ (book.after later).ledger.get? id = some stop
      ∧ stop.kind = order.kind ∧ stop.side = order.side
      ∧ (stop.triggered = true ↔ book.Crosses id side trigger later)
      ∧ (stop.isPending = true → ∀ trade ∈ book.returned later, side.crosses trigger trade.price = false)
      ∧ ((Event.firings (fresh.audit (earlier ++ order :: later))).map Prod.fst).Nodup := by
  intro id book
  obtain ⟨side, stop, sided, watched⟩ := watched_after opened earlier kind accepted later
  refine ⟨side, stop, sided, watched.found, watched.goesOn.sameKind, watched.goesOn.sameSide, watched.fired_iff, ?_, ?_⟩
  · intro pending trade returned
    rw [← Bool.not_eq_true]
    intro crossed
    obtain ⟨calls, call, rest, rfl, member⟩ := exists_call_of_returned returned
    have spared := (watched.spared_iff.mpr (.inl pending)).earlier
    have fired := watched.fired_iff.mpr ⟨calls, call, rest, rfl, spared, trade, member, crossed⟩
    rw [(Order.isPending_iff.mp pending).2.1] at fired
    cases fired
  · rw [← Ledger.Mark.set_fired]
    exact marked_once opened _ .fired fun _ => rfl

/-- A trade at the trigger leaves the stop waiting, and the next one, beyond it, fires it. -/
theorem stop_fires_iff_crossed_second_trade : ∃ fresh, open? (Config.cents "ACME") = .ok fresh ∧
    let order : Order := .stop .buy 1 (.ofCents 101)
    let earlier := [.limit .sell 1 (.ofCents 101), .limit .sell 1 (.ofCents 102), .limit .sell 1 (.ofCents 103)]
    let later := [.market .buy 1, .market .buy 1]
    let id := (fresh.after earlier).ledger.nextId
    let book := ((fresh.after earlier).add order).book
    order.kind = .stop (.ofCents 101) none ∧ ((fresh.after earlier).add order).answer = .ok []
      ∧ book.returned later = [⟨.ofNumber 5, .ofNumber 1, 1, .ofCents 101⟩,
        ⟨.ofNumber 6, .ofNumber 2, 1, .ofCents 102⟩, ⟨id, .ofNumber 3, 1, .ofCents 103⟩]
      ∧ Event.firings (book.audit later) = [(id, .ofCents 102)]
      ∧ ∃ side stop, order.side = some side ∧ (book.after later).ledger.get? id = some stop
        ∧ stop.kind = order.kind ∧ stop.side = order.side
        ∧ (stop.triggered = true ↔ book.Crosses id side (.ofCents 101) later)
        ∧ (stop.isPending = true → ∀ trade ∈ book.returned later, side.crosses (.ofCents 101) trade.price = false)
        ∧ ((Event.firings (fresh.audit (earlier ++ order :: later))).map Prod.fst).Nodup :=
  ⟨_, rfl, rfl, by decide +kernel, by decide +kernel, by decide +kernel,
    stop_fires_iff_crossed (rfl : open? (Config.cents "ACME") = _) _ rfl (show _ = Except.ok [] by decide +kernel) _⟩

end LimitBook.Book
