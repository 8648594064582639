import LimitBook.Proofs.Book.Lockstep
import LimitBook.Proofs.Book.Priority

/-! Conversion. A stop that has fired is, for everything that a book does from then on, the limit or market
order that it has become: as the order that trades, as one that rests, and as the target of a cancel order. -/
namespace LimitBook

def OrderKind.plain : OrderKind → OrderKind
  | stop _ (some bound) => limit bound
  | stop _ none => market
  | kind => kind

def Order.plain (order : Order) : Order :=
  if order.isStop && order.triggered then { order with kind := order.kind.plain, triggered := false } else order

def Ledger.plain (ledger : Ledger) : Ledger := { ledger with orders := ledger.orders.map Order.plain }

def Book.plain (book : Book) : Book := { book with ledger := book.ledger.plain }

section Plain
variable {order : Order}

@[simp] theorem OrderKind.limitPrice_plain (kind : OrderKind) : kind.plain.limitPrice = kind.limitPrice := by
  cases kind with
  | stop trigger bound => cases bound <;> rfl
  | _ => rfl

/-- What has become of a fired stop is neither a stop nor a cancel order. -/
theorem Order.plain_kind_cases (stop : order.isStop = true) :
    order.kind.plain = .market ∨ ∃ limit, order.kind.plain = .limit limit := by
  unfold isStop at stop
  split at stop
  · rename_i trigger bound kind
    rw [kind]
    cases bound with
    | none => exact .inl rfl
    | some limit => exact .inr ⟨limit, rfl⟩
  · cases stop

private theorem Order.plain_of_fired (stop : order.isStop = true) (fired : order.triggered = true) :
    order.plain = { order with kind := order.kind.plain, triggered := false } := by
  unfold plain
  rw [stop, fired]
  rfl

private theorem Order.plain_of_not_fired (other : ¬ (order.isStop = true ∧ order.triggered = true)) :
    order.plain = order := by
  unfold plain
  rw [if_neg (by simpa using other)]

@[simp] theorem Order.id_plain (order : Order) : order.plain.id = order.id := by
  unfold plain
  split <;> rfl

@[simp] theorem Order.cancelled_plain (order : Order) : order.plain.cancelled = order.cancelled := by
  unfold plain
  split <;> rfl

@[simp] theorem Order.limitPrice_plain (order : Order) : order.plain.limitPrice = order.limitPrice := by
  unfold plain
  split
  · exact OrderKind.limitPrice_plain order.kind
  · rfl

/-- An order and the one that it has become once fired. The copy may be of another volume as far as `volumes`
allows, and whether it counts as fired does not matter, as it is no stop. -/
inductive Order.Becomes (volumes : Volume → Volume → Prop) (order : Order) : Order → Prop
  | same : Becomes volumes order order
  | fired {volume : Volume} {triggered : Bool} (stop : order.isStop = true) (fired : order.triggered = true)
      (allowed : volumes order.volume volume) :
      Becomes volumes order { order with kind := order.kind.plain, volume, triggered }

/-- Every event changes both alike; it does not matter if the copy is fired once more. -/
theorem Order.Becomes.effect {volumes : Volume → Volume → Prop} {copy : Order} (becomes : order.Becomes volumes copy)
    (event : Event) :
    (event.effect order).Becomes volumes (event.effect copy) := by
  cases becomes with
  | same => exact .same
  | @fired volume triggered stop fired allowed =>
    have both : ∀ (named : Prop) [Decidable named] {changed recopied : Order}, changed.Becomes volumes recopied →
        (if named then changed else order).Becomes volumes
          (if named then recopied else { order with kind := order.kind.plain, volume, triggered }) := by
      intro named _ changed recopied becomes
      split
      · exact becomes
      · exact .fired stop fired allowed
    cases event with
    | matched trade =>
      exact both (order.id = trade.taker ∨ order.id = trade.maker)
        (@Order.Becomes.fired volumes (order.take trade.volume) volume triggered stop fired allowed)
    | stopTriggered id crossing =>
      exact both (order.id = id) (@Order.Becomes.fired volumes order.fire volume true stop rfl allowed)
    | cancelled id reason =>
      exact both (order.id = id) (@Order.Becomes.fired volumes order.withdraw volume triggered stop fired allowed)
    | _ => exact .fired stop fired allowed

private theorem Order.becomes_plain (order : Order) : order.Becomes Eq order.plain := by
  by_cases both : order.isStop = true ∧ order.triggered = true
  · rw [plain_of_fired both.1 both.2]
    exact .fired both.1 both.2 rfl
  · rw [plain_of_not_fired both]
    exact .same

private theorem Order.not_isStop_plain (stop : order.isStop = true) {copy : Order}
    (kind : copy.kind = order.kind.plain) :
    copy.isCancel = false ∧ copy.isStop = false := by
  unfold isCancel isStop
  rcases plain_kind_cases stop with plain | ⟨limit, plain⟩ <;> rw [kind, plain] <;> exact ⟨rfl, rfl⟩

/-- What a fired stop has become is regular with any volume that leaves room for what remains. -/
theorem Order.Regular.plain (regular : order.Regular) (stop : order.isStop = true) (fired : order.triggered = true)
    {volume : Volume} (bound : order.remaining ≤ volume) (positive : volume ≠ 0) :
    ({ order.plain with volume } : Order).Regular := by
  have trades := isCancel_of_isStop stop
  rw [plain_of_fired stop fired]
  obtain ⟨replaced, unstopped⟩ :=
    @not_isStop_plain order stop { order with kind := order.kind.plain, volume, triggered := false } rfl
  exact {
    sided := fun _ => regular.sided trades
    positive := fun _ => positive
    remaining_le := bound
    executed_iff := fun _ => regular.executed_iff trades
    not_both := regular.not_both
    stop_of_triggered := nofun
    whole := fun also => absurd also (by simp [unstopped])
    inert := fun also => absurd also (by simp [replaced]) }

private theorem Order.regular_plain (regular : order.Regular) : order.plain.Regular := by
  by_cases both : order.isStop = true ∧ order.triggered = true
  · have made := regular.plain both.1 both.2 regular.remaining_le (regular.positive (isCancel_of_isStop both.1))
    rw [plain_of_fired both.1 both.2] at made ⊢
    exact made
  · rw [plain_of_not_fired both]
    exact regular

/-- What an order has become is not told from the order, once both are seen as what they have become. -/
theorem Order.Becomes.plain_eq {copy : Order} (becomes : order.Becomes Eq copy) (regular : copy.Regular) :
    copy.plain = order.plain := by
  cases becomes with
  | same => rfl
  | @fired volume triggered stop fired allowed =>
    subst allowed
    have unstopped := (@not_isStop_plain order stop { order with kind := order.kind.plain, triggered } rfl).2
    have unmarked : triggered = false := by
      rw [← Bool.not_eq_true]
      intro marked
      rw [regular.stop_of_triggered marked] at unstopped
      cases unstopped
    subst unmarked
    rw [plain_of_fired stop fired]
    exact plain_of_not_fired fun both => Bool.false_ne_true both.2

end Plain

def Likeness.plain (volumes : Volume → Volume → Prop) : Likeness .same where
  rel := Order.Becomes volumes
  last one other := other = one
  resembles := by
    rintro order _ (_ | @⟨volume, triggered, stop, fired, allowed⟩)
    · exact .refl order
    · obtain ⟨trades, unstopped⟩ :=
        @Order.not_isStop_plain order stop { order with kind := order.kind.plain, volume, triggered } rfl
      have waits : order.isPending = false := by simp [Order.isPending, fired]
      exact {
        id := rfl
        isLive := by
          unfold Order.isLive
          rw [trades, Order.isCancel_of_isStop stop]
        isPending := fun _ => by
          unfold Order.isPending at waits ⊢
          rw [unstopped, waits]
          rfl
        side := fun _ => Option.map_id_apply.symm
        limitPrice := fun _ => (OrderKind.limitPrice_plain _).trans Option.map_id_apply.symm
        triggerPrice := fun _ pending => by
          rw [waits] at pending
          cases pending
        remaining := fun _ => rfl
        known := fun _ _ => trivial }
  effect := by
    intro event order copy becomes
    rw [Renaming.event_same]
    exact becomes.effect event
  price := by
    rintro event last _ rfl
    rw [Renaming.event_same]
    rfl
  fresh := by
    intro order id _
    rw [Renaming.order_same]
    exact .same

namespace Ledger
variable {ledger state : Ledger} {carried : Option OrderId} {taker : OrderId} {stop : Order} {volume : Volume}

private theorem get?_plain (ledger : Ledger) (id : OrderId) :
    ledger.plain.get? id = (ledger.get? id).map Order.plain := by
  unfold get? plain
  split
  · rfl
  · rw [Array.getElem?_map]

private theorem Coherent.plain (coherent : ledger.Coherent carried) : ledger.plain.Coherent carried := by
  have placed : ∀ {order : Order}, order.Regular → order.plain.place = order.place := by
    intro order regular
    exact ((Likeness.plain Eq).resembles order.becomes_plain).place_same regular (Order.regular_plain regular)
  have revises : ledger.Revises Order.plain ledger.lastPrice ledger.plain := {
    size := Array.size_map
    nextId := rfl
    records := get?_plain ledger
    entries := by
      intro kind entry
      have same : ledger.plain.index kind = ledger.index kind := by cases kind <;> rfl
      rw [same, coherent.listed]
      constructor
      · rintro ⟨order, found, place⟩
        exact ⟨order, found, (placed (coherent.regular found)).trans place⟩
      · rintro ⟨order, found, place⟩
        exact ⟨order, found, (placed (coherent.regular found)).symm.trans place⟩
    withdrawn := by
      intro id
      simp only [Order.cancelled_plain]
      exact coherent.withdrawn
    lastPrice := rfl }
  refine coherent.revised revises Order.id_plain (fun found => Order.regular_plain (coherent.regular found)) ?_
  intro id order found active unlimited
  rw [((Likeness.plain Eq).resembles order.becomes_plain).isActive] at active
  rw [Order.limitPrice_plain] at unlimited
  exact coherent.limited found active unlimited

private theorem between_plain (coherent : ledger.Coherent carried) :
    (Likeness.plain Eq).Between ledger ledger.plain carried := by
  refine ⟨coherent, coherent.plain, Array.size_map, fun id => ?_, rfl⟩
  rw [get?_plain]
  cases ledger.get? id with
  | none => exact .none
  | some order => exact .some order.becomes_plain

/-- The order in flight may be replaced by a regular one that is listed at the same place. -/
theorem Coherent.put {order copy : Order} (coherent : state.Coherent (some taker))
    (found : state.get? taker = some order)
    (id : copy.id = order.id) (regular : copy.Regular) (place : copy.place = order.place)
    (cancelled : copy.cancelled = order.cancelled) : (state.put taker copy).Coherent (some taker) := by
  have named : ({ copy with id := order.id } : Order) = copy := by rw [← id]
  have revises : state.Revises (Order.changedAt taker fun record => { copy with id := record.id }) state.lastPrice
      (state.put taker copy) := by
    refine coherent.revises_at found (size_put ..) (nextId_put ..) ?_ ?_ ?_ (lastPrice_put ..)
    · intro other
      rw [get?_put found, named]
    · intro kind entry
      rw [index_put, named, place, coherent.listed]
      split
      · rename_i own
        simp [own, found]
      · rfl
    · intro other
      rw [cancelled_put, named, cancelled, coherent.withdrawn]
      split
      · rename_i own
        simp [own, found]
      · rfl
  refine coherent.revised_at found revises (fun _ => rfl) (by rw [named]; exact regular) (fun _ _ => rfl) ?_
  intro other apart same
  exact apart (Option.some.inj same).symm

/-- The limit or market order that a fired stop has become may take its place while it is in flight, with any
volume that leaves room for what remains. -/
theorem between_put_plain (coherent : state.Coherent (some taker)) (found : state.get? taker = some stop)
    (active : stop.isActive = true) (isStop : stop.isStop = true) (bound : stop.remaining ≤ volume) :
    (Likeness.plain fun _ _ => True).Between state (state.put taker { stop.plain with volume }) (some taker) := by
  have regular := coherent.regular found
  have fired := (Order.isActive_iff.mp active).2.2.2 isStop
  have positive : volume ≠ 0 := by
    have left := Order.remaining_pos regular active
    rw [Ne, Volume.eq_zero_iff] at left ⊢
    rw [Volume.le_iff_units] at bound
    omega
  have becomes : stop.Becomes (fun _ _ => True) { stop.plain with volume } := by
    rw [Order.plain_of_fired isStop fired]
    exact .fired isStop fired trivial
  have made := regular.plain isStop fired bound positive
  have placed := ((Likeness.plain fun _ _ => True).resembles becomes).place_same regular made
  have settled : (state.put taker { stop.plain with volume }).Coherent (some taker) :=
    coherent.put found (Order.id_plain stop) made placed (Order.cancelled_plain stop)
  refine ⟨coherent, settled, size_put .., fun id => ?_, lastPrice_put ..⟩
  rw [get?_put found]
  split
  · rename_i own
    rw [own, found]
    exact .some becomes
  · cases state.get? id with
    | none => exact .none
    | some order => exact .some .same

end Ledger

structure Outcome.SameFills (one two : Outcome (List Trade)) : Prop where
  answer : two.answer = one.answer
  events : two.events = one.events
  fills : ∀ id, (two.ledger.get? id).map (fun order => (order.remaining, order.executed, order.cancelled))
    = (one.ledger.get? id).map fun order => (order.remaining, order.executed, order.cancelled)
  indexes : ∀ kind, two.ledger.index kind = one.ledger.index kind

private theorem Likeness.Agree.sameFills {volumes : Volume → Volume → Prop} {one two : Outcome (List Trade)}
    (agree : (Likeness.plain volumes).Agree one two) : one.SameFills two := by
  have events := agree.events
  rw [Renaming.event_same, List.map_id] at events
  refine ⟨?_, events, fun id => ?_, agree.between.index⟩
  · rw [agree.answer, agree.reply, events]
  · cases found : one.ledger.get? id with
    | none =>
      rw [Ledger.get?_eq_none_iff, ← agree.between.size, ← Ledger.get?_eq_none_iff] at found
      rw [found]
    | some order =>
      obtain ⟨copy, there, becomes⟩ := agree.between.found found
      rw [there]
      cases becomes <;> rfl

namespace Book
variable {config : Config} {fresh book copy : Book} {events : List Event} {order : Order} {state : Ledger}
    {taker : OrderId}

private theorem books_plain (standing : book.Standing events) : (Likeness.plain Eq).Books book book.plain := by
  cases standing with
  | running unfaulted moves =>
    exact .running rfl unfaulted unfaulted (Ledger.between_plain (moves.coherent Ledger.coherent_empty))
  | @spent fault full earlier order faulted moves spent admissible stored trades =>
    refine .spent rfl faulted faulted (Ledger.between_plain (moves.coherent Ledger.coherent_empty)) spent stored ?_
    have waits : (order.numbered full.nextId).plain = order.numbered full.nextId :=
      Order.plain_of_not_fired fun both => Bool.false_ne_true (admissible.waiting.symm.trans both.2)
    change book.ledger.plain = _
    rw [stored, Renaming.order_same]
    change Ledger.plain (full.store order) = full.plain.store order
    unfold Ledger.plain Ledger.store
    rw [Array.map_push]
    exact congrArg
      (fun last => { full with orders := (full.orders.map Order.plain).push last, nextId := full.nextId.next }) waits

private theorem plain_eq_of_books (books : (Likeness.plain Eq).Books book copy) : copy.plain = book.plain := by
  have orders : copy.ledger.orders.map Order.plain = book.ledger.orders.map Order.plain :=
    books.map_orders (fun _ regular becomes => becomes.plain_eq regular)
      fun order id => by rw [Renaming.order_same]; rfl
  have cancelled := books.cancelled fun becomes => by cases becomes <;> rfl
  have ledger : copy.ledger.plain = book.ledger.plain :=
    Ledger.ext orders (books.index .bids) (books.index .asks) (books.index .stops) books.nextId cancelled books.last
  unfold Book.plain
  rw [Book.mk.injEq]
  exact ⟨books.config, ledger, books.fault⟩

/-- A stop that a book carries out has just fired. -/
theorem Executes.justFired (executes : book.Executes order state taker) (standing : book.Standing events) {stop : Order}
    (found : state.get? taker = some stop) (isStop : stop.isStop = true) : state.JustFired taker := by
  cases executes with
  | own enters =>
    -- The order that was given to the book trades at once, so that it is not a stop.
    obtain ⟨-, -, record, stored, kind, rfl⟩ := enters
    have unlisted : ∀ (ledger : Ledger) (id other : OrderId) (order : Order),
        (ledger.list id order).get? other = ledger.get? other := by
      intro ledger id other order
      unfold Ledger.list
      split
      · exact Ledger.get?_setIndex ..
      · rfl
    rw [unlisted, Ledger.get?_of_find stored] at found
    obtain rfl := Option.some.inj found
    rcases kind with kind | ⟨limit, kind⟩ <;> simp [Order.isStop, kind] at isStop
  | stop enters executed calls =>
    obtain ⟨coherent, flying⟩ := enters.ready standing
    have carried := Ledger.execute_carries .standard coherent flying
    obtain ⟨rfl, -⟩ := executed
    exact calls.justFired (carried.moves.coherent coherent)

/-- A stop that has fired is the order that it has become. A book in which all fired stops stand as such limit
or market orders answers and reports the same as the book itself, whatever orders both are given, and the two
books differ in nothing else at any step. And whenever a book carries out a stop that has just fired, it would
do the same with the limit or market order of the same number, side, limit and remaining volume. -/
theorem fired_stop_converts (opened : open? config = .ok fresh) (history : List Order) :
    let book := fresh.after history
    (∀ orders, List.Forall₂ (fun one two => two.answer = one.answer ∧ two.events = one.events
      ∧ two.book.plain = one.book.plain)
        (book.responses orders) (book.plain.responses orders))
      ∧ ∀ order state taker stop volume, book.Executes order state taker → state.get? taker = some stop →
        stop.isStop = true → stop.remaining ≤ volume →
        (state.execute taker).SameFills ((state.put taker { stop.plain with volume }).execute taker) := by
  intro book
  obtain ⟨standing, -⟩ := standing_after opened history
  constructor
  · intro orders
    obtain ⟨alike, -⟩ :=
      (books_plain standing).responses fun order (_ : order ∈ orders) => Renaming.suits_same book order
    rw [Renaming.order_same, List.map_id] at alike
    exact alike.imp fun one two ⟨renames, still⟩ => ⟨renames.same.1, renames.same.2, plain_eq_of_books still⟩
  · intro order state taker stop volume executes found isStop bound
    have justFired := executes.justFired standing found isStop
    obtain ⟨coherent, flying⟩ := justFired.ready
    have active := justFired.active found
    have between := Ledger.between_put_plain coherent found active isStop bound
    obtain ⟨copy, there, becomes⟩ := between.found found
    have alike := (Likeness.plain fun _ _ => True).resembles becomes
    obtain ⟨record, side, stored, sided, -⟩ := flying
    obtain rfl := Option.some.inj (found.symm.trans stored)
    have resided : copy.side = some side := by
      rw [alike.side (Order.isLive_of_isActive active), sided]
      rfl
    have reflying : (state.put taker { stop.plain with volume }).InFlight taker :=
      ⟨copy, side, there, resided, .inl (alike.isActive.trans active)⟩
    exact (between.execute justFired.ready.2 reflying).sameFills

/-- A stop-limit order has fired and rests, and a purchase from it fires another stop, which takes the rest of it. -/
theorem fired_stop_converts_two_stops : ∃ fresh, open? (Config.cents "ACME") = .ok fresh ∧
    let book := fresh.after [.limit .buy 1 (.ofCents 100),
      .stopLimit .sell (.ofUnits 2) (.ofCents 101) (.ofCents 98), .market .sell 1,
      .stop .buy 1 (.ofCents 97)]
    (∀ orders, List.Forall₂ (fun one two => two.answer = one.answer ∧ two.events = one.events
      ∧ two.book.plain = one.book.plain)
        (book.responses orders) (book.plain.responses orders))
      ∧ ∃ state stop, book.Executes (.market .buy 1) state (.ofNumber 4) ∧ state.get? (.ofNumber 4) = some stop
        ∧ stop.isStop = true ∧ (state.execute (.ofNumber 4)).answer = .ok [⟨.ofNumber 4, .ofNumber 2, 1, .ofCents 98⟩]
        ∧ (state.execute (.ofNumber 4)).SameFills
          ((state.put (.ofNumber 4) { stop.plain with volume := 1 }).execute (.ofNumber 4)) := by
  refine ⟨_, rfl, ?_⟩
  intro book
  obtain ⟨lasting, taking⟩ := fired_stop_converts (rfl : open? (Config.cents "ACME") = _)
    [.limit .buy 1 (.ofCents 100),
      .stopLimit .sell (.ofUnits 2) (.ofCents 101) (.ofCents 98), .market .sell 1,
      .stop .buy 1 (.ofCents 97)]
  have enters : book.Enters (.market .buy 1)
      ((book.ledger.store (.market .buy 1)).list book.ledger.nextId
        ((Order.market .buy 1).numbered book.ledger.nextId)) :=
    ⟨by decide +kernel, by decide +kernel, _, Ledger.find_of_get? (by decide +kernel), .inl rfl, rfl⟩
  let sold := ((book.ledger.store (.market .buy 1)).list book.ledger.nextId
    ((Order.market .buy 1).numbered book.ledger.nextId)).execute book.ledger.nextId
  have sale : sold.Reaches sold.ledger [⟨.ofNumber 5, .ofNumber 2, 1, .ofCents 98⟩] := ⟨rfl, by decide +kernel⟩
  have firing : sold.ledger.firedBy (.ofCents 98) = .ok [.ofNumber 4] := by decide +kernel
  have waits : sold.ledger.get? (.ofNumber 4)
      = some ((Order.stop .buy 1 (.ofCents 97)).numbered (.ofNumber 4)) := by decide +kernel
  let promoted := sold.ledger.promote (.ofNumber 4) (.ofCents 98)
  have promotes : promoted.Reaches promoted.ledger () := ⟨rfl, by decide +kernel⟩
  have executes : book.Executes (.market .buy 1) promoted.ledger (.ofNumber 4) :=
    .stop enters sale (.here firing (.here (Ledger.find_of_get? waits) rfl promotes))
  have found : promoted.ledger.get? (.ofNumber 4)
      = some ((Order.stop .buy 1 (.ofCents 97)).numbered (.ofNumber 4)).fire := by decide +kernel
  exact ⟨lasting, _, _, executes, found, rfl, by decide +kernel, taking _ _ _ _ 1 executes found rfl (by decide)⟩

end Book

end LimitBook
