import LimitBook.Proofs.Ledger.Runs

/-! Calls of `execute`: for which order and in which ledger a cascade carries an order out. These calls are all
that a cascade asks of its executor. -/
namespace LimitBook.Ledger

inductive FireCalls (price : Price) : Ledger → List OrderId → Ledger → OrderId → Prop
  | here {ledger promoted : Ledger} {id : OrderId} {rest : List OrderId} {stop : Order}
      (found : ledger.find id = .ok stop) (waiting : stop.triggered = false)
      (promotes : (ledger.promote id price).Reaches promoted ()) :
      FireCalls price ledger (id :: rest) promoted id
  | passed {ledger state : Ledger} {id taker : OrderId} {rest : List OrderId} {stop : Order}
      (found : ledger.find id = .ok stop) (fired : stop.triggered = true)
      (calls : FireCalls price ledger rest state taker) : FireCalls price ledger (id :: rest) state taker
  | later {ledger promoted next state : Ledger} {id taker : OrderId} {rest : List OrderId} {stop : Order}
      {trades : List Trade} (found : ledger.find id = .ok stop) (waiting : stop.triggered = false)
      (promotes : (ledger.promote id price).Reaches promoted ()) (executes : (promoted.execute id).Reaches next trades)
      (calls : FireCalls price next rest state taker) : FireCalls price ledger (id :: rest) state taker

inductive CascadeCalls : Ledger → List Price → Ledger → OrderId → Prop
  | here {ledger state : Ledger} {price : Price} {waiting : List Price} {ids : List OrderId} {taker : OrderId}
      (firing : ledger.firedBy price = .ok ids) (calls : FireCalls price ledger ids state taker) :
      CascadeCalls ledger (price :: waiting) state taker
  | later {ledger next state : Ledger} {price : Price} {waiting : List Price} {ids : List OrderId} {taker : OrderId}
      {trades : List Trade} (firing : ledger.firedBy price = .ok ids)
      (fires : (fire .settling price ledger ids).Reaches next trades)
      (calls : CascadeCalls next (waiting ++ trades.map Trade.price) state taker) :
      CascadeCalls ledger (price :: waiting) state taker

variable {ledger state : Ledger} {taker : OrderId}

private theorem andThen_congr {α β : Type} {outcome : Outcome α} {next other : Ledger → α → Outcome β}
    (agree : ∀ ledger answer, outcome.Reaches ledger answer → next ledger answer = other ledger answer) :
    outcome.andThen next = outcome.andThen other := by
  unfold Outcome.andThen
  cases answered : outcome.answer with
  | error fault => rfl
  | ok answer =>
    dsimp only
    rw [agree _ _ ⟨rfl, answered⟩]

/-- The calls are all that matters of the executor: one that agrees with `execute` on them cannot be told apart. -/
theorem fire_congr {executor : Executor} {price : Price} {ids : List OrderId}
    (agrees : ∀ state taker, FireCalls price ledger ids state taker → executor.run state taker = state.execute taker) :
    fire executor price ledger ids = fire .settling price ledger ids := by
  induction ids generalizing ledger with
  | nil => rfl
  | cons id rest ih =>
    rw [fire, fire]
    cases found : ledger.find id with
    | error fault => rfl
    | ok stop =>
      dsimp only
      cases fired : stop.triggered with
      | true => exact ih fun state taker calls => agrees state taker (.passed found fired calls)
      | false =>
        simp only [Bool.false_eq_true, if_false]
        refine andThen_congr fun promoted _ promotes => ?_
        rw [agrees _ _ (.here found fired promotes)]
        refine andThen_congr fun next trades executes => ?_
        rw [ih fun state taker calls => agrees state taker (.later found fired promotes executes calls)]

theorem cascade_cons (executor : Executor) (ledger : Ledger) (price : Price) (waiting : List Price) :
    cascade executor ledger (price :: waiting) = match ledger.firedBy price with
      | .error fault => .failed ledger fault
      | .ok ids => (fire executor price ledger ids).andThen fun next trades =>
        (cascade executor next (waiting ++ trades.map Trade.price)).map (trades ++ ·) := by
  rw [cascade]
  cases ledger.firedBy price with
  | error fault => rfl
  | ok ids =>
    dsimp only
    split
    · rename_i fired
      rw [fired]
      rfl
    · rename_i fired
      rw [fired]
      rfl

theorem cascade_congr {executor : Executor} {waiting : List Price}
    (agrees : ∀ state taker, CascadeCalls ledger waiting state taker → executor.run state taker = state.execute taker) :
    cascade executor ledger waiting = cascade .settling ledger waiting := by
  fun_induction cascade Executor.settling ledger waiting with
  | case1 => rw [cascade]
  | case2 ledger price waiting fault stuck => rw [cascade_cons, stuck]
  | case3 ledger price waiting ids firing next events fault fired =>
    rw [cascade_cons, firing]
    dsimp only
    rw [fire_congr fun state taker calls => agrees state taker (.here firing calls), fired]
    rfl
  | case4 ledger price waiting ids firing next events trades fired ih =>
    have fires : (fire .settling price ledger ids).Reaches next trades := by
      rw [fired]
      exact ⟨rfl, rfl⟩
    rw [cascade_cons, firing]
    dsimp only
    rw [fire_congr fun state taker calls => agrees state taker (.here firing calls), fired]
    change ((cascade executor next _).map _).after events = _
    rw [ih fun state taker calls => agrees state taker (.later firing fires calls)]

def JustFired (state : Ledger) (id : OrderId) : Prop :=
  ∃ (earlier : Ledger) (stop : Order), earlier.Coherent none ∧ earlier.get? id = some stop ∧ stop.isPending = true
    ∧ state = earlier.promoted id stop

theorem JustFired.ready (justFired : state.JustFired taker) : state.Coherent (some taker) ∧ state.InFlight taker := by
  obtain ⟨earlier, stop, coherent, found, pending, rfl⟩ := justFired
  exact ⟨coherent_promoted coherent found pending, inFlight_promoted coherent found pending⟩

/-- What has just fired trades at once. -/
theorem JustFired.active (justFired : state.JustFired taker) {record : Order} (found : state.get? taker = some record) :
    record.isActive = true := by
  obtain ⟨earlier, stop, coherent, there, pending, rfl⟩ := justFired
  rw [(promoted_revises coherent there 0).records, there, Option.map_some, effect_stopTriggered,
    coherent.numbered there, if_pos rfl] at found
  obtain rfl := Option.some.inj found
  exact isActive_of_fired (coherent.regular there) pending

private theorem FireCalls.justFired {price : Price} {ids : List OrderId}
    (calls : FireCalls price ledger ids state taker)
    (coherent : ledger.Coherent none) (ascending : ids.Pairwise (· < ·)) (await : ∀ id ∈ ids, ledger.Awaits price id) :
    state.JustFired taker := by
  induction calls with
  | here found waiting promotes =>
    obtain ⟨stop, there, pending, crossed⟩ := await _ List.mem_cons_self
    rw [promote_eq coherent there pending] at promotes
    exact ⟨_, stop, coherent, there, pending, promotes.1.symm⟩
  | passed found fired calls =>
    obtain ⟨stop, fires⟩ := (await _ List.mem_cons_self).fires coherent
    rw [find_of_get? fires.found] at found
    rw [← Except.ok.inj found, fires.waiting] at fired
    cases fired
  | later found waiting promotes executes calls ih =>
    obtain ⟨stop, fires⟩ := (await _ List.mem_cons_self).fires coherent
    rw [fires.promotes] at promotes
    obtain ⟨rfl, -⟩ := promotes
    obtain ⟨rfl, -⟩ := executes
    have executed := execute_carries .standard fires.flying fires.ready
    exact ih (executed.moves.coherent fires.flying) ascending.of_cons (fires.rest_await ascending await)

/-- Whatever a cascade carries out is a stop that has just fired. -/
theorem CascadeCalls.justFired {waiting : List Price} (calls : CascadeCalls ledger waiting state taker)
    (coherent : ledger.Coherent none) : state.JustFired taker := by
  induction calls with
  | @here ledger _ price _ _ _ firing calls =>
    obtain ⟨ids, same, ascending, await⟩ := coherent.firedBy_eq price
    obtain rfl := Except.ok.inj (firing.symm.trans same)
    exact calls.justFired coherent ascending fun id => (await id).mp
  | @later ledger _ _ price _ _ _ _ firing fires calls ih =>
    obtain ⟨ids, same, ascending, await⟩ := coherent.firedBy_eq price
    obtain rfl := Except.ok.inj (firing.symm.trans same)
    have carried := fire_carries .standard coherent ascending fun id => (await id).mp
    obtain ⟨rfl, -⟩ := fires
    exact ih (carried.moves.coherent coherent)

theorem CascadeCalls.ready {waiting : List Price} (calls : CascadeCalls ledger waiting state taker)
    (coherent : ledger.Coherent none) : state.Coherent (some taker) ∧ state.InFlight taker :=
  (calls.justFired coherent).ready

end LimitBook.Ledger
