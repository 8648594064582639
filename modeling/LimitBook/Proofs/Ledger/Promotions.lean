import LimitBook.Ledger.PendingStops
import LimitBook.Proofs.Ledger.Marks
import LimitBook.Proofs.Ledger.Rounds

/-! Promotions. Whatever state a ledger is in, a stop that fires has not fired before, is marked as fired from
then on, and takes its entry out of the pending index. So no stop fires twice, and a cascade runs out of stops
before it runs on for ever. -/
namespace LimitBook

def Event.promoted (events : List Event) : List OrderId := (firings events).map Prod.fst

@[simp] theorem Event.promoted_append (events more : List Event) :
    promoted (events ++ more) = promoted events ++ promoted more := by
  simp [promoted]

namespace Ledger

structure Promotes {α : Type} (ledger : Ledger) (outcome : Outcome α) : Prop where
  continues : ledger.Continues outcome.ledger
  waited : ∀ id ∈ Event.promoted outcome.events, ∃ stop : Order, ledger.get? id = some stop ∧ stop.triggered = false
  marked : ∀ id ∈ Event.promoted outcome.events,
    ∃ stop : Order, outcome.ledger.get? id = some stop ∧ stop.triggered = true
  once : (Event.promoted outcome.events).Nodup
  left : outcome.ledger.stops.size + (Event.promoted outcome.events).length = ledger.stops.size

variable {α β : Type} {ledger next : Ledger} {id : OrderId} {price : Price} {prices : List Price} {outcome : Outcome α}

/-- A step that fires nothing and leaves the pending index alone. -/
theorem promotes_of_silent (continues : ledger.Continues outcome.ledger) (silent : Event.promoted outcome.events = [])
    (stops : outcome.ledger.stops = ledger.stops) : ledger.Promotes outcome where
  continues := continues
  waited := by simp [silent]
  marked := by simp [silent]
  once := by simp [silent]
  left := by simp [silent, stops]

private theorem promotes_failed (ledger : Ledger) (fault : Fault) :
    ledger.Promotes (Outcome.failed ledger fault : Outcome α) :=
  promotes_of_silent (.refl ledger) rfl rfl

private theorem promotes_done (ledger : Ledger) (answer : α) : ledger.Promotes (Outcome.done ledger answer) :=
  promotes_of_silent (.refl ledger) rfl rfl

private theorem Promotes.map (promotes : ledger.Promotes outcome) (f : α → β) : ledger.Promotes (outcome.map f) :=
  ⟨promotes.continues, promotes.waited, promotes.marked, promotes.once, promotes.left⟩

/-- What the second step fires was still waiting after the first, which had marked all that it fired. -/
theorem Promotes.andThen {onward : Ledger → α → Outcome β} (first : ledger.Promotes outcome)
    (second : ∀ answer, outcome.answer = .ok answer → outcome.ledger.Promotes (onward outcome.ledger answer)) :
    ledger.Promotes (outcome.andThen onward) := by
  unfold Outcome.andThen
  split
  · rename_i answer answered
    have later := second answer answered
    have events : Event.promoted ((onward outcome.ledger answer).after outcome.events).events
        = Event.promoted outcome.events ++ Event.promoted (onward outcome.ledger answer).events :=
      Event.promoted_append ..
    exact {
      continues := first.continues.trans later.continues
      waited := by
        rw [events]
        intro id member
        rcases List.mem_append.mp member with early | late
        · exact first.waited id early
        · obtain ⟨stop, found, waiting⟩ := later.waited id late
          obtain ⟨old, stored, goesOn⟩ := first.continues.get?_before found
          refine ⟨old, stored, ?_⟩
          rw [← Bool.not_eq_true] at waiting ⊢
          exact fun fired => waiting (goesOn.triggered fired)
      marked := by
        rw [events]
        intro id member
        rcases List.mem_append.mp member with early | late
        · obtain ⟨stop, found, fired⟩ := first.marked id early
          obtain ⟨record, stored, goesOn⟩ := later.continues.get? found
          exact ⟨record, stored, goesOn.triggered fired⟩
        · exact later.marked id late
      once := by
        rw [events]
        apply first.once.append later.once
        -- A stop fired by both steps would be marked before the second, which found it waiting.
        intro id early late
        obtain ⟨stop, found, fired⟩ := first.marked id early
        obtain ⟨same, there, waiting⟩ := later.waited id late
        obtain rfl := Option.some.inj (found.symm.trans there)
        rw [fired] at waiting
        cases waiting
      left := by
        have sizes := first.left
        have fewer := later.left
        rw [events, List.length_append, Outcome.ledger_after]
        omega }
  · exact ⟨first.continues, first.waited, first.marked, first.once, first.left⟩

private theorem promotes_sweep (ledger : Ledger) (taker : OrderId) : ledger.Promotes (ledger.sweep taker) := by
  obtain ⟨trades, last, -, reported, -⟩ := sweep_rounds ledger taker
  have silent : Event.promoted (trades.map .matched) = [] := by
    simp [Event.promoted, Event.firings, Event.firing?, List.filterMap_eq_nil_iff]
  exact promotes_of_silent (continues_sweep ledger taker) (reported ▸ silent) (stops_sweep ledger taker)

private theorem promotes_settle (ledger : Ledger) (id : OrderId) : ledger.Promotes (ledger.settle id) := by
  have silent : Event.promoted (ledger.settle id).events = [] := by
    unfold settle
    split
    · rfl
    split
    · rfl
    split <;> rfl
  exact promotes_of_silent (continues_settle ledger id) silent (stops_settle ledger id)

private theorem promotes_execute (ledger : Ledger) (id : OrderId) : ledger.Promotes (ledger.execute id) :=
  (promotes_sweep ledger id).andThen fun trades _ => (promotes_settle _ id).map fun _ => trades

section Promotion
variable {stop : Order}

/-- A stop that is promoted has fired and has left the pending index; a fault changes nothing. -/
theorem promote_cases (found : ledger.get? id = some stop) (price : Price) :
    (∃ fault, ledger.promote id price = .failed ledger fault)
      ∨ ∃ next : Ledger, ledger.promote id price = ⟨next, [.stopTriggered id price], .ok ()⟩
        ∧ next.get? id = some stop.fire ∧ next.stops.size + 1 = ledger.stops.size := by
  unfold promote
  rw [find_of_get? found]
  dsimp only
  split
  · rename_i trigger side given sided
    split
    · exact .inl ⟨_, rfl⟩
    · rename_i struck left
      have there : struck.get? id = some stop := by rw [(eq_of_leave left).2, get?_setIndex, found]
      have sizes : struck.stops.size + 1 = ledger.stops.size := size_leave left .stops
      refine .inr ⟨_, rfl, ?_, ?_⟩
      · split
        · rw [enter, get?_setIndex, get?_put there, if_pos rfl]
          rfl
        · rw [get?_put there, if_pos rfl]
          rfl
      · split
        · rw [enter, stops_setIndex_side, stops_put, sizes]
        · rw [stops_put, sizes]
  · exact .inl ⟨_, rfl⟩

private theorem promotes_promote (found : ledger.get? id = some stop) (waiting : stop.triggered = false) :
    ledger.Promotes (ledger.promote id price) := by
  have continues := continues_promote ledger id price
  rcases promote_cases found price with ⟨fault, stuck⟩ | ⟨next, promoted, fired, sizes⟩
  · rw [stuck]
    exact promotes_failed ..
  · rw [promoted] at continues ⊢
    have single : Event.promoted [.stopTriggered id price] = [id] := rfl
    refine ⟨continues, ?_, ?_, List.nodup_singleton id, sizes⟩
    · intro other member
      obtain rfl := List.mem_singleton.mp member
      exact ⟨stop, found, waiting⟩
    · intro other member
      obtain rfl := List.mem_singleton.mp member
      exact ⟨stop.fire, fired, rfl⟩

end Promotion

private theorem promotes_fire (price : Price) (ledger : Ledger) (ids : List OrderId) :
    ledger.Promotes (fire .settling price ledger ids) := by
  induction ids generalizing ledger with
  | nil => exact promotes_done ..
  | cons id rest ih =>
    unfold fire
    cases found : ledger.find id with
    | error fault => exact promotes_failed ..
    | ok stop =>
      dsimp only
      split
      · exact ih ledger
      · rename_i waiting
        rw [Bool.not_eq_true] at waiting
        apply (promotes_promote (get?_of_find found) waiting).andThen
        intro _ _
        apply (promotes_execute _ id).andThen
        intro trades _
        exact (ih _).map _

theorem promotes_cascade (ledger : Ledger) (prices : List Price) :
    ledger.Promotes (cascade .settling ledger prices) := by
  fun_induction cascade Executor.settling ledger prices with
  | case1 ledger => exact promotes_done ..
  | case2 ledger => exact promotes_failed ..
  | case3 ledger price waiting ids firing next events fault fired =>
    have kept := promotes_fire price ledger ids
    rw [fired] at kept
    exact ⟨kept.continues, kept.waited, kept.marked, kept.once, kept.left⟩
  | case4 ledger price waiting ids firing next events trades fired ih =>
    have kept := promotes_fire price ledger ids
    rw [fired] at kept
    change ledger.Promotes (Outcome.andThen ⟨next, events, .ok trades⟩ fun next trades =>
      (cascade .settling next (waiting ++ trades.map Trade.price)).map (trades ++ ·))
    apply kept.andThen
    intro own answered
    obtain rfl := Except.ok.inj answered
    exact ih.map _

/-- Stops that do not fire trade nothing. -/
theorem fire_idle {ids : List OrderId} {trades : List Trade}
    (fires : (fire .settling price ledger ids).Reaches next trades)
    (idle : Event.promoted (fire .settling price ledger ids).events = []) : trades = [] := by
  induction ids with
  | nil => exact (Outcome.reaches_done.mp fires).2.symm
  | cons id rest ih =>
    unfold fire at fires idle
    cases found : ledger.find id with
    | error fault =>
      rw [found] at fires
      exact absurd fires Outcome.not_reaches_failed
    | ok stop =>
      simp only [found] at fires idle
      split at fires
      · rename_i fired
        rw [if_pos fired] at idle
        exact ih fires idle
      · rename_i waiting
        rw [if_neg waiting] at idle
        obtain ⟨promoted, _, promotion, -⟩ := Outcome.reaches_andThen.mp fires
        rcases promote_cases (get?_of_find found) price with ⟨fault, stuck⟩ | ⟨next, shape, -⟩
        · rw [stuck] at promotion
          exact absurd promotion Outcome.not_reaches_failed
        · rw [shape] at idle
          cases idle

inductive CascadeStep : Ledger × List Price → Ledger × List Price → Prop
  | scan {ledger next : Ledger} {price : Price} {waiting : List Price} {ids : List OrderId} {trades : List Trade}
      (firing : ledger.firedBy price = .ok ids) (fires : (fire .settling price ledger ids).Reaches next trades) :
      CascadeStep (ledger, price :: waiting) (next, waiting ++ trades.map Trade.price)

variable {state later : Ledger × List Price}

def pressure (state : Ledger × List Price) : Nat × Nat := (state.1.stops.size, state.2.length)

/-- A turn leaves fewer stops pending, or as many and one price less: stops that trade have left the pending index. -/
theorem CascadeStep.descends (step : CascadeStep state later) :
    Prod.Lex (· < ·) (· < ·) (pressure later) (pressure state) := by
  cases step with
  | @scan ledger next price waiting ids trades firing fires =>
    have promotes := promotes_fire price ledger ids
    have sizes := promotes.left
    rw [fires.1] at sizes
    cases fired : Event.promoted (fire .settling price ledger ids).events with
    | nil =>
      -- Nothing fired, so that nothing was traded and the queue has only lost its head.
      rw [fire_idle fires fired]
      rw [fired, List.length_nil, Nat.add_zero] at sizes
      simp only [pressure, sizes, List.map_nil, List.append_nil, List.length_cons]
      exact .right _ (Nat.lt_succ_self _)
    | cons first others =>
      rw [fired, List.length_cons] at sizes
      refine .left _ _ ?_
      change next.stops.size < ledger.stops.size
      omega

theorem wellFounded_cascadeStep : WellFounded fun later state => CascadeStep state later :=
  Subrelation.wf (fun step => step.descends) (InvImage.wf pressure (wellFounded_lt.prod_lex wellFounded_lt))

def CascadeStops (last : Ledger) (queue : List Price) (outcome : Outcome (List Trade)) : Prop :=
  (queue = [] ∧ ∃ trades, outcome.Reaches last trades)
    ∨ ∃ price waiting fault, queue = price :: waiting ∧ outcome.answer = .error fault
      ∧ (last.firedBy price = .error fault
        ∨ ∃ ids, last.firedBy price = .ok ids ∧ (fire .settling price last ids).answer = .error fault)

/-- A cascade is a row of turns up to where it stops. -/
theorem cascade_steps (ledger : Ledger) (prices : List Price) : ∃ last queue,
    Relation.ReflTransGen CascadeStep (ledger, prices) (last, queue)
      ∧ last.CascadeStops queue (cascade .settling ledger prices) := by
  fun_induction cascade Executor.settling ledger prices with
  | case1 ledger => exact ⟨ledger, [], .refl, .inl ⟨rfl, [], rfl, rfl⟩⟩
  | case2 ledger price waiting fault stuck =>
    exact ⟨ledger, _, .refl, .inr ⟨price, waiting, fault, rfl, rfl, .inl stuck⟩⟩
  | case3 ledger price waiting ids firing next events fault fired =>
    exact ⟨ledger, _, .refl, .inr ⟨price, waiting, fault, rfl, rfl, .inr ⟨ids, firing, by rw [fired]⟩⟩⟩
  | case4 ledger price waiting ids firing next events trades fired ih =>
    have fires : (fire .settling price ledger ids).Reaches next trades := by
      rw [fired]
      exact ⟨rfl, rfl⟩
    obtain ⟨last, queue, steps, stops⟩ := ih
    refine ⟨last, queue, .head (.scan firing fires) steps, ?_⟩
    rcases stops with ⟨done, more, reached⟩ | ⟨next, later, fault, queued, answered, stuck⟩
    · exact .inl ⟨done, trades ++ more, Outcome.reaches_map.mpr ⟨more, reached, rfl⟩⟩
    · refine .inr ⟨next, later, fault, queued, ?_, stuck⟩
      change (cascade _ _ _).answer.map (trades ++ ·) = _
      rw [answered]
      rfl

end Ledger
end LimitBook
