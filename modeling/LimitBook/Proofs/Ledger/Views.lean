import LimitBook.Ledger.Admission
import LimitBook.Proofs.SortedSet

/-! Views of a ledger: the record behind a number and the entries of an index. Every operation is
described by what it does to them. -/
namespace LimitBook.Ledger

theorem find_of_get? {ledger : Ledger} {id : OrderId} {order : Order} (found : ledger.get? id = some order) :
    ledger.find id = .ok order := by
  simp only [find, found]

theorem ne_unassigned_of_get? {ledger : Ledger} {id : OrderId} {order : Order}
    (found : ledger.get? id = some order) : id.number ≠ 0 := by
  intro zero
  simp [get?, zero] at found

theorem number_le_size {ledger : Ledger} {id : OrderId} {order : Order} (found : ledger.get? id = some order) :
    id.number ≤ ledger.orders.size := by
  have positive := ne_unassigned_of_get? found
  simp only [get?, positive, if_false] at found
  obtain ⟨bound, -⟩ := Array.getElem?_eq_some_iff.mp found
  omega

theorem get?_eq_none_iff {ledger : Ledger} {id : OrderId} :
    ledger.get? id = none ↔ id.number = 0 ∨ ledger.orders.size < id.number := by
  unfold get?
  split
  · simp [*]
  · rw [Array.getElem?_eq_none_iff]
    omega

theorem getElem?_orders (ledger : Ledger) {place : Nat} (fits : place + 1 < 0x1_0000_0000_0000_0000) :
    ledger.orders[place]? = ledger.get? ⟨place + 1, fits⟩ := by
  simp [get?]

theorem get?_put {ledger : Ledger} {id : OrderId} {old : Order} (found : ledger.get? id = some old)
    (new : Order) (other : OrderId) :
    (ledger.put id new).get? other = if other = id then some new else ledger.get? other := by
  have positive := ne_unassigned_of_get? found
  have bound := number_le_size found
  simp only [put, get?, positive, if_false]
  by_cases same : other = id
  · subst same
    simp only [positive, if_false, if_true]
    rw [Array.getElem?_setIfInBounds_self_of_lt (by omega)]
  · have apart : other.number ≠ id.number := fun equal => same (OrderId.ext equal)
    rw [if_neg same]
    split
    · rfl
    · rw [Array.getElem?_setIfInBounds_ne (by omega)]

@[simp] theorem size_put (ledger : Ledger) (id : OrderId) (order : Order) :
    (ledger.put id order).orders.size = ledger.orders.size := by
  unfold put
  split <;> simp

@[simp] theorem nextId_put (ledger : Ledger) (id : OrderId) (order : Order) :
    (ledger.put id order).nextId = ledger.nextId := by
  unfold put
  split <;> rfl

@[simp] theorem cancelled_put (ledger : Ledger) (id : OrderId) (order : Order) :
    (ledger.put id order).cancelled = ledger.cancelled := by
  unfold put
  split <;> rfl

@[simp] theorem lastPrice_put (ledger : Ledger) (id : OrderId) (order : Order) :
    (ledger.put id order).lastPrice = ledger.lastPrice := by
  unfold put
  split <;> rfl

@[simp] theorem index_put (ledger : Ledger) (id : OrderId) (order : Order) (kind : IndexKind) :
    (ledger.put id order).index kind = ledger.index kind := by
  unfold put
  split <;> cases kind <;> rfl

@[simp] theorem index_discard (ledger : Ledger) (id : OrderId) (order : Order) (kind : IndexKind) :
    (ledger.discard id order).index kind = ledger.index kind := by
  change (ledger.put id { order with cancelled := true }).index kind = _
  rw [index_put]

section SetIndex
variable (ledger : Ledger) (kind : IndexKind) (index : PriceIndex)

@[simp] theorem orders_setIndex : (ledger.setIndex kind index).orders = ledger.orders := by cases kind <;> rfl

@[simp] theorem get?_setIndex (id : OrderId) : (ledger.setIndex kind index).get? id = ledger.get? id := by
  simp only [get?, orders_setIndex]

@[simp] theorem nextId_setIndex : (ledger.setIndex kind index).nextId = ledger.nextId := by cases kind <;> rfl

@[simp] theorem cancelled_setIndex : (ledger.setIndex kind index).cancelled = ledger.cancelled := by
  cases kind <;> rfl

@[simp] theorem lastPrice_setIndex : (ledger.setIndex kind index).lastPrice = ledger.lastPrice := by
  cases kind <;> rfl

theorem index_setIndex (other : IndexKind) :
    (ledger.setIndex kind index).index other = if other = kind then index else ledger.index other := by
  cases kind <;> cases other <;> rfl

end SetIndex

theorem mem_enter {ledger : Ledger} {kind other : IndexKind} {entry new : Entry} :
    entry ∈ (ledger.enter kind new).index other ↔ (other = kind ∧ entry = new) ∨ entry ∈ ledger.index other := by
  simp only [enter, index_setIndex]
  by_cases same : other = kind
  · subst same
    simp
  · simp [same]

theorem leave_of_mem {ledger : Ledger} {kind : IndexKind} {entry : Entry} (member : entry ∈ ledger.index kind) :
    ledger.leave kind entry = .ok (ledger.setIndex kind ((ledger.index kind).erase entry)) := by
  have listed : entry ∈ (ledger.index kind).toList := member
  simp only [leave, PriceIndex.remove?, listed, if_true]

theorem mapM_of_ok {α β : Type} (check : α → Except Fault β) (items : List α)
    (passes : ∀ item ∈ items, ∃ result, check item = .ok result) :
    ∃ results, items.mapM check = .ok results
      ∧ ∀ result, result ∈ results ↔ ∃ item ∈ items, check item = .ok result := by
  induction items with
  | nil => exact ⟨[], rfl, by simp⟩
  | cons head rest ih =>
    obtain ⟨first, checked⟩ := passes head List.mem_cons_self
    obtain ⟨others, later, members⟩ := ih fun item member => passes item (List.mem_cons_of_mem _ member)
    refine ⟨first :: others, ?_, fun result => ?_⟩
    · simp only [List.mapM_cons, checked, later, bind, Except.bind]
      rfl
    · simp [members, checked, eq_comm]

theorem mem_of_mapM {α β : Type} {check : α → Except Fault β} {items : List α} {results : List β}
    (mapped : items.mapM check = .ok results) {result : β} (member : result ∈ results) :
    ∃ item ∈ items, check item = .ok result := by
  induction items generalizing results with
  | nil =>
    obtain rfl := Except.ok.inj mapped
    cases member
  | cons head rest ih =>
    rw [List.mapM_cons] at mapped
    cases first : check head with
    | error fault => simp [first, bind, Except.bind] at mapped
    | ok checked =>
      cases others : rest.mapM check with
      | error fault => simp [first, others, bind, Except.bind] at mapped
      | ok more =>
        simp only [first, others, bind, Except.bind] at mapped
        obtain rfl := Except.ok.inj mapped
        rcases List.mem_cons.mp member with rfl | later
        · exact ⟨head, List.mem_cons_self, first⟩
        · obtain ⟨item, within, passes⟩ := ih others later
          exact ⟨item, List.mem_cons_of_mem _ within, passes⟩

theorem mem_setIndex_erase {ledger : Ledger} {kind other : IndexKind} {entry struck : Entry} :
    entry ∈ (ledger.setIndex kind ((ledger.index kind).erase struck)).index other
      ↔ entry ∈ ledger.index other ∧ ¬ (other = kind ∧ entry = struck) := by
  rw [index_setIndex]
  by_cases same : other = kind
  · subst same
    simp
  · simp [same]

structure Alike (left right : Ledger) : Prop where
  records : ∀ id, left.get? id = right.get? id
  entries : ∀ kind, left.index kind = right.index kind
  cancelled : left.cancelled = right.cancelled
  lastPrice : left.lastPrice = right.lastPrice

theorem Alike.refl (ledger : Ledger) : ledger.Alike ledger := ⟨fun _ => rfl, fun _ => rfl, rfl, rfl⟩

/-- A record stored after the last number is found under none. -/
theorem alike_store {ledger : Ledger} (spent : ledger.orders.size + 1 = 0x1_0000_0000_0000_0000) (order : Order) :
    (ledger.store order).Alike ledger where
  records := by
    intro id
    have fits := id.fits
    unfold get? store
    split
    · rfl
    · rw [Array.getElem?_push, if_neg (by omega)]
  entries := by
    intro kind
    cases kind <;> rfl
  cancelled := rfl
  lastPrice := rfl

end LimitBook.Ledger
