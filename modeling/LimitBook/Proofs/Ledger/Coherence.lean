import LimitBook.Proofs.Order
import LimitBook.Proofs.Ledger.Views

/-! Coherent ledgers: the indexes and the cancelled numbers say nothing but what the records say. A
ledger that rewrites its records and follows them with its indexes stays coherent. -/
namespace LimitBook.Ledger

structure Coherent (ledger : Ledger) (taker : Option OrderId) : Prop where
  numbered : ∀ {id order}, ledger.get? id = some order → order.id = id
  bounded : ledger.orders.size < 0x1_0000_0000_0000_0000
  counted : ledger.nextId.number = (ledger.orders.size + 1) % 0x1_0000_0000_0000_0000
  regular : ∀ {id order}, ledger.get? id = some order → order.Regular
  listed : ∀ {kind entry}, entry ∈ ledger.index kind
    ↔ ∃ order, ledger.get? entry.id = some order ∧ order.place = some (kind, entry.price)
  withdrawn : ∀ {id}, id ∈ ledger.cancelled ↔ ∃ order, ledger.get? id = some order ∧ order.cancelled = true
  limited : ∀ {id order}, ledger.get? id = some order → order.isActive = true → order.limitPrice = none →
    taker = some id

theorem coherent_empty : empty.Coherent none where
  numbered := by simp [get?, empty]
  bounded := by decide
  counted := rfl
  regular := by simp [get?, empty]
  listed := by
    intro kind entry
    cases kind <;> simp [get?, index, empty]
  withdrawn := by simp [get?, empty]
  limited := by simp [get?, empty]

/-- There is a number left for one more order, or the numbers have just been used up. -/
theorem Coherent.room_or_spent {ledger : Ledger} {taker : Option OrderId} (coherent : ledger.Coherent taker) :
    ledger.orders.size + 1 < 0x1_0000_0000_0000_0000 ∨ ledger.orders.size + 1 = 0x1_0000_0000_0000_0000 := by
  have bounded := coherent.bounded
  omega

structure Revises (ledger : Ledger) (change : Order → Order) (last : Option Price) (next : Ledger) : Prop where
  size : next.orders.size = ledger.orders.size
  nextId : next.nextId = ledger.nextId
  records : ∀ id, next.get? id = (ledger.get? id).map change
  entries : ∀ kind entry, entry ∈ next.index kind
    ↔ ∃ order, ledger.get? entry.id = some order ∧ (change order).place = some (kind, entry.price)
  withdrawn : ∀ id, id ∈ next.cancelled ↔ ∃ order, ledger.get? id = some order ∧ (change order).cancelled = true
  lastPrice : next.lastPrice = last

variable {ledger middle next : Ledger} {taker : Option OrderId}

theorem Coherent.revised {change : Order → Order} {last : Option Price} {later : Option OrderId}
    (coherent : ledger.Coherent taker) (revises : ledger.Revises change last next)
    (sameId : ∀ order, (change order).id = order.id)
    (regular : ∀ {id order}, ledger.get? id = some order → (change order).Regular)
    (limited : ∀ {id order}, ledger.get? id = some order → (change order).isActive = true →
      (change order).limitPrice = none → later = some id) : next.Coherent later where
  numbered := by
    intro id order found
    rw [revises.records] at found
    obtain ⟨old, stored, rfl⟩ := Option.map_eq_some_iff.mp found
    rw [sameId]
    exact coherent.numbered stored
  bounded := by
    rw [revises.size]
    exact coherent.bounded
  counted := by
    rw [revises.nextId, revises.size]
    exact coherent.counted
  regular := by
    intro id order found
    rw [revises.records] at found
    obtain ⟨old, stored, rfl⟩ := Option.map_eq_some_iff.mp found
    exact regular stored
  listed := by
    intro kind entry
    simp [revises.entries, revises.records]
  withdrawn := by
    intro id
    simp [revises.withdrawn, revises.records]
  limited := by
    intro id order found
    rw [revises.records] at found
    obtain ⟨old, stored, rfl⟩ := Option.map_eq_some_iff.mp found
    exact limited stored

section Single
variable {id : OrderId} {old : Order} {change : Order → Order} {last : Option Price}

private theorem Coherent.changedAt_eq (coherent : ledger.Coherent taker) (found : ledger.get? id = some old)
    {other : OrderId} {record : Order} (there : ledger.get? other = some record) :
    record.changedAt id change = if other = id then change old else record := by
  rw [Order.changedAt, coherent.numbered there]
  by_cases same : other = id
  · subst same
    rw [Option.some.inj (found.symm.trans there)]
  · rw [if_neg same, if_neg same]

/-- A ledger that differs from a coherent one in what is said of one order. -/
theorem Coherent.revises_at (coherent : ledger.Coherent taker) (found : ledger.get? id = some old)
    (size : next.orders.size = ledger.orders.size) (nextId : next.nextId = ledger.nextId)
    (records : ∀ other, next.get? other = if other = id then some (change old) else ledger.get? other)
    (entries : ∀ kind entry, entry ∈ next.index kind
      ↔ if entry.id = id then (change old).place = some (kind, entry.price) else entry ∈ ledger.index kind)
    (withdrawn : ∀ other, other ∈ next.cancelled
      ↔ if other = id then (change old).cancelled = true else other ∈ ledger.cancelled)
    (lastPrice : next.lastPrice = last) : ledger.Revises (Order.changedAt id change) last next where
  size := size
  nextId := nextId
  records := by
    intro other
    rw [records]
    cases there : ledger.get? other with
    | none =>
      have apart : other ≠ id := by
        rintro rfl
        rw [found] at there
        cases there
      rw [if_neg apart]
      rfl
    | some record =>
      rw [Option.map_some, coherent.changedAt_eq found there]
      split <;> rfl
  entries := by
    intro kind entry
    rw [entries, coherent.listed]
    by_cases same : entry.id = id
    · simp [same, found, coherent.changedAt_eq found found]
    · simp only [same, if_false]
      cases there : ledger.get? entry.id with
      | none => simp
      | some record => simp [coherent.changedAt_eq found there, same]
  withdrawn := by
    intro other
    rw [withdrawn, coherent.withdrawn]
    by_cases same : other = id
    · simp [same, found, coherent.changedAt_eq found found]
    · simp only [same, if_false]
      cases there : ledger.get? other with
      | none => simp
      | some record => simp [coherent.changedAt_eq found there, same]
  lastPrice := lastPrice

theorem Coherent.revised_at {later : Option OrderId} (coherent : ledger.Coherent taker)
    (found : ledger.get? id = some old) (revises : ledger.Revises (Order.changedAt id change) last next)
    (sameId : ∀ order, (change order).id = order.id) (regular : (change old).Regular)
    (limited : (change old).isActive = true → (change old).limitPrice = none → later = some id)
    (others : ∀ other, other ≠ id → taker ≠ some other) : next.Coherent later := by
  refine coherent.revised revises ?_ ?_ ?_
  · intro order
    unfold Order.changedAt
    split
    · exact sameId order
    · rfl
  · intro other record there
    rw [coherent.changedAt_eq found there]
    split
    · exact regular
    · exact coherent.regular there
  · intro other record there
    rw [coherent.changedAt_eq found there]
    split
    · rename_i same
      subst same
      exact limited
    · rename_i apart
      intro active unlimited
      exact absurd (coherent.limited there active unlimited) (others other apart)

end Single

theorem Revises.congr {change other : Order → Order} {last : Option Price}
    (revises : ledger.Revises change last next)
    (same : ∀ {id order}, ledger.get? id = some order → other order = change order) :
    ledger.Revises other last next where
  size := revises.size
  nextId := revises.nextId
  records := by
    intro id
    rw [revises.records]
    cases stored : ledger.get? id with
    | none => rfl
    | some order => simp only [Option.map_some, same stored]
  entries := by
    intro kind entry
    rw [revises.entries]
    constructor
    · rintro ⟨order, stored, placed⟩
      exact ⟨order, stored, by rw [same stored]; exact placed⟩
    · rintro ⟨order, stored, placed⟩
      exact ⟨order, stored, by rw [← same stored]; exact placed⟩
  withdrawn := by
    intro id
    rw [revises.withdrawn]
    constructor
    · rintro ⟨order, stored, marked⟩
      exact ⟨order, stored, by rw [same stored]; exact marked⟩
    · rintro ⟨order, stored, marked⟩
      exact ⟨order, stored, by rw [← same stored]; exact marked⟩
  lastPrice := revises.lastPrice

theorem Coherent.revises_id (coherent : ledger.Coherent taker) : ledger.Revises id ledger.lastPrice ledger where
  size := rfl
  nextId := rfl
  records := by simp
  entries := fun _ _ => coherent.listed
  withdrawn := fun _ => coherent.withdrawn
  lastPrice := rfl

theorem Revises.trans {first second : Order → Order} {early last : Option Price}
    (before : ledger.Revises first early middle) (after : middle.Revises second last next) :
    ledger.Revises (second ∘ first) last next where
  size := after.size.trans before.size
  nextId := after.nextId.trans before.nextId
  records := by
    intro id
    rw [after.records, before.records, Option.map_map]
  entries := by
    intro kind entry
    simp [after.entries, before.records]
  withdrawn := by
    intro id
    simp [after.withdrawn, before.records]
  lastPrice := after.lastPrice

def delist (ledger : Ledger) (order : Order) : Ledger :=
  match order.place with
  | some (kind, price) => ledger.setIndex kind ((ledger.index kind).erase ⟨price, order.id⟩)
  | none => ledger

def enlist (ledger : Ledger) (order : Order) : Ledger :=
  match order.place with
  | some (kind, price) => ledger.enter kind ⟨price, order.id⟩
  | none => ledger

section Listing
variable (ledger : Ledger) (order : Order)

@[simp] theorem orders_delist : (ledger.delist order).orders = ledger.orders := by
  unfold delist
  split <;> simp

@[simp] theorem nextId_delist : (ledger.delist order).nextId = ledger.nextId := by
  unfold delist
  split <;> simp

@[simp] theorem cancelled_delist : (ledger.delist order).cancelled = ledger.cancelled := by
  unfold delist
  split <;> simp

@[simp] theorem lastPrice_delist : (ledger.delist order).lastPrice = ledger.lastPrice := by
  unfold delist
  split <;> simp

@[simp] theorem get?_delist (id : OrderId) : (ledger.delist order).get? id = ledger.get? id := by
  simp only [get?, orders_delist]

@[simp] theorem orders_enlist : (ledger.enlist order).orders = ledger.orders := by
  unfold enlist
  split <;> simp [enter]

@[simp] theorem nextId_enlist : (ledger.enlist order).nextId = ledger.nextId := by
  unfold enlist
  split <;> simp [enter]

@[simp] theorem cancelled_enlist : (ledger.enlist order).cancelled = ledger.cancelled := by
  unfold enlist
  split <;> simp [enter]

@[simp] theorem lastPrice_enlist : (ledger.enlist order).lastPrice = ledger.lastPrice := by
  unfold enlist
  split <;> simp [enter]

@[simp] theorem get?_enlist (id : OrderId) : (ledger.enlist order).get? id = ledger.get? id := by
  simp only [get?, orders_enlist]

end Listing

theorem mem_delist {order : Order} {kind : IndexKind} {entry : Entry} :
    entry ∈ (ledger.delist order).index kind
      ↔ entry ∈ ledger.index kind ∧ ¬ (entry.id = order.id ∧ order.place = some (kind, entry.price)) := by
  unfold delist
  split
  · rename_i other price placed
    rw [mem_setIndex_erase, placed, Entry.ext_iff]
    simp only [Option.some.injEq, Prod.mk.injEq]
    tauto
  · rename_i unplaced
    simp [unplaced]

theorem mem_enlist {order : Order} {kind : IndexKind} {entry : Entry} :
    entry ∈ (ledger.enlist order).index kind
      ↔ entry ∈ ledger.index kind ∨ (entry.id = order.id ∧ order.place = some (kind, entry.price)) := by
  unfold enlist
  split
  · rename_i other price placed
    rw [mem_enter, placed, Entry.ext_iff]
    simp only [Option.some.injEq, Prod.mk.injEq]
    tauto
  · rename_i unplaced
    simp [unplaced]

theorem Coherent.mem_delist (coherent : ledger.Coherent taker) {order : Order} {id : OrderId}
    (found : ledger.get? id = some order) {kind : IndexKind} {entry : Entry} :
    entry ∈ (ledger.delist order).index kind ↔ entry ∈ ledger.index kind ∧ entry.id ≠ id := by
  rw [Ledger.mem_delist, coherent.numbered found]
  refine and_congr_right fun listed => ?_
  constructor
  · rintro gone rfl
    obtain ⟨record, there, placed⟩ := coherent.listed.mp listed
    rw [Option.some.inj (there.symm.trans found)] at placed
    exact gone ⟨rfl, placed⟩
  · rintro apart ⟨same, -⟩
    exact apart same

theorem Coherent.leave_eq_delist {order : Order} {id : OrderId} {kind : IndexKind} {price : Price}
    (coherent : ledger.Coherent taker) (found : ledger.get? id = some order)
    (placed : order.place = some (kind, price)) :
    ledger.leave kind ⟨price, id⟩ = .ok (ledger.delist order) := by
  have member : (⟨price, id⟩ : Entry) ∈ ledger.index kind := coherent.listed.mpr ⟨order, found, placed⟩
  rw [leave_of_mem member, delist, placed, coherent.numbered found]

end LimitBook.Ledger
