import LimitBook.Trade
import Mathlib

/-! The volume of an order in some trades, as an exact sum. Over all orders every trade counts twice. -/
namespace LimitBook.Trade

def names (trade : Trade) (id : OrderId) : Bool := id = trade.taker || id = trade.maker

def volumeOf (id : OrderId) (trades : List Trade) : Nat :=
  ((trades.filter fun trade => trade.names id).map fun trade => trade.volume.units).sum

def total (trades : List Trade) : Nat := (trades.map fun trade => trade.volume.units).sum

variable {id : OrderId} {trades more : List Trade} {trade : Trade}

theorem names_iff : trade.names id = true ↔ id = trade.taker ∨ id = trade.maker := by simp [names]

@[simp] theorem volumeOf_nil : volumeOf id [] = 0 := rfl

private theorem volumeOf_cons :
    volumeOf id (trade :: trades) = (if trade.names id then trade.volume.units else 0) + volumeOf id trades := by
  unfold volumeOf
  rw [List.filter_cons]
  split <;> simp

@[simp] theorem volumeOf_append : volumeOf id (trades ++ more) = volumeOf id trades + volumeOf id more := by
  simp [volumeOf]

theorem volumeOf_singleton : volumeOf id [trade] = if trade.names id then trade.volume.units else 0 := by
  rw [volumeOf_cons, volumeOf_nil, Nat.add_zero]

theorem volumeOf_eq_zero (unnamed : ∀ trade ∈ trades, ¬ trade.names id) : volumeOf id trades = 0 := by
  rw [volumeOf, List.filter_eq_nil_iff.mpr unnamed]
  rfl

private theorem sum_single {ids : List OrderId} (distinct : ids.Nodup) (member : id ∈ ids) (volume : Nat) :
    (ids.map fun other => if other = id then volume else 0).sum = volume := by
  induction ids with
  | nil => cases member
  | cons head rest ih =>
    obtain ⟨absent, others⟩ := List.nodup_cons.mp distinct
    rw [List.map_cons, List.sum_cons]
    by_cases same : head = id
    · subst same
      have nothing : (rest.map fun other => if other = head then volume else 0).sum = 0 := by
        apply List.sum_eq_zero
        intro count counted
        obtain ⟨other, within, rfl⟩ := List.mem_map.mp counted
        rw [if_neg]
        rintro rfl
        exact absent within
      rw [if_pos rfl, nothing, Nat.add_zero]
    · have later := (List.mem_cons.mp member).resolve_left fun equal => same equal.symm
      rw [if_neg same, ih others later, Nat.zero_add]

/-- Over all orders every trade counts twice: for its taker and for its maker. -/
theorem sum_volumeOf {ids : List OrderId} (distinct : ids.Nodup)
    (paired : ∀ trade ∈ trades, trade.taker ≠ trade.maker ∧ trade.taker ∈ ids ∧ trade.maker ∈ ids) :
    (ids.map fun id => volumeOf id trades).sum = 2 * total trades := by
  induction trades with
  | nil => simp [total]
  | cons trade rest ih =>
    obtain ⟨apart, taker, maker⟩ := paired trade List.mem_cons_self
    have others := ih fun other member => paired other (List.mem_cons_of_mem _ member)
    have ends : ∀ id, volumeOf id (trade :: rest) = (if id = trade.taker then trade.volume.units else 0)
        + (if id = trade.maker then trade.volume.units else 0) + volumeOf id rest := by
      intro id
      rw [volumeOf_cons]
      by_cases taking : id = trade.taker
      · subst taking
        simp [names, apart]
      · simp [names, taking]
    simp only [ends, List.sum_map_add, sum_single distinct taker, sum_single distinct maker, others]
    simp only [total, List.map_cons, List.sum_cons]
    omega

end LimitBook.Trade
