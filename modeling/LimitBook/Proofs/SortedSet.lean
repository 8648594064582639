import LimitBook.PriceIndex
import Mathlib.Data.List.Sort

/-! Members of sorted sets. What an operation does to a set is said by its members, and a set has
nothing to it beyond them. -/
namespace LimitBook

namespace SortedSet
variable {α : Type} [LT α]

@[simp] theorem not_mem_empty (item : α) : item ∉ (empty : SortedSet α) := List.not_mem_nil

@[simp] theorem mem_erase [DecidableEq α] {set : SortedSet α} {item other : α} :
    other ∈ set.erase item ↔ other ∈ set ∧ other ≠ item := by
  simp only [mem_iff, erase, List.mem_filter, decide_eq_true_eq]

theorem eq_of_mem_iff [Std.Irrefl (α := α) (· < ·)] [Std.Antisymm (α := α) (· < ·)]
    {left right : SortedSet α} (same : ∀ item, item ∈ left ↔ item ∈ right) : left = right :=
  SortedSet.ext (left.ascending.eq_of_mem_iff right.ascending same)

/-- An item that a set holds leaves it one smaller. -/
theorem size_erase [Std.Irrefl (α := α) (· < ·)] [DecidableEq α] {set : SortedSet α} {item : α} (member : item ∈ set) :
    (set.erase item).size + 1 = set.size := by
  have single : set.toList.count item = 1 := List.count_eq_one_of_mem set.ascending.nodup member
  have others := set.toList.length_eq_countP_add_countP fun other => other == item
  change (set.toList.filter fun other => other ≠ item).length + 1 = set.toList.length
  rw [List.count] at single
  rw [← List.countP_eq_length_filter]
  simp only [Bool.not_eq_true, beq_eq_false_iff_ne, ne_eq] at others ⊢
  omega

variable [DecidableLT α]

theorem mem_range {set : SortedSet α} {lower upper : Bound α} {item : α} : item ∈ set.range lower upper
    ↔ item ∈ set ∧ lower.isBelow item = true ∧ upper.isAbove item = true := by
  rw [range, select, List.mem_filter, Bool.and_eq_true]
  rfl

theorem ascending_range (set : SortedSet α) (lower upper : Bound α) : (set.range lower upper).Pairwise (· < ·) :=
  set.ascending.filter _

theorem mem_insertInto [Std.Trichotomous (α := α) (· < ·)] {item other : α} {items : List α} :
    other ∈ insertInto item items ↔ other = item ∨ other ∈ items := by
  refine ⟨mem_insertInto_of_mem, fun member => ?_⟩
  induction items with
  | nil => simpa [insertInto] using member
  | cons head rest ih =>
    rw [insertInto]
    split
    · simpa using member
    · rename_i notBelow
      split
      · rcases member with same | within
        · exact List.mem_cons_of_mem _ (ih (.inl same))
        · rcases List.mem_cons.mp within with same | later
          · exact same ▸ List.mem_cons_self
          · exact List.mem_cons_of_mem _ (ih (.inr later))
      · rename_i notAbove
        rcases member with same | within
        · have found := Std.Trichotomous.trichotomous item head notBelow notAbove
          exact same ▸ found ▸ List.mem_cons_self
        · exact within

variable [Trans (α := α) (· < ·) (· < ·) (· < ·)] [Std.Trichotomous (α := α) (· < ·)]

@[simp] theorem mem_insert {set : SortedSet α} {item other : α} :
    other ∈ set.insert item ↔ other = item ∨ other ∈ set := mem_insertInto

@[simp] theorem mem_ofList {items : List α} {item : α} : item ∈ ofList items ↔ item ∈ items := by
  induction items with
  | nil => simp [ofList]
  | cons head rest ih =>
    change item ∈ (ofList rest).insert head ↔ _
    rw [mem_insert, ih, List.mem_cons]

end SortedSet

instance : Std.Trichotomous (α := Entry) (· < ·) := ⟨fun _ _ => Entry.eq_of_not_lt⟩

instance : Std.Irrefl (α := Entry) (· < ·) := ⟨Entry.lt_irrefl⟩

instance : Std.Antisymm (α := Entry) (· < ·) :=
  ⟨fun left _ below above => absurd (Trans.trans below above) (Entry.lt_irrefl left)⟩

instance : Std.Trichotomous (α := OrderId) (· < ·) := ⟨fun left right notBelow notAbove => by
  rw [OrderId.lt_iff_number] at notBelow notAbove
  exact OrderId.ext (by omega)⟩

instance : Std.Irrefl (α := OrderId) (· < ·) := ⟨fun id => Nat.lt_irrefl id.number⟩

instance : Std.Antisymm (α := OrderId) (· < ·) :=
  ⟨fun _ _ below above => absurd (Nat.lt_trans below above) (Nat.lt_irrefl _)⟩

end LimitBook
