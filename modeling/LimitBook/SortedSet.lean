/-! Finite sets kept as strictly ascending lists, and the ranges of them between two ends. -/
namespace LimitBook

inductive Bound (α : Type)
  | unbounded
  | included (item : α)
  | excluded (item : α)

namespace Bound
variable {α : Type} [LT α] [DecidableLT α]

def isBelow (bound : Bound α) (item : α) : Bool :=
  match bound with
  | unbounded => true
  | included least => !decide (item < least)
  | excluded least => least < item

def isAbove (bound : Bound α) (item : α) : Bool :=
  match bound with
  | unbounded => true
  | included greatest => !decide (greatest < item)
  | excluded greatest => item < greatest

end Bound

@[ext] structure SortedSet (α : Type) [LT α] where
  toList : List α
  ascending : toList.Pairwise (· < ·)

namespace SortedSet
variable {α : Type} [LT α]

instance : Membership α (SortedSet α) := ⟨fun set item => item ∈ set.toList⟩

theorem mem_iff {set : SortedSet α} {item : α} : item ∈ set ↔ item ∈ set.toList := Iff.rfl

def empty : SortedSet α := ⟨[], .nil⟩

def size (set : SortedSet α) : Nat := set.toList.length

def isEmpty (set : SortedSet α) : Bool := set.toList.isEmpty

def select (set : SortedSet α) (condition : α → Bool) : List α := set.toList.filter condition

def erase [DecidableEq α] (set : SortedSet α) (item : α) : SortedSet α :=
  ⟨set.toList.filter (fun other => other ≠ item), set.ascending.filter _⟩

def contains [DecidableEq α] (set : SortedSet α) (item : α) : Bool := decide (item ∈ set.toList)

variable [DecidableLT α]

def range (set : SortedSet α) (lower upper : Bound α) : List α :=
  set.select fun item => lower.isBelow item && upper.isAbove item

def insertInto (item : α) : List α → List α
  | [] => [item]
  | head :: rest =>
    if item < head then item :: head :: rest
    else if head < item then head :: insertInto item rest
    else head :: rest

theorem mem_insertInto_of_mem {item other : α} {items : List α} (member : other ∈ insertInto item items) :
    other = item ∨ other ∈ items := by
  induction items with
  | nil => simpa [insertInto] using member
  | cons head rest ih =>
    rw [insertInto] at member
    split at member
    · simpa using member
    · split at member
      · rcases List.mem_cons.mp member with same | below
        · exact .inr (same ▸ List.mem_cons_self)
        · exact (ih below).imp_right (List.mem_cons_of_mem _)
      · exact .inr member

private theorem insertInto_ascending [Trans (α := α) (· < ·) (· < ·) (· < ·)] (item : α) {items : List α}
    (ascending : items.Pairwise (· < ·)) : (insertInto item items).Pairwise (· < ·) := by
  induction items with
  | nil => exact List.pairwise_singleton _ _
  | cons head rest ih =>
    have parts := List.pairwise_cons.mp ascending
    rw [insertInto]
    split
    · rename_i below
      refine List.pairwise_cons.mpr ⟨fun other member => ?_, ascending⟩
      rcases List.mem_cons.mp member with same | later
      · exact same ▸ below
      · exact Trans.trans below (parts.1 _ later)
    · split
      · rename_i above
        refine List.pairwise_cons.mpr ⟨fun other member => ?_, ih parts.2⟩
        rcases mem_insertInto_of_mem member with same | later
        · exact same ▸ above
        · exact parts.1 _ later
      · exact ascending

def insert [Trans (α := α) (· < ·) (· < ·) (· < ·)] (set : SortedSet α) (item : α) : SortedSet α :=
  ⟨insertInto item set.toList, insertInto_ascending item set.ascending⟩

def ofList [Trans (α := α) (· < ·) (· < ·) (· < ·)] (items : List α) : SortedSet α :=
  items.foldr (fun item set => set.insert item) empty

end SortedSet
end LimitBook
