import LimitBook.Order
import LimitBook.SortedSet

/-! Price indexes: the orders of one collection by price, and by age within a price. An index holds
numbers only; the records stay with the book. -/
namespace LimitBook

@[ext] structure Entry where
  price : Price
  id : OrderId
deriving DecidableEq

namespace Entry

def first (price : Price) : Entry := ⟨price, .unassigned⟩

def last (price : Price) : Entry := ⟨price, .greatest⟩

instance : LT Entry :=
  ⟨fun left right => left.price < right.price ∨ (left.price = right.price ∧ left.id < right.id)⟩

instance (left right : Entry) : Decidable (left < right) :=
  inferInstanceAs (Decidable (left.price < right.price ∨ (left.price = right.price ∧ left.id < right.id)))

theorem lt_iff {left right : Entry} :
    left < right ↔ left.price.raw < right.price.raw
      ∨ (left.price.raw = right.price.raw ∧ left.id.number < right.id.number) := by
  change (left.price.raw < right.price.raw ∨ (left.price = right.price ∧ left.id.number < right.id.number)) ↔ _
  rw [Fixed.ext_iff]

instance : Trans (α := Entry) (· < ·) (· < ·) (· < ·) where
  trans := by
    intro first second third below above
    rw [lt_iff] at *
    omega

theorem lt_irrefl (entry : Entry) : ¬ entry < entry := by
  rw [lt_iff]; omega

theorem eq_of_not_lt {left right : Entry} (notBelow : ¬ left < right) (notAbove : ¬ right < left) :
    left = right := by
  rw [lt_iff] at *
  exact Entry.ext (Fixed.ext (by omega)) (OrderId.ext (by omega))

end Entry

inductive IndexKind
  | bids
  | asks
  | stops
deriving DecidableEq

namespace IndexKind

def name : IndexKind → String
  | bids => "bids"
  | asks => "asks"
  | stops => "pending stops"

def label : IndexKind → String
  | bids => "Bids"
  | asks => "Asks"
  | stops => "PendingStops"

end IndexKind

def Side.indexKind : Side → IndexKind
  | .buy => .bids
  | .sell => .asks

abbrev PriceIndex := SortedSet Entry

namespace PriceIndex

def remove? (index : PriceIndex) (entry : Entry) : Option PriceIndex :=
  if entry ∈ index.toList then some (index.erase entry) else none

/-- The entries priced at `threshold` or higher, or at `threshold` or lower, ascending. Without a
threshold every entry qualifies. -/
def atOrBetter (index : PriceIndex) (threshold : Option Price) (wantHighest : Bool) : List Entry :=
  match threshold with
  | none => index.range .unbounded .unbounded
  | some price =>
    if wantHighest then index.range (.included (.first price)) .unbounded
    else index.range .unbounded (.included (.last price))

def below (index : PriceIndex) (price : Price) : List Entry := index.range .unbounded (.excluded (.first price))

def above (index : PriceIndex) (price : Price) : List Entry := index.range (.excluded (.last price)) .unbounded

def walk (index : PriceIndex) (highestFirst : Bool) : List Entry :=
  if highestFirst then index.toList.reverse else index.toList

def bestPrice (index : PriceIndex) (highestFirst : Bool) : Option Price :=
  (index.walk highestFirst).head?.map Entry.price

def describe (index : PriceIndex) (kind : IndexKind) : String :=
  "PriceIndex \x7b kind: " ++ kind.label ++ ", len: " ++ toString index.size ++ " \x7d"

end PriceIndex
end LimitBook
