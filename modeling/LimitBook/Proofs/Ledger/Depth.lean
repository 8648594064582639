import LimitBook.Ledger.Depth
import LimitBook.Proofs.Ledger.Views

/-! Reading an index by price: its best price, and the spread between two prices. -/
namespace LimitBook

namespace PriceIndex
variable {index : PriceIndex} {price : Price} {highestFirst : Bool}

theorem mem_walk {entry : Entry} : entry ∈ index.walk highestFirst ↔ entry ∈ index := by
  unfold walk
  split
  · exact List.mem_reverse
  · exact Iff.rfl

theorem exists_entry_of_bestPrice (best : index.bestPrice highestFirst = some price) :
    ∃ entry ∈ index, entry.price = price := by
  obtain ⟨entry, first, priced⟩ := Option.map_eq_some_iff.mp best
  exact ⟨entry, mem_walk.mp (List.mem_of_head? first), priced⟩

theorem exists_bestPrice_iff : (∃ price, index.bestPrice highestFirst = some price) ↔ 0 < index.size := by
  rw [← Option.isSome_iff_exists, bestPrice, Option.isSome_map, List.isSome_head?, SortedSet.size, List.length_pos_iff]
  unfold walk
  split
  · rw [Ne, List.reverse_eq_nil_iff]
  · rfl

end PriceIndex

theorem Fixed.sub_eq_ok_iff {places : Nat} {left right difference : Fixed places} :
    left.sub right = .ok difference ↔ difference.raw = left.raw - right.raw :=
  ofRaw_eq_ok_iff

theorem spreadOf_eq_some_iff {bid ask : Option Price} {price : Price} : spreadOf bid ask = some price
    ↔ ∃ best least, bid = some best ∧ ask = some least ∧ price.raw = least.raw - best.raw := by
  unfold spreadOf
  split
  · rename_i best least
    have same : (least.sub best).toOption = some price ↔ least.sub best = .ok price := by
      cases least.sub best <;> simp [Except.toOption]
    rw [same, Fixed.sub_eq_ok_iff]
    simp
  · rename_i lacking
    constructor
    · intro none
      cases none
    · rintro ⟨best, least, rfl, rfl, -⟩
      exact absurd rfl (lacking best least rfl)

end LimitBook
