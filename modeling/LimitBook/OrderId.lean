import LimitBook.Word

/-! Admission numbers. The book counts its orders from one; zero marks an order not yet admitted. -/
namespace LimitBook

@[ext] structure OrderId where
  number : Nat
  fits : number < 0x1_0000_0000_0000_0000

namespace OrderId

def ofWord (word : Word) : OrderId := ⟨word.val, word.fits⟩

instance : DecidableEq OrderId := fun left right =>
  decidable_of_iff (left.number = right.number) OrderId.ext_iff.symm

def unassigned : OrderId := ⟨0, Word.zero_fits⟩

def first : OrderId := ⟨1, Word.one_fits⟩

def greatest : OrderId := ⟨0xffff_ffff_ffff_ffff, Word.greatest_fits⟩

def ofNumber (number : Nat) : OrderId := ((Word.ofNat? number).map ofWord).getD unassigned

def isAssigned (id : OrderId) : Bool := id.number != 0

-- After the last number the count starts again at zero.
def next (id : OrderId) : OrderId := ⟨(id.number + 1) % 0x1_0000_0000_0000_0000, Word.mod_fits _⟩

instance : LE OrderId := ⟨fun left right => left.number ≤ right.number⟩
instance : LT OrderId := ⟨fun left right => left.number < right.number⟩
instance (left right : OrderId) : Decidable (left ≤ right) :=
  inferInstanceAs (Decidable (left.number ≤ right.number))
instance (left right : OrderId) : Decidable (left < right) :=
  inferInstanceAs (Decidable (left.number < right.number))

def text (id : OrderId) : String := toString id.number

instance : ToString OrderId := ⟨text⟩

theorem le_iff_number {left right : OrderId} : left ≤ right ↔ left.number ≤ right.number := Iff.rfl

theorem lt_iff_number {left right : OrderId} : left < right ↔ left.number < right.number := Iff.rfl

instance : Trans (α := OrderId) (· < ·) (· < ·) (· < ·) where
  trans := Nat.lt_trans

theorem number_next {id : OrderId} (room : id.number + 1 < 0x1_0000_0000_0000_0000) : id.next.number = id.number + 1 :=
  Nat.mod_eq_of_lt room

end OrderId
end LimitBook
