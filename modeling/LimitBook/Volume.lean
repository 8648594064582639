import LimitBook.Word

/-! Counts of units. A volume fits 64 bits; a sum that would not fit stays at the greatest volume,
and subtraction stops at zero. -/
namespace LimitBook

@[ext] structure Volume where
  units : Nat
  fits : units < 0x1_0000_0000_0000_0000

namespace Volume

def ofWord (word : Word) : Volume := ⟨word.val, word.fits⟩

instance : DecidableEq Volume := fun left right =>
  decidable_of_iff (left.units = right.units) Volume.ext_iff.symm

instance : OfNat Volume 0 := ⟨⟨0, Word.zero_fits⟩⟩
instance : OfNat Volume 1 := ⟨⟨1, Word.one_fits⟩⟩

def ofUnits (count : Nat) : Volume := ((Word.ofNat? count).map .ofWord).getD 0

def greatest : Volume := ⟨0xffff_ffff_ffff_ffff, by decide⟩

instance : LE Volume := ⟨fun left right => left.units ≤ right.units⟩
instance : LT Volume := ⟨fun left right => left.units < right.units⟩
instance (left right : Volume) : Decidable (left ≤ right) := inferInstanceAs (Decidable (left.units ≤ right.units))
instance (left right : Volume) : Decidable (left < right) := inferInstanceAs (Decidable (left.units < right.units))

instance : Min Volume := ⟨fun left right => if left ≤ right then left else right⟩

instance : Sub Volume where
  sub left right := ⟨left.units - right.units, Nat.lt_of_le_of_lt (Nat.sub_le _ _) left.fits⟩

def saturatingAdd (left right : Volume) : Volume :=
  if fits : left.units + right.units < 0x1_0000_0000_0000_0000 then ⟨left.units + right.units, fits⟩ else greatest

def cyclicSub (left right : Volume) : Volume :=
  ⟨(left.units + (0x1_0000_0000_0000_0000 - right.units)) % 0x1_0000_0000_0000_0000,
    Word.mod_fits _⟩

def text (volume : Volume) : String := toString volume.units

instance : ToString Volume := ⟨text⟩

theorem le_iff_units {left right : Volume} : left ≤ right ↔ left.units ≤ right.units := Iff.rfl

theorem lt_iff_units {left right : Volume} : left < right ↔ left.units < right.units := Iff.rfl

@[simp] theorem units_zero : (0 : Volume).units = 0 := rfl

@[simp] theorem units_sub (left right : Volume) : (left - right).units = left.units - right.units := rfl

theorem units_min (left right : Volume) : (min left right).units = min left.units right.units := by
  change (if left.units ≤ right.units then left else right).units = _
  split <;> omega

theorem units_saturatingAdd (left right : Volume) :
    (left.saturatingAdd right).units = min (left.units + right.units) (0xffff_ffff_ffff_ffff) := by
  unfold saturatingAdd
  split
  · simp only; omega
  · simp only [greatest]; omega

theorem eq_zero_iff {volume : Volume} : volume = 0 ↔ volume.units = 0 :=
  ⟨fun same => by rw [same]; rfl, fun same => Volume.ext same⟩

end Volume
end LimitBook
