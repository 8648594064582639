import LimitBook.Proofs.Decimal.Reader
import Mathlib.Algebra.Order.Field.Rat
import Mathlib.Algebra.Order.Group.Unbundled.Abs
import Mathlib.Tactic.FieldSimp
import Mathlib.Tactic.Positivity
import Mathlib.Tactic.Ring

/-! The numbers that decimal numbers stand for, and which numbers have one. A move of the point
keeps the number exactly whenever some magnitude is that number. -/
namespace LimitBook

def Magnitude.value (size : Magnitude) : ℚ := size.digits / 10 ^ size.scale

def Decimal.value (decimal : Decimal) : ℚ := decimal.mantissa / 10 ^ decimal.size.scale

def Representable (number : ℚ) : Prop := ∃ decimal : Decimal, decimal.value = number

theorem cast_tenTo (exponent : Nat) : (tenTo exponent : ℚ) = 10 ^ exponent := by
  change ((10 ^ exponent : Nat) : ℚ) = _
  push_cast
  rfl

theorem Decimal.value_eq (decimal : Decimal) :
    decimal.value = if decimal.negative then -decimal.size.value else decimal.size.value := by
  rw [value, mantissa, Magnitude.value]
  split <;> push_cast <;> ring

namespace Magnitude
variable {size result : Magnitude} {exponent : Nat}

private theorem value_nonneg (size : Magnitude) : 0 ≤ size.value := by
  rw [value]
  positivity

theorem value_eq_div_iff {digits scale : Nat} :
    size.value = (digits : ℚ) / 10 ^ scale ↔ size.digits * 10 ^ scale = digits * 10 ^ size.scale := by
  rw [value, div_eq_div_iff (by positivity) (by positivity)]
  exact_mod_cast Iff.rfl

theorem ofDigits?_eq_some {digits scale : Nat} (made : ofDigits? digits scale = some result) :
    result.digits = digits ∧ result.scale = scale := by
  unfold ofDigits? at made
  split at made
  · cases made
    exact ⟨rfl, rfl⟩
  · cases made

/-- A number with fewer places than are kept, or more digits than there is room for, has no digit
but zero among those that are lost. -/
theorem lost_eq_zero {held lost kept width digits scale : Nat}
    (same : (held * 10 ^ width + lost) * 10 ^ scale = digits * 10 ^ (kept + width)) (less : lost < 10 ^ width)
    (room : digits < 0x1_0000_0000_0000_0000_0000_0000) (few : scale ≤ 28)
    (full : kept = 28 ∨ 0x1_0000_0000_0000_0000_0000_0000 * 10 ^ width ≤ 10 * (held * 10 ^ width + lost)) :
    lost = 0 := by
  obtain fewer | more := Nat.lt_or_ge kept scale
  · -- A place more than are kept takes ten times the digits, for which there is no room.
    have crowded := full.resolve_left (by omega)
    obtain ⟨extra, rfl⟩ := Nat.exists_eq_add_of_lt fewer
    have split : digits * 10 ^ (kept + width) = digits * 10 ^ width * 10 ^ kept := by ring
    rw [split, Nat.add_assoc, Nat.add_comm kept, Nat.pow_add, ← Nat.mul_assoc] at same
    have shifted := Nat.eq_of_mul_eq_mul_right (Nat.pow_pos (by decide)) same
    have longer : 10 * (held * 10 ^ width + lost) ≤ (held * 10 ^ width + lost) * 10 ^ (extra + 1) := by
      rw [Nat.mul_comm, Nat.pow_succ]
      exact Nat.mul_le_mul_left _ (Nat.le_mul_of_pos_left _ (Nat.pow_pos (by decide)))
    have wide : 0x1_0000_0000_0000_0000_0000_0000 * 10 ^ width ≤ digits * 10 ^ width := by omega
    exact absurd (Nat.le_of_mul_le_mul_right wide (Nat.pow_pos (by decide))) (by omega)
  · obtain ⟨spare, rfl⟩ := Nat.exists_eq_add_of_le more
    have split : digits * 10 ^ (scale + spare + width) = digits * 10 ^ spare * 10 ^ width * 10 ^ scale := by ring
    rw [split] at same
    have whole := Nat.eq_of_mul_eq_mul_right (Nat.pow_pos (by decide)) same
    have divides : 10 ^ width ∣ lost :=
      (Nat.dvd_add_right (Nat.dvd_mul_left _ _)).mp (whole ▸ Nat.dvd_mul_left _ _)
    exact Nat.eq_zero_of_dvd_of_lt divides less

theorem value_scaleUp? (scaled : size.scaleUp? exponent = some result) : result.value = size.value * 10 ^ exponent := by
  unfold scaleUp? at scaled
  split at scaled
  case isTrue within =>
    obtain ⟨digits, scale⟩ := ofDigits?_eq_some scaled
    have split : (10 : ℚ) ^ size.scale = 10 ^ (size.scale - exponent) * 10 ^ exponent := by
      rw [← pow_add, Nat.sub_add_cancel within]
    rw [value, value, digits, scale, split]
    field_simp
  case isFalse beyond =>
    split at scaled
    · cases scaled
    · obtain ⟨digits, scale⟩ := ofDigits?_eq_some scaled
      have split : (10 : ℚ) ^ exponent = 10 ^ (exponent - size.scale) * 10 ^ size.scale := by
        rw [← pow_add, Nat.sub_add_cancel (by omega)]
      rw [value, value, digits, scale, split, Nat.cast_mul, cast_tenTo]
      field_simp

theorem le_scale_of_scaleDown? (scaled : size.scaleDown? exponent = some result) : exponent ≤ result.scale := by
  unfold scaleDown? at scaled
  split at scaled
  · cases scaled
  · split at scaled <;> obtain ⟨-, scale⟩ := ofDigits?_eq_some scaled <;> omega

private theorem rounded_mul {digits lost : Nat} (positive : 0 < lost) :
    (2 * (digits * lost) + lost) / (2 * lost) = digits := by
  have doubled : 2 * (digits * lost) + lost = lost * (2 * digits + 1) := by ring
  rw [doubled, Nat.mul_comm 2 lost, Nat.mul_div_mul_left _ _ positive]
  omega

/-- Nothing is rounded off a number that some magnitude is. -/
theorem value_scaleDown? (scaled : size.scaleDown? exponent = some result)
    (exact : ∃ target : Magnitude, target.value = size.value / 10 ^ exponent) :
    result.value = size.value / 10 ^ exponent := by
  have joined : size.value / 10 ^ exponent = size.digits / 10 ^ (size.scale + exponent) := by
    rw [value, div_div, ← pow_add]
  obtain ⟨target, meant⟩ := exact
  rw [joined] at meant ⊢
  unfold scaleDown? at scaled
  split at scaled
  · cases scaled
  · split at scaled
    · obtain ⟨digits, scale⟩ := ofDigits?_eq_some scaled
      rw [value, digits, scale]
    case isFalse beyond =>
      obtain ⟨digits, scale⟩ := ofDigits?_eq_some scaled
      -- The target has no more places than are kept, so the digits that are lost are zeros.
      have few := target.scale_le
      have split : 10 ^ (size.scale + exponent)
          = 10 ^ (28 - target.scale) * tenTo (size.scale + exponent - 28) * 10 ^ target.scale := by
        change _ = _ * 10 ^ (size.scale + exponent - 28) * _
        rw [← Nat.pow_add, ← Nat.pow_add]
        congr 1
        omega
      have same := value_eq_div_iff.mp meant
      rw [split, ← Nat.mul_assoc, ← Nat.mul_assoc] at same
      have placed := Nat.eq_of_mul_eq_mul_right (Nat.pow_pos (by decide)) same
      rw [← placed, rounded_mul (tenTo_pos _)] at digits
      rw [← meant, value, digits, scale, eq_comm, value_eq_div_iff, Nat.mul_assoc, ← Nat.pow_add,
        Nat.sub_add_cancel few]

end Magnitude

theorem Decimal.abs_value (decimal : Decimal) : |decimal.value| = decimal.size.value := by
  rw [value_eq]
  split
  · rw [abs_neg, abs_of_nonneg decimal.size.value_nonneg]
  · rw [abs_of_nonneg decimal.size.value_nonneg]

theorem representable_iff {number : ℚ} : Representable number ↔ ∃ size : Magnitude, size.value = |number| := by
  constructor
  · rintro ⟨decimal, rfl⟩
    exact ⟨decimal.size, decimal.abs_value.symm⟩
  · rintro ⟨size, same⟩
    refine ⟨⟨number < 0, size⟩, ?_⟩
    rw [Decimal.value_eq, same]
    obtain below | above := lt_or_ge number 0
    · simp [below, abs_of_neg]
    · simp [not_lt.mpr above, abs_of_nonneg above]

/-- A decimal number that is `factor` times as large in size is so in value. -/
theorem Decimal.value_resized {decimal : Decimal} {size : Magnitude} {factor : ℚ}
    (times : size.value = decimal.size.value * factor) :
    ({ decimal with size } : Decimal).value = decimal.value * factor := by
  rw [value_eq, value_eq]
  split <;> simp only [times, neg_mul]

/-- A decimal number with a place to spare is ten times as large without it. -/
theorem Decimal.representable_mul (decimal : Decimal) {exponent : Nat} (spare : exponent ≤ decimal.size.scale) :
    Representable (decimal.value * 10 ^ exponent) := by
  let shorter : Magnitude := { decimal.size with
    scale := decimal.size.scale - exponent
    scale_le := Nat.le_trans (Nat.sub_le _ _) decimal.size.scale_le }
  have split : (10 : ℚ) ^ decimal.size.scale = 10 ^ (decimal.size.scale - exponent) * 10 ^ exponent := by
    rw [← pow_add, Nat.sub_add_cancel spare]
  refine ⟨{ decimal with size := shorter }, Decimal.value_resized ?_⟩
  rw [Magnitude.value, Magnitude.value, split]
  field_simp
  exact mul_comm _ _

end LimitBook
