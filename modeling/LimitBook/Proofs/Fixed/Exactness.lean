import LimitBook.Fixed.Text
import LimitBook.Proofs.Decimal.Written
import Mathlib.Tactic.NormNum

/-! Whether a fixed-point number is the number that its text writes. The places are counted on the
decimal number that was read, where a digit that reading has rounded off no longer counts. -/
namespace LimitBook.Fixed
open Text Decimal
variable {places : Nat} {number : Fixed places}

private theorem value_ofDecimal {decimal : Decimal} (made : ofDecimal decimal = .ok number) :
    (number.raw : ℚ) / 10 ^ places = decimal.value := by
  unfold ofDecimal at made
  dsimp only at made
  split at made
  case isTrue whole =>
    have joined : number.raw * tenTo decimal.size.scale = decimal.mantissa * tenTo places := by
      rw [ofRaw_eq_ok_iff.mp made]
      exact Int.ediv_mul_cancel (Int.dvd_of_emod_eq_zero whole)
    rw [value, div_eq_div_iff (by positivity) (by positivity), ← cast_tenTo, ← cast_tenTo]
    exact_mod_cast joined
  case isFalse => cases made

/-- What is read is the number that the text writes exactly when there are decimal numbers for that
number and for the one before its exponent. Where the text has no exponent and no more than 28
digits, there always are. -/
theorem reads_as_written {text : List Char} (accepted : read text = .ok number) :
    ((number.raw : ℚ) / 10 ^ places = written (trim text)
      ↔ Representable (significand (trim text)) ∧ Representable (written (trim text)))
    ∧ ((trim text).any isExponentMark = false → ((trim text).filter Char.isDigit).length ≤ 28 →
      (number.raw : ℚ) / 10 ^ places = written (trim text)) := by
  unfold read at accepted
  split at accepted
  case h_1 => cases accepted
  case h_2 decimal found =>
    rw [value_ofDecimal accepted]
    refine ⟨value_read? found, fun unmarked few => (value_read? found).mpr ?_⟩
    rw [significand_eq unmarked, written_eq unmarked]
    exact ⟨representable_plain few, representable_plain few⟩

def spaced : List Char := "\t-0_012.340_0 ".toList

theorem reads_as_written_spaced :
    read spaced = .ok (⟨-1234, by decide, by decide⟩ : Price)
    ∧ (trim spaced).any isExponentMark = false ∧ ((trim spaced).filter Char.isDigit).length ≤ 28
    ∧ ((-1234 : Int) : ℚ) / 10 ^ 2 = written (trim spaced) := by
  have accepted : read spaced = .ok (⟨-1234, by decide, by decide⟩ : Price) := by decide +kernel
  have unmarked : (trim spaced).any isExponentMark = false := by decide +kernel
  have few : ((trim spaced).filter Char.isDigit).length ≤ 28 := by decide +kernel
  exact ⟨accepted, unmarked, few, (reads_as_written accepted).2 unmarked few⟩

/-- Twenty-nine places, of which the last is rounded off before the places are counted. -/
def overlong : List Char := "1.00000000000000000000000000004".toList

/-- A price with more than two places is read as one with two. -/
theorem overlong_is_altered :
    read overlong = .ok (⟨100, by decide, by decide⟩ : Price) ∧ written (trim overlong) = 1 + 4 / 10 ^ 29
    ∧ ((100 : Int) : ℚ) / 10 ^ 2 ≠ written (trim overlong) := by
  have unmarked : (trim overlong).any isExponentMark = false := by decide +kernel
  have digits : digitsIn (trim overlong) = 100000000000000000000000000004 := by decide +kernel
  have after : placesIn (trim overlong) = 29 := by decide +kernel
  have positive : (trim overlong).head? ≠ some '-' := by decide +kernel
  have meant : written (trim overlong) = 1 + 4 / 10 ^ 29 := by
    rw [written_eq unmarked, plain, signed, if_neg positive, digits, after]
    norm_num
  refine ⟨by decide +kernel, meant, ?_⟩
  rw [meant]
  norm_num

end LimitBook.Fixed
