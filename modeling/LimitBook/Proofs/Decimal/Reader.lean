import LimitBook.Decimal.Reader
import LimitBook.Proofs.Text.Numeral

/-! Reading decimal numerals. -/
namespace LimitBook

theorem tenTo_pos (exponent : Nat) : 0 < tenTo exponent := Nat.pow_pos (by decide)

theorem Magnitude.ext {left right : Magnitude} (digits : left.digits = right.digits)
    (scale : left.scale = right.scale) :
    left = right := by
  cases left
  cases right
  simp_all

namespace Decimal
open Text
variable {size : Magnitude} {fractional started : Bool} {digit : Char} {digits rest : List Char}

theorem digit?_eq_some_iff {value : Nat} :
    Numeral.digit? digit = some value ↔ digit.isDigit = true ∧ digit.toNat - '0'.toNat = value := by
  rw [Numeral.digit?]
  split <;> simp_all

theorem scan_digit {longer : Magnitude} (numeric : digit.isDigit = true)
    (appended : append? size fractional (digit.toNat - '0'.toNat) = some longer) :
    scan size fractional started (digit :: rest) = scan longer fractional true rest := by
  have point : digit ≠ '.' := by
    rintro rfl
    cases numeric
  have underscore : digit ≠ '_' := by
    rintro rfl
    cases numeric
  simp only [scan, digit?_eq_some_iff.mpr ⟨numeric, rfl⟩, appended]

theorem scan_point : scan size false started ('.' :: rest) = scan size true started rest := rfl

/-- Digits that a magnitude can hold are all appended to it. -/
theorem scan_digits (longer : Magnitude) (numeric : digits.all Char.isDigit = true)
    (counted : longer.digits = Nat.ofDigitChars 10 digits size.digits)
    (placed : longer.scale = if fractional then size.scale + digits.length else size.scale) :
    scan size fractional started (digits ++ rest) = scan longer fractional (started || !digits.isEmpty) rest := by
  induction digits generalizing size started with
  | nil =>
    have same : longer = size := Magnitude.ext counted (by simpa using placed)
    simp [same]
  | cons digit others ih =>
    rw [List.all_cons, Bool.and_eq_true] at numeric
    rw [Nat.ofDigitChars_cons, Nat.mul_comm] at counted
    have grows : size.digits * 10 + (digit.toNat - '0'.toNat) ≤ longer.digits := by
      rw [counted, Nat.ofDigitChars_eq_ofDigitChars_zero]
      exact Nat.le_add_right_of_le (Nat.le_mul_of_pos_left _ (Nat.pow_pos (by decide)))
    have room : size.digits * 10 + (digit.toNat - '0'.toNat) < 0x1_0000_0000_0000_0000_0000_0000 :=
      Nat.lt_of_le_of_lt grows longer.digits_lt
    have places : (if fractional then size.scale + 1 else size.scale) ≤ 28 := by
      have least := longer.scale_le
      rw [placed, List.length_cons] at least
      cases fractional with
      | false => exact size.scale_le
      | true =>
        change size.scale + (others.length + 1) ≤ 28 at least
        change size.scale + 1 ≤ 28
        omega
    let middle : Magnitude := ⟨_, _, room, places⟩
    have appended : append? size fractional (digit.toNat - '0'.toNat) = some middle := by
      simp only [append?, Magnitude.ofDigits?, room, places, and_self, dif_pos, middle]
    have rescaled : longer.scale = if fractional then middle.scale + others.length else middle.scale := by
      rw [placed, List.length_cons]
      cases fractional
      · rfl
      · change size.scale + (others.length + 1) = size.scale + 1 + others.length
        omega
    have others : scan middle fractional true (others ++ rest)
        = scan longer fractional (true || !others.isEmpty) rest :=
      ih numeric.2 counted rescaled
    rw [List.cons_append, scan_digit numeric.1 appended]
    simpa using others

/-- Digits that scan as a magnitude read as a decimal number, negative with a minus sign before them. -/
theorem read?_signed (negative : Bool) {digits : List Char} {size : Magnitude}
    (numeric : ∃ digit rest, digits = digit :: rest ∧ digit.isDigit = true)
    (scanned : scan .zero false false digits = some size) :
    read? (if negative then '-' :: digits else digits) = some ⟨negative, size⟩ := by
  obtain ⟨digit, rest, rfl, leading⟩ := numeric
  have plain : readPlain? (if negative then '-' :: digit :: rest else digit :: rest) = some ⟨negative, size⟩ := by
    cases negative with
    | true => simp [readPlain?, scanned]
    | false =>
      simp only [Bool.false_eq_true, if_false]
      rw [readPlain?, scanned]
      · rfl
      · rintro others ⟨rfl, -⟩
        cases leading
      · rintro others ⟨rfl, -⟩
        cases leading
  rw [read?, plain]
  rfl

/-- A digit for which there is no room rounds the digits before it. -/
theorem scan_last (numeric : digit.isDigit = true) (refused : append? size true (digit.toNat - '0'.toNat) = none)
    (after : rest.all Char.isDigit = true) :
    scan size true started (digit :: rest) = roundBy? size (digit.toNat - '0'.toNat) := by
  have point : digit ≠ '.' := by
    rintro rfl
    cases numeric
  have underscore : digit ≠ '_' := by
    rintro rfl
    cases numeric
  have ignored : rest.all isIgnorable = true := List.all_eq_true.mpr fun other member => by
    rw [isIgnorable, List.all_eq_true.mp after other member]
    rfl
  simp only [scan, digit?_eq_some_iff.mpr ⟨numeric, rfl⟩, refused, ignored, Bool.true_and, if_true]

end Decimal
end LimitBook
