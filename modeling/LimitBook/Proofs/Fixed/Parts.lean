import LimitBook.Proofs.Fixed.Arithmetic
import Mathlib.Algebra.Order.Group.Unbundled.Int
import Mathlib.Tactic.Ring

/-! Fixed-point numbers from a whole part and a fraction. To make one of its parts and to read it from its text come to
the same, also where the text has more digits than a decimal number can hold. -/
namespace LimitBook

/-- A full magnitude with places stays large when it is rounded. -/
theorem Decimal.roundBy?_full {size : Magnitude} {digit : Nat} (small : digit ≤ 9) (placed : size.scale ≠ 0)
    (full : 0x1_0000_0000_0000_0000_0000_0000 ≤ size.digits * 10 + digit) :
    ∃ result : Magnitude, roundBy? size digit = some result
      ∧ 0x1000_0000_0000_0000_0000_0000 ≤ result.digits ∧ result.scale ≤ size.scale := by
  have few := size.scale_le
  have held := size.digits_lt
  unfold roundBy?
  split
  · unfold Magnitude.roundUp?
    split
    case isTrue room =>
      rw [Magnitude.ofDigits?, dif_pos ⟨room, few⟩]
      exact ⟨_, rfl, by change _ ≤ size.digits + 1; omega, Nat.le_refl _⟩
    case isFalse =>
      rw [Magnitude.ofDigits?, dif_pos ⟨by omega, by omega⟩]
      exact ⟨_, rfl, by change _ ≤ (size.digits + 5) / 10; omega, Nat.sub_le _ _⟩
  · exact ⟨size, rfl, by omega, Nat.le_refl _⟩

/-- Digits after the point that cannot all be held leave a magnitude of at least 2 to the 92nd, rounded where the room
ends. -/
theorem Decimal.scan_crowded {size : Magnitude} {started : Bool} {digits : List Char}
    (numeric : digits.all Char.isDigit = true)
    (few : size.scale + digits.length ≤ 28) (short : size.scale = 0 → size.digits < 0x1_0000_0000_0000_0000)
    (crowded : 0x1_0000_0000_0000_0000_0000_0000 ≤ Nat.ofDigitChars 10 digits size.digits) :
    ∃ result : Magnitude, scan size true started digits = some result
      ∧ 0x1000_0000_0000_0000_0000_0000 ≤ result.digits ∧ result.scale ≤ size.scale + digits.length := by
  induction digits generalizing size started with
  | nil => exact absurd size.digits_lt (Nat.not_lt.mpr crowded)
  | cons digit rest ih =>
    rw [List.all_cons, Bool.and_eq_true] at numeric
    rw [Nat.ofDigitChars_cons, Nat.mul_comm] at crowded
    rw [List.length_cons] at few ⊢
    have largest := Text.Numeral.digit_le numeric.1
    by_cases room : size.digits * 10 + (digit.toNat - '0'.toNat) < 0x1_0000_0000_0000_0000_0000_0000
    · let longer : Magnitude := ⟨_, size.scale + 1, room, by omega⟩
      have appended : append? size true (digit.toNat - '0'.toNat) = some longer := by
        simp only [append?, Magnitude.ofDigits?, if_true]
        rw [dif_pos ⟨room, by omega⟩]
      have later : ∃ result : Magnitude, scan longer true true rest = some result
          ∧ 0x1000_0000_0000_0000_0000_0000 ≤ result.digits ∧ result.scale ≤ size.scale + 1 + rest.length :=
        ih numeric.2 (by change size.scale + 1 + _ ≤ 28; omega) (fun none => absurd none (Nat.succ_ne_zero _)) crowded
      obtain ⟨result, scanned, large, placed⟩ := later
      exact ⟨result, by rw [scan_digit numeric.1 appended, scanned], large, by omega⟩
    · have refused : append? size true (digit.toNat - '0'.toNat) = none := by
        rw [append?, Magnitude.ofDigits?, dif_neg (fun fits => room fits.1)]
      have placed : size.scale ≠ 0 := fun none => by
        have := short none
        omega
      obtain ⟨result, rounded, large, kept⟩ := roundBy?_full largest placed (Nat.le_of_not_lt room)
      exact ⟨result, by rw [scan_last numeric.1 refused numeric.2, rounded], large, by omega⟩

namespace Fixed
open Text
variable {places : Nat} {whole : Int} {fraction : Nat}

def partsText (places : Nat) (whole : Int) (fraction : Nat) : List Char :=
  if places = 0 then (toString whole).toList else (toString whole).toList ++ '.' :: Numeral.padded places fraction

def joined (places : Nat) (whole : Int) (fraction : Nat) : Int :=
  if whole < 0 then whole * scale places - fraction else whole * scale places + fraction

structure Makes (raw : Int) (outcome : Except NumericError (Fixed places)) : Prop where
  succeeds : ∀ number, outcome = .ok number ↔ number.raw = raw
  fails : ¬ Fits raw → outcome = .error .overflow

private theorem makes_ofRaw (raw : Int) : Makes raw (ofRaw raw .overflow : Except NumericError (Fixed places)) :=
  ⟨fun _ => ofRaw_eq_ok_iff, ofRaw_of_not_fits⟩

private theorem scale_pos (places : Nat) : 0 < scale places := Int.natCast_pos.mpr (tenTo_pos places)

/-- A fraction does not bring back what the whole part alone puts out of reach. -/
theorem fits_of_joined (fits : Fits (joined places whole fraction)) : Fits (whole * scale places) := by
  have positive := scale_pos places
  unfold joined at fits
  split at fits
  case isTrue below =>
    have := Int.mul_neg_of_neg_of_pos below positive
    exact ⟨by have := fits.1; omega, by omega⟩
  case isFalse above =>
    have := Int.mul_nonneg (Int.not_lt.mp above) (Int.le_of_lt positive)
    exact ⟨by omega, by have := fits.2; omega⟩

private theorem ofParts_eq (less : fraction < tenTo places) :
    (ofParts whole fraction : Except NumericError (Fixed places)) = ofRaw (joined places whole fraction) .overflow := by
  have proper : ¬ scale places ≤ fraction := Int.not_le.mpr (Int.ofNat_lt.mpr less)
  rw [ofParts, if_neg proper, ofInteger]
  by_cases fits : Fits (whole * scale places)
  · rw [ofRaw_of_fits fits]
    rfl
  · rw [ofRaw_of_not_fits fits, ofRaw_of_not_fits (mt fits_of_joined fits)]
    rfl

private theorem magnitudeText_joined (less : fraction < tenTo places) (size : Nat) :
    magnitudeText places (size * tenTo places + fraction)
      = if places = 0 then Nat.toDigits 10 size else Nat.toDigits 10 size ++ '.' :: Numeral.padded places fraction := by
  have before : (size * tenTo places + fraction) / tenTo places = size := by
    rw [Nat.mul_comm, Nat.mul_add_div (tenTo_pos places), Nat.div_eq_of_lt less, Nat.add_zero]
  have after : (size * tenTo places + fraction) % tenTo places = fraction := by
    rw [Nat.mul_comm, Nat.mul_add_mod, Nat.mod_eq_of_lt less]
  rw [magnitudeText, before, after]

private theorem partsText_eq (less : fraction < tenTo places) : partsText places whole fraction
    = signedText (whole < 0) places (whole.natAbs * tenTo places + fraction) := by
  rw [signedText, magnitudeText_joined less, partsText, Numeral.toList_toString]
  simp only [decide_eq_true_eq]
  split <;> split <;> rfl

private theorem joined_eq : joined places whole fraction =
    if whole < 0 then -((whole.natAbs * tenTo places + fraction : Nat) : Int)
    else (whole.natAbs * tenTo places + fraction : Nat) := by
  unfold joined scale
  push_cast
  split
  case isTrue below =>
    rw [abs_of_neg below]
    ring
  case isFalse above => rw [abs_of_nonneg (Int.not_lt.mp above)]

/-- The digits of a whole part in a signed word and a fraction are scanned as they are, or what is scanned and what they
write are both out of reach. -/
theorem scan_joined {size : Nat} (few : places ≤ 18) (wide : size ≤ 0x8000_0000_0000_0000)
    (less : fraction < tenTo places) :
    ∃ result, Decimal.scan .zero false false (magnitudeText places (size * tenTo places + fraction)) = some result
      ∧ result.scale ≤ places ∧ (result.digits = size * tenTo places + fraction ∧ result.scale = places
        ∨ 0x1000_0000_0000_0000_0000_0000 ≤ result.digits
          ∧ 0x1_0000_0000_0000_0000_0000_0000 ≤ size * tenTo places + fraction) := by
  by_cases room : size * tenTo places + fraction < 0x1_0000_0000_0000_0000_0000_0000
  · let exact : Magnitude := ⟨_, places, room, by omega⟩
    exact ⟨exact, scan_magnitudeText exact rfl, Nat.le_refl _, .inl ⟨rfl, rfl⟩⟩
  · have crowded := Nat.le_of_not_lt room
    have some : places ≠ 0 := by
      rintro rfl
      change size * 1 + fraction ≥ _ at crowded
      change fraction < 1 at less
      omega
    let units : Magnitude := ⟨size, 0, by omega, by decide⟩
    have lost : (Numeral.padded places fraction).length = places := Numeral.length_padded (Nat.pos_of_ne_zero some) less
    have written : Nat.ofDigitChars 10 (Numeral.padded places fraction) units.digits
        = size * tenTo places + fraction := by
      rw [Numeral.ofDigitChars_padded, lost, Nat.mul_comm]
      rfl
    have after : ∃ result, Decimal.scan units true true (Numeral.padded places fraction) = .some result
        ∧ 0x1000_0000_0000_0000_0000_0000 ≤ result.digits
          ∧ result.scale ≤ 0 + (Numeral.padded places fraction).length :=
      Decimal.scan_crowded (Numeral.all_isDigit_padded places fraction) (by rw [lost]; change 0 + places ≤ 28; omega)
        (fun _ => by change size < _; omega) (written.symm ▸ crowded)
    obtain ⟨result, scanned, large, placed⟩ := after
    refine ⟨result, ?_, by omega, .inr ⟨large, crowded⟩⟩
    rw [magnitudeText_joined less, if_neg some]
    exact (scan_whole units rfl _).trans scanned

private theorem not_fits_of_large {size : Nat} (exponent : Nat) (large : 0x8000_0000_0000_0000 < size) :
    ¬ Fits ((if whole < 0 then -(size : Int) else size) * tenTo exponent) := by
  have grows : (size : Int) ≤ size * tenTo exponent := by exact_mod_cast Nat.le_mul_of_pos_right _ (tenTo_pos exponent)
  rintro ⟨lower, upper⟩
  split at lower
  case isTrue below =>
    rw [Int.neg_mul] at lower
    omega
  case isFalse above =>
    rw [if_neg above] at upper
    omega

/-- What the text of a whole part and a fraction reads as, also with fewer places in the text than are kept. -/
theorem read_partsText {shown : Nat} (few : shown ≤ 18) (within : shown ≤ places) (wide : Fits whole)
    (less : fraction < tenTo shown) :
    (read (partsText shown whole fraction) : Except NumericError (Fixed places))
      = ofRaw (joined shown whole fraction * tenTo (places - shown)) .overflow := by
  have narrow : whole.natAbs ≤ 0x8000_0000_0000_0000 := by
    have := wide.1
    have := wide.2
    omega
  obtain ⟨result, scanned, placed, held⟩ := scan_joined few narrow less
  have none : ([] : List Char).all isBlank = true := rfl
  have spelled : (read ([] ++ signedText (whole < 0) shown _ ++ []) : Except NumericError (Fixed places))
      = ofDecimal ⟨_, result⟩ :=
    read_signedText (whole < 0) none none scanned
  rw [List.nil_append, List.append_nil] at spelled
  rw [partsText_eq less, spelled, ofDecimal_of_le (Nat.le_trans placed within), joined_eq]
  simp only [Decimal.mantissa, decide_eq_true_eq]
  obtain ⟨digits, places⟩ | ⟨large, crowded⟩ := held
  · rw [digits, places]
  · rw [ofRaw_of_not_fits (not_fits_of_large _ (by omega)), ofRaw_of_not_fits (not_fits_of_large _ (by omega))]

/-- A number made of a whole part and a fraction is the one that their text reads as, and one made of a whole part alone
is the one that the whole part reads as. Either is the exact number wherever there is one, and an overflow elsewhere. -/
theorem parts_read_alike (few : places ≤ 18) (wide : Fits whole) :
    (∀ fraction, fraction < tenTo places →
      (ofParts whole fraction : Except NumericError (Fixed places)) = read (partsText places whole fraction)
      ∧ Makes (joined places whole fraction) (ofParts whole fraction : Except NumericError (Fixed places)))
    ∧ (ofInteger whole : Except NumericError (Fixed places)) = read (toString whole).toList
    ∧ Makes (whole * scale places) (ofInteger whole : Except NumericError (Fixed places)) := by
  refine ⟨fun fraction less => ?_, ?_, makes_ofRaw _⟩
  · have unmoved : (tenTo 0 : Int) = 1 := rfl
    rw [read_partsText few (Nat.le_refl places) wide less, ofParts_eq less, Nat.sub_self, unmoved, mul_one]
    exact ⟨rfl, makes_ofRaw _⟩
  · have alone : (toString whole).toList = partsText 0 whole 0 := rfl
    have bare : joined 0 whole 0 = whole := by
      unfold joined scale tenTo
      split <;> simp
    rw [alone, read_partsText (Nat.zero_le _) (Nat.zero_le places) wide (tenTo_pos 0), bare]
    rfl

/-- The least price there is, made of its parts and read. -/
theorem parts_read_alike_least :
    2 ≤ 18 ∧ Fits (-92233720368547758) ∧ 8 < tenTo 2
    ∧ partsText 2 (-92233720368547758) 8 = "-92233720368547758.08".toList
    ∧ (ofParts (-92233720368547758) 8 : Except NumericError Price) = read (partsText 2 (-92233720368547758) 8)
    ∧ (ofParts (-92233720368547758) 8 : Except NumericError Price) = .ok least := by
  have wide : Fits (-92233720368547758) := by decide
  have few : 2 ≤ 18 := by decide
  have less : 8 < tenTo 2 := by decide
  have made := (parts_read_alike few wide).1 8 less
  exact ⟨few, wide, less, by decide +kernel, made.1, (made.2.succeeds least).mpr (by decide)⟩

end Fixed
end LimitBook
