import LimitBook.Fixed.Text
import LimitBook.Proofs.Decimal.Reader

/-! The text of a fixed-point number reads back as the number, whatever blanks stand around it. So
two numbers with one text are one number, and what is read from a text is read from its own text. -/
namespace LimitBook.Fixed
open Text
variable {places : Nat}

private theorem magnitudeText_eq_cons (places size : Nat) :
    ∃ digit rest, magnitudeText places size = digit :: rest ∧ digit.isDigit = true := by
  have filled : Nat.toDigits 10 (size / tenTo places) ≠ [] := Nat.toDigits_ne_nil
  obtain ⟨digit, rest, whole⟩ := List.exists_cons_of_ne_nil filled
  have numeric := Numeral.all_isDigit_toDigits (size / tenTo places)
  rw [whole, List.all_cons, Bool.and_eq_true] at numeric
  simp only [magnitudeText, whole]
  split
  · exact ⟨digit, rest, rfl, numeric.1⟩
  · exact ⟨digit, _, rfl, numeric.1⟩

private theorem solid_magnitudeText (places size : Nat) :
    (magnitudeText places size).all (fun character => !isBlank character) = true := by
  have whole := solid_of_all_isDigit (Numeral.all_isDigit_toDigits (size / tenTo places))
  have after := solid_of_all_isDigit (Numeral.all_isDigit_padded places (size % tenTo places))
  simp only [magnitudeText]
  split
  · exact whole
  · rw [List.all_append, List.all_cons, whole, after]
    decide

/-- The digits of a whole number are scanned as they are, whatever follows them. -/
theorem scan_whole (units : Magnitude) (unplaced : units.scale = 0) (rest : List Char) :
    Decimal.scan .zero false false (Nat.toDigits 10 units.digits ++ rest) = Decimal.scan units false true rest := by
  have filled : (Nat.toDigits 10 units.digits).isEmpty = false := by simp
  have counted : units.digits = Nat.ofDigitChars 10 (Nat.toDigits 10 units.digits) 0 :=
    Nat.ofDigitChars_ten_toDigits.symm
  have scanned : Decimal.scan .zero false false (Nat.toDigits 10 units.digits ++ rest)
      = Decimal.scan units false (false || !(Nat.toDigits 10 units.digits).isEmpty) rest :=
    Decimal.scan_digits units (Numeral.all_isDigit_toDigits _) counted unplaced
  rw [scanned, filled]
  rfl

/-- The digits of a magnitude scan back as the magnitude: first its whole part, then its places. -/
theorem scan_magnitudeText (size : Magnitude) (placed : size.scale = places) :
    Decimal.scan .zero false false (magnitudeText places size.digits) = some size := by
  let units : Magnitude :=
    ⟨size.digits / tenTo places, 0, Nat.lt_of_le_of_lt (Nat.div_le_self _ _) size.digits_lt, by decide⟩
  have scanned : ∀ rest, Decimal.scan .zero false false (Nat.toDigits 10 (size.digits / tenTo places) ++ rest)
      = Decimal.scan units false true rest := scan_whole units rfl
  rw [magnitudeText]
  split
  case isTrue none =>
    have same : units = size := Magnitude.ext (by simp [units, none, tenTo]) (by simp [units, placed, none])
    rw [← List.append_nil (Nat.toDigits 10 _), scanned, same]
    rfl
  case isFalse some =>
    have lost : (Numeral.padded places (size.digits % tenTo places)).length = places :=
      Numeral.length_padded (Nat.pos_of_ne_zero some) (Nat.mod_lt _ (tenTo_pos places))
    have joined : size.digits
        = Nat.ofDigitChars 10 (Numeral.padded places (size.digits % tenTo places)) units.digits := by
      rw [Numeral.ofDigitChars_padded, lost]
      exact (Nat.div_add_mod _ _).symm
    rw [scanned, Decimal.scan_point, ← List.append_nil (Numeral.padded _ _),
      Decimal.scan_digits size (Numeral.all_isDigit_padded _ _) joined (by simp [units, placed, lost])]
    rfl

def signedText (negative : Bool) (places size : Nat) : List Char :=
  if negative then '-' :: magnitudeText places size else magnitudeText places size

theorem characters_eq (number : Fixed places) :
    number.characters = signedText (number.raw < 0) places number.raw.natAbs := by
  simp only [characters, signedText, decide_eq_true_eq]

theorem signedText_ne_nil (negative : Bool) (places size : Nat) : signedText negative places size ≠ [] := by
  obtain ⟨digit, rest, spelled, -⟩ := magnitudeText_eq_cons places size
  rw [signedText, spelled]
  split <;> simp

theorem solid_signedText (negative : Bool) (places size : Nat) :
    (signedText negative places size).all (fun character => !isBlank character) = true := by
  have solid := solid_magnitudeText places size
  rw [signedText]
  split
  · rw [List.all_cons, solid]
    decide
  · exact solid

/-- What is read from digits and a sign is what the digits scan as, whatever blanks stand around them. -/
theorem read_signedText {shown size : Nat} {result : Magnitude} {before after : List Char} (negative : Bool)
    (leading : before.all isBlank = true) (trailing : after.all isBlank = true)
    (scanned : Decimal.scan .zero false false (magnitudeText shown size) = some result) :
    (read (before ++ signedText negative shown size ++ after) : Except NumericError (Fixed places))
      = ofDecimal ⟨negative, result⟩ := by
  have decimal : Decimal.read? (signedText negative shown size) = some ⟨negative, result⟩ :=
    Decimal.read?_signed negative (magnitudeText_eq_cons shown size) scanned
  rw [read, trim_between leading trailing (signedText_ne_nil negative shown size)
    (solid_signedText negative shown size), decimal]

private theorem tenTo_add (left right : Nat) : tenTo (left + right) = tenTo left * tenTo right :=
  Nat.pow_add 10 left right

/-- A decimal number with no more places than are kept only has its point moved. -/
theorem ofDecimal_of_le {decimal : Decimal} (few : decimal.size.scale ≤ places) :
    (ofDecimal decimal : Except NumericError (Fixed places))
      = ofRaw (decimal.mantissa * tenTo (places - decimal.size.scale)) .overflow := by
  have positive : (tenTo decimal.size.scale : Int) ≠ 0 := by exact_mod_cast Nat.ne_of_gt (tenTo_pos _)
  have power : scale places = (tenTo (places - decimal.size.scale) : Int) * tenTo decimal.size.scale := by
    rw [← Int.natCast_mul, ← tenTo_add, Nat.sub_add_cancel few]
    rfl
  simp only [ofDecimal, power]
  rw [← Int.mul_assoc, Int.mul_emod_left, if_pos rfl, Int.mul_ediv_cancel _ positive]

def toDecimal (number : Fixed places) (few : places ≤ 18) : Decimal where
  negative := number.raw < 0
  size := ⟨number.raw.natAbs, places, by have := number.lower; have := number.upper; omega, by omega⟩

private theorem mantissa_toDecimal (number : Fixed places) (few : places ≤ 18) :
    (number.toDecimal few).mantissa = number.raw := by
  simp only [Decimal.mantissa, toDecimal, decide_eq_true_eq]
  split <;> omega

private theorem ofDecimal_toDecimal (number : Fixed places) (few : places ≤ 18) :
    ofDecimal (number.toDecimal few) = .ok number := by
  have placed : (number.toDecimal few).size.scale = places := rfl
  have unmoved : (tenTo 0 : Int) = 1 := rfl
  rw [ofDecimal_of_le (Nat.le_of_eq placed), mantissa_toDecimal, placed, Nat.sub_self, unmoved, Int.mul_one,
    ofRaw_eq_ok_iff]

private theorem read_between (number : Fixed places) (few : places ≤ 18) (before after : List Char)
    (leading : before.all isBlank = true)
    (trailing : after.all isBlank = true) : read (before ++ number.text.toList ++ after) = .ok number := by
  have scanned : Decimal.scan .zero false false (magnitudeText places number.raw.natAbs)
      = some (number.toDecimal few).size :=
    scan_magnitudeText (number.toDecimal few).size rfl
  rw [text, String.toList_ofList, characters_eq, read_signedText _ leading trailing scanned]
  exact ofDecimal_toDecimal number few

theorem read_text (number : Fixed places) (few : places ≤ 18) : read number.text.toList = .ok number := by
  simpa using read_between number few [] [] rfl rfl

/-- The text of a number reads back as the number, with any blanks around it. No two numbers have one
text, and what a text reads as is also what its own text reads as. -/
theorem text_reads_back (few : places ≤ 18) :
    (∀ (number : Fixed places) (before after : List Char), before.all isBlank = true → after.all isBlank = true →
      read (before ++ number.text.toList ++ after) = .ok number)
    ∧ Function.Injective (text : Fixed places → String)
    ∧ ∀ (characters : List Char) (number : Fixed places), read characters = .ok number →
      read number.text.toList = .ok number := by
  refine ⟨fun number => read_between number few, ?_, fun _ number _ => read_text number few⟩
  intro one other same
  have read_one := read_text one few
  rw [same, read_text other few] at read_one
  exact (Except.ok.inj read_one).symm

def least : Fixed places := ⟨-0x8000_0000_0000_0000, by decide, by decide⟩

/-- The least number with eighteen places reads back between blanks of three kinds. -/
theorem text_reads_back_least :
    18 ≤ 18 ∧ ['\t', '\u2003'].all isBlank = true ∧ ['\n'].all isBlank = true
    ∧ (least : Fixed 18).text = "-9.223372036854775808"
    ∧ read (['\t', '\u2003'] ++ (least : Fixed 18).text.toList ++ ['\n']) = .ok (least : Fixed 18) :=
  ⟨by decide, by decide, by decide, by decide +kernel,
    (text_reads_back (by decide)).1 (least : Fixed 18) ['\t', '\u2003'] ['\n'] (by decide) (by decide)⟩

end LimitBook.Fixed
