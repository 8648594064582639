import LimitBook.Proofs.Decimal.Value
import Mathlib.Data.List.TakeWhile
import Mathlib.Data.Option.Basic

/-! The number that a numeral writes, taken from its digits, its point and its exponent alone, and
what reading makes of it. -/
namespace LimitBook.Decimal
open Text

def digitsIn (text : List Char) : Nat := Nat.ofDigitChars 10 (text.filter Char.isDigit) 0

def placesIn (text : List Char) : Nat := ((text.dropWhile (· != '.')).filter Char.isDigit).length

def signed {α : Type} [Neg α] (text : List Char) (size : α) : α := if text.head? = some '-' then -size else size

def plain (text : List Char) : ℚ := signed text (digitsIn text / 10 ^ placesIn text)

def significand (text : List Char) : ℚ := plain (text.takeWhile fun character => !isExponentMark character)

def exponent (text : List Char) : Int :=
  match text.dropWhile (fun character => !isExponentMark character) with
  | [] => 0
  | _ :: rest => signed rest (digitsIn rest)

def written (text : List Char) : ℚ := significand text * 10 ^ exponent text

section Scan
variable {size result : Magnitude} {fractional started : Bool} {digit : Char} {rest : List Char}

def continued (size : Magnitude) (fractional : Bool) (rest : List Char) : ℚ :=
  (Nat.ofDigitChars 10 (rest.filter Char.isDigit) size.digits : ℚ)
    / 10 ^ (size.scale + if fractional then (rest.filter Char.isDigit).length else placesIn rest)

private theorem continued_nil : continued size fractional [] = size.value := by
  cases fractional <;> rfl

private theorem continued_point : continued size false ('.' :: rest) = continued size true rest := by
  simp [continued, placesIn]

private theorem continued_underscore : continued size fractional ('_' :: rest) = continued size fractional rest := by
  simp [continued, placesIn]

private theorem continued_digit {longer : Magnitude} (numeric : digit.isDigit = true)
    (appended : append? size fractional (digit.toNat - '0'.toNat) = some longer) :
    continued size fractional (digit :: rest) = continued longer fractional rest := by
  obtain ⟨digits, scale⟩ := Magnitude.ofDigits?_eq_some appended
  have solid : (digit != '.') = true := by
    rw [bne_iff_ne]
    rintro rfl
    cases numeric
  rw [continued, continued, digits, scale, List.filter_cons_of_pos numeric, Nat.ofDigitChars_cons, Nat.mul_comm 10]
  cases fractional
  · simp [placesIn, solid]
  · simp only [if_true, List.length_cons]
    rw [Nat.add_assoc, Nat.add_comm 1]

private theorem continued_eq_add (size : Magnitude) (rest : List Char) : continued size true rest
    = (size.digits * 10 ^ (rest.filter Char.isDigit).length + digitsIn rest : Nat)
      / 10 ^ (size.scale + (rest.filter Char.isDigit).length) := by
  rw [continued, Nat.ofDigitChars_eq_ofDigitChars_zero, digitsIn, Nat.mul_comm]
  rfl

private theorem digitsIn_digit (numeric : digit.isDigit = true) :
    digitsIn (digit :: rest) = 10 ^ (rest.filter Char.isDigit).length * (digit.toNat - '0'.toNat) + digitsIn rest := by
  rw [digitsIn, List.filter_cons_of_pos numeric, Nat.ofDigitChars_cons, Nat.ofDigitChars_eq_ofDigitChars_zero,
    Nat.mul_zero, Nat.zero_add, digitsIn]

private theorem digitsIn_lt (text : List Char) : digitsIn text < 10 ^ (text.filter Char.isDigit).length :=
  Numeral.ofDigitChars_lt (by simp)

/-- Digits for which there is no room do not count when the number has a magnitude. -/
theorem digitsIn_eq_zero (exact : ∃ target : Magnitude, target.value = continued size true rest)
    (full : size.scale = 28 ∨ 0x1_0000_0000_0000_0000_0000_0000 * 10 ^ (rest.filter Char.isDigit).length
      ≤ 10 * (size.digits * 10 ^ (rest.filter Char.isDigit).length + digitsIn rest)) : digitsIn rest = 0 := by
  obtain ⟨target, meant⟩ := exact
  rw [continued_eq_add, Magnitude.value_eq_div_iff] at meant
  exact Magnitude.lost_eq_zero meant.symm (digitsIn_lt rest) target.digits_lt target.scale_le full

private theorem continued_eq_value (none : digitsIn rest = 0) : continued size true rest = size.value := by
  rw [continued_eq_add, none, eq_comm, Magnitude.value_eq_div_iff, Nat.pow_add, Nat.add_zero]
  ring

/-- A digit for which there is no room either is one place too many or makes the digits too many. -/
theorem full_of_append?_eq_none (numeric : digit.isDigit = true)
    (refused : append? size true (digit.toNat - '0'.toNat) = none) :
    size.scale = 28 ∨ 0x1_0000_0000_0000_0000_0000_0000 * 10 ^ ((digit :: rest).filter Char.isDigit).length
      ≤ 10 * (size.digits * 10 ^ ((digit :: rest).filter Char.isDigit).length + digitsIn (digit :: rest)) := by
  by_cases last : size.scale = 28
  · exact .inl last
  · right
    have few := size.scale_le
    have crowded : 0x1_0000_0000_0000_0000_0000_0000 ≤ size.digits * 10 + (digit.toNat - '0'.toNat) := by
      by_contra room
      simp only [append?, Magnitude.ofDigits?, if_true] at refused
      rw [dif_pos ⟨Nat.lt_of_not_le room, by omega⟩] at refused
      cases refused
    rw [digitsIn_digit numeric, List.filter_cons_of_pos numeric, List.length_cons]
    generalize (rest.filter Char.isDigit).length = width
    calc 0x1_0000_0000_0000_0000_0000_0000 * 10 ^ (width + 1)
        ≤ (size.digits * 10 + (digit.toNat - '0'.toNat)) * 10 ^ (width + 1) := Nat.mul_le_mul_right _ crowded
      _ = 10 * (size.digits * 10 ^ (width + 1) + 10 ^ width * (digit.toNat - '0'.toNat)) := by ring
      _ ≤ _ := Nat.mul_le_mul_left _ (by omega)

/-- What is scanned is the number that the text writes, unless no magnitude is that number. -/
theorem scan_value (unplaced : fractional = false → size.scale = 0)
    (scanned : scan size fractional started rest = some result)
    (exact : ∃ target : Magnitude, target.value = continued size fractional rest) :
    result.value = continued size fractional rest := by
  fun_induction scan size fractional started rest with
  | case1 =>
    cases scanned
    exact continued_nil.symm
  | case4 size fractional started rest before ih =>
    rw [Bool.not_eq_true] at before
    subst before
    rw [continued_point] at exact ⊢
    exact ih nofun scanned exact
  | case6 size fractional started rest _ full _ =>
    rw [isFull, Bool.and_eq_true, beq_iff_eq] at full
    cases scanned
    cases fractional with
    | false => exact absurd (unplaced rfl) (by omega)
    | true =>
      rw [continued_underscore] at exact ⊢
      exact (continued_eq_value (digitsIn_eq_zero exact (.inl full.1))).symm
  | case8 size fractional started rest _ _ ih =>
    rw [continued_underscore] at exact ⊢
    exact ih unplaced scanned exact
  | case10 size fractional started character rest _ _ digit found longer appended ih =>
    obtain ⟨numeric, rfl⟩ := digit?_eq_some_iff.mp found
    obtain ⟨-, scale⟩ := Magnitude.ofDigits?_eq_some appended
    rw [continued_digit numeric appended] at exact ⊢
    refine ih (fun before => ?_) scanned exact
    rw [scale, before, unplaced before]
    rfl
  | case11 size fractional started character rest _ _ digit found refused after =>
    obtain ⟨numeric, rfl⟩ := digit?_eq_some_iff.mp found
    rw [Bool.and_eq_true] at after
    obtain ⟨rfl, -⟩ := after
    have none := digitsIn_eq_zero exact (full_of_append?_eq_none numeric refused)
    have zero : character.toNat - '0'.toNat = 0 := by
      rw [digitsIn_digit numeric] at none
      have product := Nat.eq_zero_of_add_eq_zero_right none
      exact (Nat.mul_eq_zero.mp product).resolve_left (Nat.ne_of_gt (Nat.pow_pos (by decide)))
    rw [zero] at scanned
    cases scanned
    exact (continued_eq_value none).symm
  | _ => cases scanned

private theorem not_isExponentMark_of_isDigit (numeric : digit.isDigit = true) : isExponentMark digit = false := by
  rw [isExponentMark, Bool.or_eq_false_iff, beq_eq_false_iff_ne, beq_eq_false_iff_ne]
  constructor <;> rintro rfl <;> cases numeric

private theorem not_isExponentMark_of_isIgnorable (ignored : isIgnorable digit = true) :
    isExponentMark digit = false := by
  rw [isIgnorable, Bool.or_eq_true, beq_iff_eq] at ignored
  obtain numeric | rfl := ignored
  · exact not_isExponentMark_of_isDigit numeric
  · decide

/-- What is scanned has no exponent. -/
theorem unmarked_of_scan (scanned : scan size fractional started rest = some result) :
    rest.any isExponentMark = false := by
  have ignored : ∀ rest : List Char, rest.all isIgnorable = true → rest.any isExponentMark = false := fun rest all =>
    List.any_eq_false.mpr fun character member => by
      simp [not_isExponentMark_of_isIgnorable (List.all_eq_true.mp all character member)]
  fun_induction scan size fractional started rest with
  | case1 => rfl
  | case4 _ _ _ _ _ ih => exact ih scanned
  | case6 _ _ _ _ _ _ after => exact ignored _ after
  | case8 _ _ _ _ _ _ ih => exact ih scanned
  | case10 _ _ _ _ _ _ _ _ found _ _ ih =>
    rw [List.any_cons, not_isExponentMark_of_isDigit (digit?_eq_some_iff.mp found).1, ih scanned]
    rfl
  | case11 _ _ _ _ _ _ _ _ found _ after =>
    rw [Bool.and_eq_true] at after
    rw [List.any_cons, not_isExponentMark_of_isDigit (digit?_eq_some_iff.mp found).1, ignored _ after.2]
    rfl
  | _ => cases scanned

end Scan

section Read
variable {text : List Char} {decimal : Decimal}

private theorem abs_signed (text : List Char) (size : ℚ) : |signed text size| = |size| := by
  rw [signed]
  split
  · exact abs_neg size
  · rfl

private theorem signed_of_unsigned {α : Type} [Neg α] {size : α} (unsigned : ∀ rest, text = '-' :: rest → False) :
    signed text size = size := by
  have positive : text.head? ≠ some '-' := by
    intro minus
    obtain ⟨rest, spelled⟩ := List.head?_eq_some_iff.mp minus
    exact unsigned rest spelled
  rw [signed, if_neg positive]

/-- The digits behind the sign are scanned, and the sign is that of the number that is read. -/
theorem readPlain?_eq_some (read : readPlain? text = some decimal) : ∃ sign digits, text = sign ++ digits
    ∧ sign.any isExponentMark = false ∧ scan .zero false false digits = some decimal.size
    ∧ plain text = signed text (continued .zero false digits) ∧ decimal.value = signed text decimal.size.value := by
  unfold readPlain? at read
  split at read
  case h_1 rest =>
    obtain ⟨size, scanned, rfl⟩ := Option.map_eq_some_iff.mp read
    refine ⟨['-'], rest, rfl, by decide, scanned, ?_, ?_⟩
    · simp [plain, continued, digitsIn, placesIn, Magnitude.zero]
    · simp [value_eq, signed]
  case h_2 rest =>
    obtain ⟨size, scanned, rfl⟩ := Option.map_eq_some_iff.mp read
    refine ⟨['+'], rest, rfl, by decide, scanned, ?_, ?_⟩
    · simp [plain, continued, digitsIn, placesIn, Magnitude.zero]
    · simp [value_eq, signed]
  case h_3 unsigned _ =>
    obtain ⟨size, scanned, rfl⟩ := Option.map_eq_some_iff.mp read
    refine ⟨[], text, rfl, rfl, scanned, ?_, ?_⟩
    · simp [plain, continued, digitsIn, placesIn, Magnitude.zero]
    · rw [signed_of_unsigned unsigned, value_eq]
      rfl

/-- There is a decimal number for everything that is written with no more than 28 digits. -/
theorem representable_plain (few : (text.filter Char.isDigit).length ≤ 28) : Representable (plain text) := by
  have places : placesIn text ≤ 28 := Nat.le_trans ((List.dropWhile_sublist _).filter _).length_le few
  have room : digitsIn text < 0x1_0000_0000_0000_0000_0000_0000 :=
    Nat.lt_trans (Nat.lt_of_lt_of_le (digitsIn_lt text) (Nat.pow_le_pow_right (by decide) few)) (by decide)
  refine representable_iff.mpr ⟨⟨digitsIn text, placesIn text, room, places⟩, ?_⟩
  rw [plain, abs_signed, abs_of_nonneg (by positivity)]
  rfl

private theorem value_readPlain? (read : readPlain? text = some decimal) :
    decimal.value = plain text ↔ Representable (plain text) := by
  obtain ⟨sign, digits, -, -, scanned, meant, kept⟩ := readPlain?_eq_some read
  refine ⟨fun same => ⟨decimal, same⟩, fun held => ?_⟩
  have positive : 0 ≤ continued .zero false digits := by
    rw [continued]
    positivity
  rw [representable_iff, meant, abs_signed, abs_of_nonneg positive] at held
  rw [kept, meant, scan_value (fun _ => rfl) scanned held]

private theorem unmarked_of_readPlain? (read : readPlain? text = some decimal) : text.any isExponentMark = false := by
  obtain ⟨sign, digits, rfl, clean, scanned, -, -⟩ := readPlain?_eq_some read
  rw [List.any_append, clean, unmarked_of_scan scanned]
  rfl

private theorem digitsIn_of_ofDigits? {number : Nat} (read : Numeral.ofDigits? text = some number) :
    digitsIn text = number := by
  unfold Numeral.ofDigits? at read
  split at read
  case isTrue numeric =>
    cases read
    rw [digitsIn, List.filter_eq_self.mpr (List.all_eq_true.mp numeric.2)]
  case isFalse => cases read

private theorem digitsIn_of_readExponent? {exponent : Nat} (read : readExponent? text = some exponent) :
    digitsIn text = exponent := by
  have whole := (Option.filter_eq_some_iff.mp read).1
  unfold Numeral.read? at whole
  split at whole
  · rw [← digitsIn_of_ofDigits? whole]
    rfl
  · exact digitsIn_of_ofDigits? whole

private theorem value_lowered {size : Magnitude} {number : ℚ} {exponent : Nat}
    (resized : decimal.size.scaleDown? exponent = some size) (exact : decimal.value = number ↔ Representable number) :
    ({ decimal with size } : Decimal).value = number * 10 ^ (-(exponent : Int))
      ↔ Representable number ∧ Representable (number * 10 ^ (-(exponent : Int))) := by
  constructor
  · intro same
    refine ⟨?_, _, same⟩
    have back : number = ({ decimal with size } : Decimal).value * 10 ^ exponent := by
      rw [same, zpow_neg, zpow_natCast]
      field_simp
    rw [back]
    exact Decimal.representable_mul _ (Magnitude.le_scale_of_scaleDown? resized)
  · rintro ⟨before, after⟩
    rw [← exact.mpr before] at after ⊢
    refine Decimal.value_resized ?_
    rw [zpow_neg, zpow_natCast, ← div_eq_mul_inv] at after ⊢
    refine Magnitude.value_scaleDown? resized ?_
    obtain ⟨target, meant⟩ := representable_iff.mp after
    exact ⟨target, by rw [meant, abs_div, decimal.abs_value, abs_of_pos (by positivity)]⟩

private theorem value_raised {size : Magnitude} {number : ℚ} {exponent : Nat}
    (resized : decimal.size.scaleUp? exponent = some size) (exact : decimal.value = number ↔ Representable number) :
    ({ decimal with size } : Decimal).value = number * 10 ^ (exponent : Int)
      ↔ Representable number ∧ Representable (number * 10 ^ (exponent : Int)) := by
  have grown : ({ decimal with size } : Decimal).value = decimal.value * 10 ^ exponent :=
    Decimal.value_resized (Magnitude.value_scaleUp? resized)
  rw [zpow_natCast]
  constructor
  · intro same
    rw [grown] at same
    have before := mul_right_cancel₀ (by positivity) same
    exact ⟨exact.mp before, _, before ▸ grown⟩
  · rintro ⟨before, -⟩
    rw [grown, exact.mpr before]

/-- What an exponent makes of a number is what it writes, as long as there are decimal numbers for the
numbers before and after it. -/
theorem value_scaleBy? {scaled : Decimal} {number : ℚ} (moved : decimal.scaleBy? text = some scaled)
    (exact : decimal.value = number ↔ Representable number) :
    scaled.value = number * 10 ^ signed text (digitsIn text : Int)
      ↔ Representable number ∧ Representable (number * 10 ^ signed text (digitsIn text : Int)) := by
  unfold scaleBy? at moved
  split at moved
  case h_1 digits =>
    obtain ⟨exponent, read, moved⟩ := Option.bind_eq_some_iff.mp moved
    obtain ⟨size, resized, moved⟩ := Option.bind_eq_some_iff.mp moved
    cases moved
    have power : signed ('-' :: digits) (digitsIn ('-' :: digits) : Int) = -(exponent : Int) := by
      rw [← digitsIn_of_readExponent? read]
      rfl
    rw [power]
    exact value_lowered resized exact
  case h_2 unsigned =>
    obtain ⟨exponent, read, moved⟩ := Option.bind_eq_some_iff.mp moved
    obtain ⟨size, resized, moved⟩ := Option.bind_eq_some_iff.mp moved
    cases moved
    have power : signed text (digitsIn text : Int) = exponent := by
      rw [signed_of_unsigned unsigned, digitsIn_of_readExponent? read]
    rw [power]
    exact value_raised resized exact

theorem significand_eq (unmarked : text.any isExponentMark = false) : significand text = plain text := by
  rw [significand, List.takeWhile_eq_self_iff.mpr (by simpa using unmarked)]

theorem written_eq (unmarked : text.any isExponentMark = false) : written text = plain text := by
  rw [written, significand_eq unmarked, exponent, List.dropWhile_eq_nil_iff.mpr (by simpa using unmarked),
    zpow_zero, mul_one]

/-- What is read is the number that the text writes exactly when there are decimal numbers for it and
for the number before its exponent. -/
theorem value_read? (read : read? text = some decimal) :
    decimal.value = written text ↔ Representable (significand text) ∧ Representable (written text) := by
  obtain whole | ⟨-, scientific⟩ := (Option.orElse_eq_some _ _ _).mp read
  · have unmarked := unmarked_of_readPlain? whole
    rw [significand_eq unmarked, written_eq unmarked, and_self]
    exact value_readPlain? whole
  · unfold readScientific? at scientific
    split at scientific
    case h_1 => cases scientific
    case h_2 mark rest dropped =>
      obtain ⟨before, whole, moved⟩ := Option.bind_eq_some_iff.mp scientific
      have power : exponent text = signed rest (digitsIn rest : Int) := by
        rw [exponent, dropped]
      rw [written, power]
      exact value_scaleBy? moved (value_readPlain? whole)

end Read
end LimitBook.Decimal
