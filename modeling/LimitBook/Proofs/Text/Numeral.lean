import LimitBook.Text.Numeral
import LimitBook.Text.Blank
import Mathlib.Algebra.Ring.Nat

/-! Runs of digits: what they count, how long they are, and that the blanks around a text do not belong to it. -/
namespace LimitBook.Text

/-- A run of characters ends where the text after it begins with another kind of character. -/
theorem span_run {kept : Char → Bool} {run rest : List Char} (all : run.all kept = true)
    (ended : rest.head?.all (fun next => !kept next) = true) :
    (run ++ rest).takeWhile kept = run ∧ (run ++ rest).dropWhile kept = rest := by
  rw [List.takeWhile_append_of_pos (List.all_eq_true.mp all), List.dropWhile_append_of_pos (List.all_eq_true.mp all)]
  cases rest with
  | nil => simp
  | cons next later => simp_all

private theorem dropWhile_blanks {before text after : List Char} (leading : before.all isBlank = true)
    (filled : text ≠ []) (solid : text.all (fun character => !isBlank character) = true) :
    (before ++ (text ++ after)).dropWhile isBlank = text ++ after := by
  obtain ⟨first, rest, rfl⟩ := List.exists_cons_of_ne_nil filled
  have visible : isBlank first = false := by simpa using List.all_eq_true.mp solid first List.mem_cons_self
  rw [List.dropWhile_append_of_pos (List.all_eq_true.mp leading), List.cons_append,
    List.dropWhile_cons_of_neg (by simp [visible])]

/-- Blanks around a text without any are trimmed off. -/
theorem trim_between {before text after : List Char} (leading : before.all isBlank = true)
    (trailing : after.all isBlank = true)
    (filled : text ≠ []) (solid : text.all (fun character => !isBlank character) = true) :
    trim (before ++ text ++ after) = text := by
  have backwards : (after.reverse ++ (text.reverse ++ [])).dropWhile isBlank = text.reverse ++ [] :=
    dropWhile_blanks (by rwa [List.all_reverse]) (by simpa using filled) (by rwa [List.all_reverse])
  rw [List.append_nil, ← List.reverse_append] at backwards
  rw [trim, List.append_assoc, dropWhile_blanks leading filled solid, backwards, List.reverse_reverse]

private theorem not_isBlank_of_isDigit {digit : Char} (numeric : digit.isDigit = true) : isBlank digit = false := by
  have bounds := Char.isDigit_iff_toNat.mp numeric
  have least : '0'.toNat = 48 := rfl
  have greatest : '9'.toNat = 57 := rfl
  simp only [isBlank, Bool.or_eq_false_iff, Bool.and_eq_false_iff, decide_eq_false_iff_not, beq_eq_false_iff_ne]
  omega

theorem solid_of_all_isDigit {digits : List Char} (numeric : digits.all Char.isDigit = true) :
    digits.all (fun character => !isBlank character) = true :=
  List.all_eq_true.mpr fun digit member => by simp [not_isBlank_of_isDigit (List.all_eq_true.mp numeric digit member)]

namespace Numeral

theorem digit_le {digit : Char} (numeric : digit.isDigit = true) : digit.toNat - '0'.toNat ≤ 9 := by
  have bounds := Char.isDigit_iff_toNat.mp numeric
  have least : '0'.toNat = 48 := rfl
  have greatest : '9'.toNat = 57 := rfl
  omega

theorem ofDigitChars_lt {digits : List Char} (numeric : digits.all Char.isDigit = true) :
    Nat.ofDigitChars 10 digits 0 < 10 ^ digits.length := by
  induction digits with
  | nil => decide
  | cons digit rest ih =>
    rw [List.all_cons, Bool.and_eq_true] at numeric
    have below := ih numeric.2
    have leading := Nat.mul_le_mul_left (10 ^ rest.length) (digit_le numeric.1)
    rw [Nat.ofDigitChars_cons, Nat.ofDigitChars_eq_ofDigitChars_zero, List.length_cons, Nat.pow_succ,
      Nat.mul_zero, Nat.zero_add]
    omega

theorem length_padded {width number : Nat} (positive : 0 < width) (fits : number < 10 ^ width) :
    (padded width number).length = width := by
  have short := (Nat.length_toDigits_le_iff (by decide) positive).mpr fits
  simp only [padded, List.length_append, List.length_replicate]
  omega

theorem all_isDigit_toDigits (number : Nat) : (Nat.toDigits 10 number).all Char.isDigit = true :=
  List.all_eq_true.mpr fun _ member => Nat.isDigit_of_mem_toDigits (by decide) (by decide) member

theorem all_isDigit_padded (width number : Nat) : (padded width number).all Char.isDigit = true := by
  simp [padded, all_isDigit_toDigits]

theorem ofDigitChars_padded (width number start : Nat) :
    Nat.ofDigitChars 10 (padded width number) start = 10 ^ (padded width number).length * start + number := by
  rw [Nat.ofDigitChars_eq_ofDigitChars_zero]
  simp only [padded]
  rw [Nat.ofDigitChars_append, Nat.ofDigitChars_replicate_zero, Nat.mul_zero, Nat.ofDigitChars_ten_toDigits]

theorem toList_toString (number : Int) : (toString number).toList
    = if number < 0 then '-' :: Nat.toDigits 10 number.natAbs else Nat.toDigits 10 number.natAbs := by
  cases number with
  | ofNat size =>
    rw [if_neg (by simp)]
    exact String.toList_ofList
  | negSucc size =>
    rw [if_pos (Int.negSucc_lt_zero size)]
    change ("-" ++ Nat.repr (size + 1)).toList = _
    rw [String.toList_append]
    simp

theorem toList_toString_natCast (number : Nat) : (toString number).toList = Nat.toDigits 10 number :=
  String.toList_ofList

def Writes (text : List Char) (word : Word) : Prop :=
  ∃ digits, (text = digits ∨ text = '+' :: digits) ∧ digits ≠ [] ∧ digits.all Char.isDigit = true
    ∧ Nat.ofDigitChars 10 digits 0 = word.val

private theorem ofDigits?_eq_some_iff {digits : List Char} {number : Nat} : ofDigits? digits = some number
    ↔ digits ≠ [] ∧ digits.all Char.isDigit = true ∧ Nat.ofDigitChars 10 digits 0 = number := by
  rw [ofDigits?]
  split
  case isTrue numeric => simp [numeric]
  case isFalse other => exact iff_of_false nofun fun written => other ⟨written.1, written.2.1⟩

private theorem ofNat?_eq_some_iff {number : Nat} {word : Word} :
    Word.ofNat? number = some word ↔ number = word.val := by
  rw [Word.ofNat?]
  split
  case isTrue fits => rw [Option.some.injEq, Subtype.ext_iff]
  case isFalse beyond =>
    refine iff_of_false nofun ?_
    rintro rfl
    exact beyond word.fits

theorem readWord?_eq_some_iff {text : List Char} {word : Word} : readWord? text = some word ↔ Writes text word := by
  rw [readWord?, Option.bind_eq_some_iff]
  simp only [ofNat?_eq_some_iff]
  constructor
  · rintro ⟨number, read, rfl⟩
    unfold read? at read
    split at read
    case h_1 digits => exact ⟨digits, .inr rfl, ofDigits?_eq_some_iff.mp read⟩
    case h_2 => exact ⟨text, .inl rfl, ofDigits?_eq_some_iff.mp read⟩
  · rintro ⟨digits, rfl | rfl, written⟩
    · refine ⟨word.val, ?_, rfl⟩
      rw [read?, ofDigits?_eq_some_iff.mpr written]
      rintro others rfl
      cases written.2.1
    · exact ⟨word.val, ofDigits?_eq_some_iff.mpr written, rfl⟩

theorem writes_toString (word : Word) : Writes (toString word.val).toList word := by
  rw [toList_toString_natCast]
  exact ⟨_, .inl rfl, Nat.toDigits_ne_nil, all_isDigit_toDigits _, Nat.ofDigitChars_ten_toDigits⟩

end Numeral
end LimitBook.Text
