import LimitBook.Json.Lexer
import LimitBook.Json.Printer
import LimitBook.Proofs.Text.Numeral

/-! The tokens of printed scalars. Whatever is printed after a string, a whole number or a word, what is printed
of it is one token and stands for it. -/
namespace LimitBook
open Text

namespace Text.Numeral

private theorem eq_zero_of_head_toDigits {number : Nat} (leading : (Nat.toDigits 10 number).head? = some '0') :
    number = 0 := by
  induction number using Nat.strongRecOn with
  | ind number ih =>
    by_cases short : number < 10
    · rw [Nat.toDigits_of_lt_base short] at leading
      have single : ∀ digit < 10, some (Nat.digitChar digit) = some '0' → digit = 0 := by decide
      exact single number short leading
    · rw [Nat.toDigits_of_base_le (by decide) (Nat.le_of_not_lt short), List.head?_append,
        Option.or_eq_left_of_isSome (by simp)] at leading
      have vanished := ih (number / 10) (by omega) leading
      omega

end Text.Numeral

namespace Json
variable {character : Char} {rest : List Char}

inductive Part (character : Char) : StringPart → Prop
  | plain : Part character (.character character)
  | numbered (control : character.toNat < 0x20) : Part character (.unit character.toNat)

private theorem control_digits (control : character.toNat < 0x20) :
    ∃ third fourth, List.replicate (4 - (Nat.toDigits 16 character.toNat).length) '0' ++ Nat.toDigits 16 character.toNat
      = ['0', '0', third, fourth] ∧ unit? '0' '0' third fourth = some character.toNat := by
  have each : ∀ code < 0x20, List.replicate (4 - (Nat.toDigits 16 code).length) '0' ++ Nat.toDigits 16 code
      = ['0', '0', Nat.digitChar (code / 16), Nat.digitChar (code % 16)]
      ∧ unit? '0' '0' (Nat.digitChar (code / 16)) (Nat.digitChar (code % 16)) = some code := by decide
  exact ⟨_, _, each _ control⟩

private theorem readParts_escaped {letter : Char} (escaped : escape? letter = some character) (rest : List Char) :
    readParts ('\\' :: letter :: rest)
      = (readParts rest).map fun (parts, rest) => (.character character :: parts, rest) := by
  have other : letter ≠ 'u' := by
    rintro rfl
    cases escaped
  rw [readParts, escaped]
  · cases readParts rest <;> rfl
  · exact fun _ _ _ _ _ same _ => other same

private theorem readParts_unit {first second third fourth : Char} {code : Nat}
    (value : unit? first second third fourth = some code)
    (rest : List Char) : readParts ('\\' :: 'u' :: first :: second :: third :: fourth :: rest)
      = (readParts rest).map fun (parts, rest) => (.unit code :: parts, rest) := by
  rw [readParts, value]
  cases readParts rest <;> rfl

private theorem readParts_plain (quote : character ≠ '"') (slash : character ≠ '\\')
    (printable : ¬ character.toNat < 0x20) (rest : List Char) : readParts (character :: rest)
      = (readParts rest).map fun (parts, rest) => (.character character :: parts, rest) := by
  rw [readParts, if_neg printable]
  · cases readParts rest <;> rfl
  all_goals simp_all

private theorem readParts_character (character : Char) (rest : List Char) : ∃ part, Part character part
    ∧ readParts (printedCharacter character ++ rest)
      = (readParts rest).map fun (parts, rest) => (part :: parts, rest) := by
  unfold printedCharacter
  split
  case h_8 quote slash _ _ _ _ _ =>
    split
    case isTrue control =>
      obtain ⟨third, fourth, spelled, value⟩ := control_digits control
      refine ⟨_, .numbered control, ?_⟩
      simp only [List.cons_append, spelled]
      exact readParts_unit value rest
    case isFalse printable => exact ⟨_, .plain, readParts_plain quote slash printable rest⟩
  all_goals exact ⟨_, .plain, readParts_escaped rfl rest⟩

private theorem joinParts_cons {part : StringPart} (spelled : Part character part) (parts : List StringPart) :
    joinParts (part :: parts) = (joinParts parts).map (character :: ·) := by
  cases spelled with
  | plain => rw [joinParts]
  | numbered control =>
    have whole : Char.ofNat character.toNat = character := Char.ofNat_toNat character
    have low : ¬ 0xd800 ≤ character.toNat := by omega
    have last : ¬ 0xdc00 ≤ character.toNat := by omega
    rw [joinParts.eq_def]
    split
    case h_3 same =>
      cases same
      rw [if_neg fun surrogate => low surrogate.1, if_neg fun surrogate => last surrogate.1, whole]
    case h_4 same =>
      cases same
      rw [if_neg fun surrogate => low surrogate.1, whole]
    all_goals simp_all

/-- What is printed of a text is read back as the text, up to the quote that ends it. -/
theorem readParts_text (text rest : List Char) : ∃ parts,
    readParts (text.flatMap printedCharacter ++ '"' :: rest) = some (parts, rest) ∧ joinParts parts = some text := by
  induction text with
  | nil => exact ⟨[], rfl, rfl⟩
  | cons character others ih =>
    obtain ⟨parts, read, joined⟩ := ih
    obtain ⟨part, spelled, first⟩ := readParts_character character (others.flatMap printedCharacter ++ '"' :: rest)
    refine ⟨part :: parts, ?_, ?_⟩
    · rw [List.flatMap_cons, List.append_assoc, first, read]
      rfl
    · rw [joinParts_cons spelled, joined]
      rfl

theorem tokens_punctuation {token : Token} (punctuation : punctuation? character = some token) (rest : List Char) :
    tokens (character :: rest) = (tokens rest).map (token :: ·) := by
  rw [tokens, punctuation]

theorem tokens_string (text : Option (List Char)) (rest : List Char) :
    tokens (printedString text ++ rest) = (tokens rest).map (.scalar (string text) :: ·) := by
  have quoted : ∃ inner parts, printedString text ++ rest = '"' :: inner ∧ readParts inner = some (parts, rest)
      ∧ joinParts parts = text := by
    cases text with
    | none => exact ⟨_, _, rfl, rfl, rfl⟩
    | some text =>
      obtain ⟨parts, read, joined⟩ := readParts_text text rest
      exact ⟨_, parts, by simp [printedString], read, joined⟩
  obtain ⟨inner, parts, opened, read, joined⟩ := quoted
  have unpunctuated : punctuation? '"' = none := rfl
  rw [opened, tokens, unpunctuated]
  simp only [isSpace, if_true]
  rw [if_neg (by decide)]
  split
  case h_1 found =>
    rw [read, Option.some.injEq, Prod.mk.injEq] at found
    obtain ⟨rfl, rfl⟩ := found
    rw [joined]
  case h_2 found =>
    rw [read] at found
    cases found

/-- Letters and the characters of numerals begin neither a string nor a container, and are no space. -/
theorem unmarked (kind : character.isAlpha = true ∨ isNumeralCharacter character = true) :
    punctuation? character = none ∧ isSpace character = false ∧ character ≠ '"' := by
  refine ⟨?_, ?_, ?_⟩
  · unfold punctuation?
    split <;> first | rfl | exact absurd kind (by decide)
  · simp only [isSpace, Bool.or_eq_false_iff, beq_eq_false_iff_ne]
    refine ⟨⟨⟨?_, ?_⟩, ?_⟩, ?_⟩ <;> rintro rfl <;> exact absurd kind (by decide)
  · rintro rfl
    exact absurd kind (by decide)

private theorem tokens_letter (letter : character.isAlpha = true) (rest : List Char) : tokens (character :: rest)
    = (ofWord? (character :: rest.takeWhile Char.isAlpha)).bind fun value =>
      (tokens (rest.dropWhile Char.isAlpha)).map (.scalar value :: ·) := by
  obtain ⟨unpunctuated, visible, unquoted⟩ := unmarked (.inl letter)
  rw [tokens, unpunctuated]
  simp only [visible, unquoted, letter, Bool.not_true, Bool.and_false, Bool.false_eq_true, if_false]
  cases ofWord? (character :: rest.takeWhile Char.isAlpha) <;> rfl

private theorem tokens_numeric (numeric : isNumeralCharacter character = true) (lettered : character.isAlpha = false)
    (rest : List Char) : tokens (character :: rest)
    = (ofNumeral? (character :: rest.takeWhile isNumeralCharacter)).bind fun value =>
      (tokens (rest.dropWhile isNumeralCharacter)).map (.scalar value :: ·) := by
  obtain ⟨unpunctuated, visible, unquoted⟩ := unmarked (.inr numeric)
  rw [tokens, unpunctuated]
  simp only [visible, unquoted, numeric, lettered, Bool.not_false, Bool.and_true, Bool.false_eq_true, if_false, if_true]
  cases ofNumeral? (character :: rest.takeWhile isNumeralCharacter) <;> rfl

theorem tokens_word {word : List Char} {value : Json} (known : ofWord? word = some value)
    (ended : rest.head?.all (fun next => !next.isAlpha) = true) :
    tokens (word ++ rest) = (tokens rest).map (.scalar value :: ·) := by
  have alphabetic : word.all Char.isAlpha = true := by
    unfold ofWord? at known
    split at known
    case isTrue null => exact null ▸ by decide
    split at known
    case isTrue affirmed => exact affirmed ▸ by decide
    split at known
    case isTrue denied => exact denied ▸ by decide
    cases known
  cases word with
  | nil => cases known
  | cons first others =>
    rw [List.all_cons, Bool.and_eq_true] at alphabetic
    obtain ⟨taken, dropped⟩ := span_run alphabetic.2 ended
    rw [List.cons_append, tokens_letter alphabetic.1, taken, dropped, known, Option.bind_some]

private theorem isNumeralCharacter_of_isDigit (numeric : character.isDigit = true) :
    isNumeralCharacter character = true := by
  simp [isNumeralCharacter, numeric]

private theorem not_isAlpha_of_isDigit (numeric : character.isDigit = true) : character.isAlpha = false := by
  have bounds := Char.isDigit_iff_toNat.mp numeric
  have capital : ¬ 'A'.val ≤ character.val := fun above =>
    absurd (Nat.le_trans (UInt32.le_iff_toNat_le.mp above) bounds.2) (by decide)
  have small : ¬ 'a'.val ≤ character.val := fun above =>
    absurd (Nat.le_trans (UInt32.le_iff_toNat_le.mp above) bounds.2) (by decide)
  exact Bool.or_eq_false_iff.mpr
    ⟨decide_eq_false fun upper => capital upper.1, Bool.and_eq_false_iff.mpr (.inl (decide_eq_false small))⟩

/-- The digits of a number, with a minus sign or without one, are a numeral without needless zeros. -/
theorem ofNumeral?_signed (negative : Bool) (number : Nat) (proper : negative = true → number ≠ 0) :
    ofNumeral? (if negative then '-' :: Nat.toDigits 10 number else Nat.toDigits 10 number)
      = some (whole (if negative then -(number : Int) else number)) := by
  have filled : Nat.toDigits 10 number ≠ [] := Nat.toDigits_ne_nil
  have numeric := Numeral.all_isDigit_toDigits number
  have ended : ([] : List Char).head?.all (fun next => !next.isDigit) = true := rfl
  obtain ⟨taken, dropped⟩ := span_run numeric ended
  rw [List.append_nil] at taken dropped
  have counted : Nat.ofDigitChars 10 (Nat.toDigits 10 number) 0 = number := Nat.ofDigitChars_ten_toDigits
  have unpadded : (Nat.toDigits 10 number).head? = some '0' → Nat.toDigits 10 number = ['0'] := by
    intro leading
    rw [Numeral.eq_zero_of_head_toDigits leading]
    rfl
  have complete : isTail [] = true := rfl
  cases negative with
  | true =>
    simp only [if_true, ofNumeral?, taken, dropped, counted, complete]
    simpa [filled, proper rfl] using unpadded
  | false =>
    have unsigned : ∀ rest, Nat.toDigits 10 number ≠ '-' :: rest := by
      intro rest spelled
      rw [spelled] at numeric
      cases numeric
    simp only [Bool.false_eq_true, if_false]
    rw [ofNumeral?.eq_def]
    split
    rename_i negative size pair
    have same : (negative, size) = (false, Nat.toDigits 10 number) := by
      rw [← pair]
      split
      · exact absurd ‹_› (unsigned _)
      · rfl
    cases same
    simp only [taken, dropped, counted, complete]
    simpa [filled] using unpadded

private theorem ofNumeral?_printedWhole (value : Int) : ofNumeral? (printedWhole value) = some (whole value) := by
  have proper : decide (value < 0) = true → value.natAbs ≠ 0 := by
    rw [decide_eq_true_eq]
    omega
  have signed := ofNumeral?_signed (value < 0) value.natAbs proper
  have exact : (if value < 0 then -(value.natAbs : Int) else value.natAbs) = value := by
    split <;> omega
  simp only [decide_eq_true_eq, exact] at signed
  exact signed

theorem tokens_whole (value : Int) (ended : rest.head?.all (fun next => !isNumeralCharacter next) = true) :
    tokens (printedWhole value ++ rest) = (tokens rest).map (.scalar (whole value) :: ·) := by
  have digital : (Nat.toDigits 10 value.natAbs).all isNumeralCharacter = true :=
    List.all_eq_true.mpr fun digit member =>
      isNumeralCharacter_of_isDigit (List.all_eq_true.mp (Numeral.all_isDigit_toDigits value.natAbs) digit member)
  obtain ⟨first, others, spelled, lettered, numeric, following⟩ : ∃ first others, printedWhole value = first :: others
      ∧ first.isAlpha = false ∧ isNumeralCharacter first = true ∧ others.all isNumeralCharacter = true := by
    rw [printedWhole]
    split
    case isTrue => exact ⟨'-', _, rfl, by decide, by decide, digital⟩
    case isFalse =>
      have filled : Nat.toDigits 10 value.natAbs ≠ [] := Nat.toDigits_ne_nil
      obtain ⟨first, others, spelled⟩ := List.exists_cons_of_ne_nil filled
      have leading := List.all_eq_true.mp (Numeral.all_isDigit_toDigits value.natAbs) first (by simp [spelled])
      rw [spelled, List.all_cons, Bool.and_eq_true] at digital
      exact ⟨first, others, spelled, not_isAlpha_of_isDigit leading, digital⟩
  have read := ofNumeral?_printedWhole value
  obtain ⟨taken, dropped⟩ := span_run following ended
  rw [spelled] at read ⊢
  rw [List.cons_append, tokens_numeric numeric lettered, taken, dropped, read, Option.bind_some]

end Json
end LimitBook
