import LimitBook.Feed

/-! Texts on one line. Whatever a report quotes, it stays on the line on which it begins. -/
namespace LimitBook

def OneLine (text : String) : Prop := '\n' ∉ text.toList

theorem oneLine_append {left right : String} (one : OneLine left) (two : OneLine right) : OneLine (left ++ right) := by
  rw [OneLine, String.toList_append, List.mem_append, not_or]
  exact ⟨one, two⟩

private theorem oneLine_ofList {characters : List Char} : OneLine (String.ofList characters) ↔ '\n' ∉ characters := by
  simp [OneLine]

namespace Text

private theorem digitChar_ne (digit : Nat) : Nat.digitChar digit ≠ '\n' := by
  grind [Nat.digitChar]

private theorem not_mem_toDigits (base number : Nat) : '\n' ∉ Nat.toDigits base number := by
  have core : ∀ fuel number digits, '\n' ∉ digits → '\n' ∉ Nat.toDigitsCore base fuel number digits := by
    intro fuel
    induction fuel with
    | zero => exact fun _ _ clean => clean
    | succ fuel ih =>
      intro number digits clean
      have longer : '\n' ∉ Nat.digitChar (number % base) :: digits :=
        List.not_mem_cons_of_ne_of_not_mem (digitChar_ne _).symm clean
      rw [Nat.toDigitsCore]
      split
      · exact longer
      · exact ih _ _ longer
  exact core _ _ _ List.not_mem_nil

private theorem not_mem_quotedCharacter (character : Char) : '\n' ∉ quotedCharacter character := by
  unfold quotedCharacter
  split
  case h_7 other _ _ _ _ feed _ =>
    split
    · simp [codeEscape, not_mem_toDigits]
    · exact fun same => feed (List.mem_singleton.mp same).symm
  all_goals decide

private theorem not_mem_quoted (text : List Char) : '\n' ∉ quoted text := by
  simp [quoted, not_mem_quotedCharacter]

private theorem not_mem_padded (width number : Nat) : '\n' ∉ Numeral.padded width number := by
  simp [Numeral.padded, not_mem_toDigits]

end Text

open Text

theorem oneLine_quoted (text : List Char) : OneLine (String.ofList (quoted text)) :=
  oneLine_ofList.mpr (not_mem_quoted text)

theorem oneLine_toString (number : Nat) : OneLine (toString number) := by
  simp [OneLine, not_mem_toDigits]

private theorem Fixed.oneLine_text {places : Nat} (number : Fixed places) : OneLine number.text := by
  have digits : '\n' ∉ magnitudeText places number.raw.natAbs := by
    unfold magnitudeText
    split <;> simp [not_mem_toDigits, not_mem_padded]
  rw [text, oneLine_ofList, characters]
  split <;> simp [digits]

private theorem NumericError.oneLine_message (cause : NumericError) : OneLine cause.message := by
  cases cause <;> simp [OneLine, message]

theorem Text.Utf8.Problem.oneLine_message (problem : Utf8.Problem) : OneLine problem.message := by
  cases problem with
  | incomplete | invalid =>
    unfold message
    simp [OneLine, not_mem_toDigits]

theorem LineError.oneLine_message (cause : LineError) : OneLine cause.message := by
  have numeric := NumericError.oneLine_message
  unfold OneLine at numeric
  unfold OneLine message
  cases cause <;> simp [not_mem_toDigits, not_mem_quoted, numeric]

private theorem OrderKind.oneLine_name (kind : OrderKind) : OneLine kind.name := by
  cases kind <;> simp [OneLine, name]

private theorem Rejection.oneLine_detail (cause : Rejection) : OneLine cause.detail := by
  have price := @Fixed.oneLine_text 2
  have name := OrderKind.oneLine_name
  unfold OneLine at price name
  unfold OneLine detail
  cases cause <;> simp [OrderId.text, Volume.text, not_mem_toDigits, price, name]

theorem Rejection.oneLine_message (cause : Rejection) : OneLine cause.message :=
  oneLine_append (by simp [OneLine]) cause.oneLine_detail

private theorem Trade.oneLine_line (trade : Trade) : OneLine trade.line := by
  have price := trade.price.oneLine_text
  unfold OneLine at price
  unfold OneLine line
  simp [OrderId.text, Volume.text, not_mem_toDigits, price]

namespace Json

private theorem not_mem_printedCharacter (character : Char) : '\n' ∉ printedCharacter character := by
  unfold printedCharacter
  split
  case h_8 other _ _ _ _ feed _ _ =>
    split
    · simp [not_mem_toDigits]
    · exact fun same => feed (List.mem_singleton.mp same).symm
  all_goals decide

private theorem not_mem_printedString (text : List Char) : '\n' ∉ printedString (some text) := by
  simp [printedString, not_mem_printedCharacter]

private theorem not_mem_printedWhole (value : Int) : '\n' ∉ printedWhole value := by
  unfold printedWhole
  split <;> simp [not_mem_toDigits]

end Json

private theorem Trade.oneLine_json (trade : Trade) : OneLine trade.toJson.text := by
  rw [Json.text, oneLine_ofList]
  simp [toJson, Json.ofFields, Json.print, Json.printFields, Json.not_mem_printedString, Json.not_mem_printedWhole,
    OrderId.toJson, Volume.toJson, Fixed.toJson, Json.ofNat]

theorem TradeFormat.oneLine_render (format : TradeFormat) (trade : Trade) : OneLine (format.render trade) := by
  cases format with
  | line => exact trade.oneLine_line
  | json => exact trade.oneLine_json

end LimitBook
