import LimitBook.Word

/-! Whole numbers in text: an optional plus sign, then decimal digits and nothing else. -/
namespace LimitBook.Text.Numeral

def digit? (character : Char) : Option Nat :=
  if character.isDigit then some (character.toNat - '0'.toNat) else none

def ofDigits? (text : List Char) : Option Nat :=
  if text ≠ [] ∧ text.all Char.isDigit then some (Nat.ofDigitChars 10 text 0) else none

def read? : List Char → Option Nat
  | '+' :: rest => ofDigits? rest
  | text => ofDigits? text

def readWord? (text : List Char) : Option Word := (read? text).bind Word.ofNat?

def padded (width number : Nat) : List Char :=
  let digits := Nat.toDigits 10 number
  List.replicate (width - digits.length) '0' ++ digits

end LimitBook.Text.Numeral
