import LimitBook.Fixed
import LimitBook.Decimal.Reader
import LimitBook.Text.Blank

/-! The text of a fixed-point number: a minus sign below zero, the whole part, and after a point
every place. -/
namespace LimitBook.Fixed
open Text
variable {places : Nat}

def magnitudeText (places size : Nat) : List Char :=
  let whole := Nat.toDigits 10 (size / tenTo places)
  if places = 0 then whole else whole ++ '.' :: Numeral.padded places (size % tenTo places)

def characters (number : Fixed places) : List Char :=
  let digits := magnitudeText places number.raw.natAbs
  if number.raw < 0 then '-' :: digits else digits

def text (number : Fixed places) : String := String.ofList number.characters

instance : ToString (Fixed places) := ⟨text⟩

def describe (number : Fixed places) : String :=
  "FixedDecimal<" ++ toString places ++ ">(" ++ number.text ++ ")"

def read (text : List Char) : Except NumericError (Fixed places) :=
  match Decimal.read? (trim text) with
  | none => .error .invalidInput
  | some decimal => ofDecimal decimal

end LimitBook.Fixed
