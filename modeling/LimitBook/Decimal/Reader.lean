import LimitBook.Decimal
import LimitBook.Text.Numeral

/-! Decimal numerals: a sign, digits with at most one point, underscores after the first digit, and
an exponent of ten. Digits that a magnitude cannot hold are rounded when they stand after the point
and refused before it. -/
namespace LimitBook.Decimal
open Text

def append? (size : Magnitude) (fractional : Bool) (digit : Nat) : Option Magnitude :=
  Magnitude.ofDigits? (size.digits * 10 + digit) (if fractional then size.scale + 1 else size.scale)

def roundBy? (size : Magnitude) (digit : Nat) : Option Magnitude :=
  if 5 ≤ digit then size.roundUp? else some size

def isIgnorable (character : Char) : Bool := character.isDigit || character == '_'

/-- Whether the places are full and the digits before the last one leave room for it in a word, with
a margin of 255 units. An underscore that follows then counts as the digit that rounds, a zero. -/
def isFull (size : Magnitude) : Bool := size.scale == 28 && size.digits / 10 < 0x1999_9999_9999_989a

/-- Reads the digits that follow `size`. `fractional` says that the point has been passed and
`started` that a digit has been read. -/
def scan (size : Magnitude) (fractional started : Bool) : List Char → Option Magnitude
  | [] => if started then some size else none
  | '.' :: rest => if fractional then none else scan size true started rest
  | '_' :: rest =>
    if !started then none
    else if isFull size then if rest.all isIgnorable then some size else none
    else scan size fractional started rest
  | character :: rest =>
    match Numeral.digit? character with
    | none => none
    | some digit =>
      match append? size fractional digit with
      | some longer => scan longer fractional true rest
      | none => if fractional && rest.all isIgnorable then roundBy? size digit else none

def readPlain? : List Char → Option Decimal
  | '-' :: rest => (scan .zero false false rest).map (⟨true, ·⟩)
  | '+' :: rest => (scan .zero false false rest).map (⟨false, ·⟩)
  | text => (scan .zero false false text).map (⟨false, ·⟩)

def readExponent? (text : List Char) : Option Nat :=
  (Numeral.read? text).filter fun exponent => exponent < 0x1_0000_0000

def scaleBy? (decimal : Decimal) : List Char → Option Decimal
  | '-' :: digits => do
    let size ← decimal.size.scaleDown? (← readExponent? digits)
    return { decimal with size }
  | digits => do
    let size ← decimal.size.scaleUp? (← readExponent? digits)
    return { decimal with size }

def isExponentMark (character : Char) : Bool := character == 'e' || character == 'E'

def readScientific? (text : List Char) : Option Decimal :=
  match text.dropWhile (fun character => !isExponentMark character) with
  | [] => none
  | _ :: exponent => do
    let decimal ← readPlain? (text.takeWhile (fun character => !isExponentMark character))
    decimal.scaleBy? exponent

def read? (text : List Char) : Option Decimal := readPlain? text <|> readScientific? text

end LimitBook.Decimal
