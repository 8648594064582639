import LimitBook.Json

/-! Compact JSON text: no blanks, fields in their order. -/
namespace LimitBook.Json

def printedCharacter (character : Char) : List Char :=
  match character with
  | '"' => ['\\', '"']
  | '\\' => ['\\', '\\']
  | '\x08' => ['\\', 'b']
  | '\x0c' => ['\\', 'f']
  | '\n' => ['\\', 'n']
  | '\r' => ['\\', 'r']
  | '\t' => ['\\', 't']
  | other =>
    if other.toNat < 0x20 then
      let digits := Nat.toDigits 16 other.toNat
      '\\' :: 'u' :: List.replicate (4 - digits.length) '0' ++ digits
    else [other]

def printedString : Option (List Char) → List Char
  | some text => '"' :: text.flatMap printedCharacter ++ ['"']
  | none => ['"', '\\', 'u', 'd', '8', '0', '0', '"']

def printedWhole (value : Int) : List Char :=
  if value < 0 then '-' :: Nat.toDigits 10 value.natAbs else Nat.toDigits 10 value.natAbs

mutual

def print : Json → List Char
  | null => ['n', 'u', 'l', 'l']
  | bool true => ['t', 'r', 'u', 'e']
  | bool false => ['f', 'a', 'l', 's', 'e']
  | whole value => printedWhole value
  | numeral written => written
  | string text => printedString text
  | array items => '[' :: printItems items ++ [']']
  | object fields => '\x7b' :: printFields fields ++ ['\x7d']

def printItems : List Json → List Char
  | [] => []
  | [item] => print item
  | item :: rest => print item ++ ',' :: printItems rest

def printFields : List (Option (List Char) × Json) → List Char
  | [] => []
  | [(name, value)] => printedString name ++ ':' :: print value
  | (name, value) :: rest => printedString name ++ ':' :: print value ++ ',' :: printFields rest

end

def text (json : Json) : String := String.ofList json.print

end LimitBook.Json
