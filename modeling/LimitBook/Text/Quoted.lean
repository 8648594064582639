import LimitBook.Text.Hidden

/-! Text between double quotes, on one line and readable: quotes and backslashes take a backslash,
and what cannot be shown is written by its code. -/
namespace LimitBook.Text

def codeEscape (character : Char) : List Char :=
  '\\' :: 'u' :: '\x7b' :: Nat.toDigits 16 character.toNat ++ ['\x7d']

def quotedCharacter (character : Char) : List Char :=
  match character with
  | '"' => ['\\', '"']
  | '\\' => ['\\', '\\']
  | '\x00' => ['\\', '0']
  | '\t' => ['\\', 't']
  | '\n' => ['\\', 'n']
  | '\r' => ['\\', 'r']
  | other => if isHidden other then codeEscape other else [other]

def quoted (text : List Char) : List Char :=
  '"' :: text.flatMap quotedCharacter ++ ['"']

end LimitBook.Text
