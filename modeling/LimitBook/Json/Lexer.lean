import LimitBook.Json

/-! The tokens of JSON text. -/
namespace LimitBook.Json

inductive Token
  | openArray
  | closeArray
  | openObject
  | closeObject
  | comma
  | colon
  | scalar (value : Json)

inductive StringPart
  | character (value : Char)
  | unit (value : Nat)

def hexValue? (digit : Char) : Option Nat :=
  if digit.isDigit then some (digit.toNat - '0'.toNat)
  else if 'a' ≤ digit ∧ digit ≤ 'f' then some (digit.toNat - 'a'.toNat + 10)
  else if 'A' ≤ digit ∧ digit ≤ 'F' then some (digit.toNat - 'A'.toNat + 10)
  else none

def unit? (first second third fourth : Char) : Option Nat := do
  return (((← hexValue? first) * 16 + (← hexValue? second)) * 16 + (← hexValue? third)) * 16 + (← hexValue? fourth)

def escape? : Char → Option Char
  | '"' => some '"'
  | '\\' => some '\\'
  | '/' => some '/'
  | 'b' => some '\x08'
  | 'f' => some '\x0c'
  | 'n' => some '\n'
  | 'r' => some '\r'
  | 't' => some '\t'
  | _ => none

def readParts : List Char → Option (List StringPart × List Char)
  | '"' :: rest => some ([], rest)
  | '\\' :: 'u' :: first :: second :: third :: fourth :: rest => do
    let unit ← unit? first second third fourth
    let (parts, rest) ← readParts rest
    return (.unit unit :: parts, rest)
  | '\\' :: letter :: rest => do
    let character ← escape? letter
    let (parts, rest) ← readParts rest
    return (.character character :: parts, rest)
  | character :: rest =>
    if character.toNat < 0x20 then none
    else do
      let (parts, rest) ← readParts rest
      return (.character character :: parts, rest)
  | [] => none

/-- The text of a string; code units pair up to characters, and one that stands alone is no text. -/
def joinParts : List StringPart → Option (List Char)
  | [] => some []
  | .character character :: rest => (joinParts rest).map (character :: ·)
  | .unit high :: .unit low :: rest =>
    if 0xd800 ≤ high ∧ high < 0xdc00 then
      if 0xdc00 ≤ low ∧ low < 0xe000 then
        (joinParts rest).map (Char.ofNat (0x10000 + (high - 0xd800) * 0x400 + (low - 0xdc00)) :: ·)
      else none
    else if 0xdc00 ≤ high ∧ high < 0xe000 then none
    else (joinParts (.unit low :: rest)).map (Char.ofNat high :: ·)
  | .unit unit :: rest =>
    if 0xd800 ≤ unit ∧ unit < 0xe000 then none else (joinParts rest).map (Char.ofNat unit :: ·)

def isDigits (text : List Char) : Bool := text ≠ [] && text.all Char.isDigit

def isExponent : List Char → Bool
  | '+' :: rest => isDigits rest
  | '-' :: rest => isDigits rest
  | rest => isDigits rest

def isTail (text : List Char) : Bool :=
  let exponent := match text with
    | '.' :: rest => if isDigits (rest.takeWhile Char.isDigit) then some (rest.dropWhile Char.isDigit) else none
    | rest => some rest
  match exponent with
  | none => false
  | some [] => true
  | some (mark :: rest) => (mark == 'e' || mark == 'E') && isExponent rest

def ofNumeral? (written : List Char) : Option Json :=
  let (negative, size) := match written with
    | '-' :: rest => (true, rest)
    | rest => (false, rest)
  let whole := size.takeWhile Char.isDigit
  let tail := size.dropWhile Char.isDigit
  let number := Nat.ofDigitChars 10 whole 0
  if whole = [] || (whole.head? = some '0' && whole ≠ ['0']) || !isTail tail then none
  else if tail ≠ [] || (negative && number = 0) then some (numeral written)
  else some (Json.whole (if negative then -(number : Int) else number))

def ofWord? (word : List Char) : Option Json :=
  if word = ['n', 'u', 'l', 'l'] then some null
  else if word = ['t', 'r', 'u', 'e'] then some (bool true)
  else if word = ['f', 'a', 'l', 's', 'e'] then some (bool false)
  else none

def isNumeralCharacter (character : Char) : Bool :=
  character.isDigit || character == '-' || character == '+' || character == '.' || character == 'e'
    || character == 'E'

private theorem length_readParts {text rest : List Char} {parts : List StringPart}
    (read : readParts text = some (parts, rest)) : rest.length < text.length := by
  fun_induction readParts text generalizing parts rest with
  | case1 following =>
    simp only [Option.some.injEq, Prod.mk.injEq] at read
    simp [read.2]
  | case2 first second third fourth following ih =>
    simp only [Option.bind_eq_bind, Option.bind_eq_some_iff, Option.pure_def, Option.some.injEq,
      Prod.exists, Prod.mk.injEq] at read
    obtain ⟨_, _, _, _, inner, rfl, rfl⟩ := read
    have shorter := ih inner
    simp only [List.length_cons]
    omega
  | case3 letter following _ ih =>
    simp only [Option.bind_eq_bind, Option.bind_eq_some_iff, Option.pure_def, Option.some.injEq,
      Prod.exists, Prod.mk.injEq] at read
    obtain ⟨_, _, _, _, inner, rfl, rfl⟩ := read
    have shorter := ih inner
    simp only [List.length_cons]
    omega
  | case4 => simp at read
  | case5 character following _ _ _ _ ih =>
    simp only [Option.bind_eq_bind, Option.bind_eq_some_iff, Option.pure_def, Option.some.injEq,
      Prod.exists, Prod.mk.injEq] at read
    obtain ⟨_, _, inner, rfl, rfl⟩ := read
    have shorter := ih inner
    simp only [List.length_cons]
    omega
  | case6 => simp at read

def punctuation? : Char → Option Token
  | '[' => some .openArray
  | ']' => some .closeArray
  | '\x7b' => some .openObject
  | '\x7d' => some .closeObject
  | ',' => some .comma
  | ':' => some .colon
  | _ => none

def isSpace (character : Char) : Bool :=
  character == ' ' || character == '\t' || character == '\n' || character == '\r'

def tokens : List Char → Option (List Token)
  | [] => some []
  | first :: rest =>
    match punctuation? first with
    | some token => (tokens rest).map (token :: ·)
    | none =>
      if isSpace first then tokens rest
      else if first = '"' then
        match _ : readParts rest with
        | some (parts, following) => (tokens following).map (.scalar (string (joinParts parts)) :: ·)
        | none => none
      else if isNumeralCharacter first && !first.isAlpha then
        match ofNumeral? (first :: rest.takeWhile isNumeralCharacter) with
        | some value => (tokens (rest.dropWhile isNumeralCharacter)).map (.scalar value :: ·)
        | none => none
      else
        match ofWord? (first :: rest.takeWhile Char.isAlpha) with
        | some value => (tokens (rest.dropWhile Char.isAlpha)).map (.scalar value :: ·)
        | none => none
termination_by text => text.length
decreasing_by
  · exact Nat.lt_succ_self _
  · exact Nat.lt_succ_self _
  · exact Nat.lt_succ_of_lt (length_readParts ‹_›)
  · exact Nat.lt_succ_of_le (List.dropWhile_sublist _).length_le
  · exact Nat.lt_succ_of_le (List.dropWhile_sublist _).length_le

end LimitBook.Json
