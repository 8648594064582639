/-! UTF-8. Bytes are read one at a time; the first byte of a sequence says how many follow and in
which range the second one lies. -/
namespace LimitBook.Text.Utf8

inductive Problem
  /-- The bytes end inside a sequence. -/
  | incomplete (index : Nat)
  /-- A byte cannot follow the first `length` bytes of a sequence, or cannot begin one. -/
  | invalid (index length : Nat)
deriving DecidableEq

def Problem.message : Problem → String
  | incomplete index => "incomplete utf-8 byte sequence from index " ++ toString index
  | invalid index length =>
    "invalid utf-8 sequence of " ++ toString length ++ " bytes from index " ++ toString index

structure Partial where
  code : Nat
  taken : Nat
  due : Nat
  least : Nat
  greatest : Nat

inductive Beginning
  | refused
  | whole (character : Char)
  | longer (sequence : Partial)

def begin (byte : Nat) : Beginning :=
  if byte < 0x80 then .whole (Char.ofNat byte)
  else if byte < 0xc2 then .refused
  else if byte < 0xe0 then .longer ⟨byte - 0xc0, 1, 1, 0x80, 0xbf⟩
  else if byte < 0xf0 then
    .longer ⟨byte - 0xe0, 1, 2, if byte = 0xe0 then 0xa0 else 0x80, if byte = 0xed then 0x9f else 0xbf⟩
  else if byte < 0xf5 then
    .longer ⟨byte - 0xf0, 1, 3, if byte = 0xf0 then 0x90 else 0x80, if byte = 0xf4 then 0x8f else 0xbf⟩
  else .refused

/-- Reads the bytes that follow. `index` is where the sequence in progress began, or where the next
one begins. -/
def decodeFrom (index : Nat) (begun : Option Partial) : List UInt8 → Except Problem (List Char)
  | [] => if begun.isSome then .error (.incomplete index) else .ok []
  | byte :: rest =>
    match begun with
    | none =>
      match begin byte.toNat with
      | .refused => .error (.invalid index 1)
      | .whole character => (decodeFrom (index + 1) none rest).map (character :: ·)
      | .longer sequence => decodeFrom index (some sequence) rest
    | some sequence =>
      if byte.toNat < sequence.least || sequence.greatest < byte.toNat then
        .error (.invalid index sequence.taken)
      else
        let code := sequence.code * 0x40 + (byte.toNat - 0x80)
        if sequence.due = 1 then
          (decodeFrom (index + sequence.taken + 1) none rest).map (Char.ofNat code :: ·)
        else decodeFrom index (some ⟨code, sequence.taken + 1, sequence.due - 1, 0x80, 0xbf⟩) rest

def decode (bytes : List UInt8) : Except Problem (List Char) := decodeFrom 0 none bytes

end LimitBook.Text.Utf8
