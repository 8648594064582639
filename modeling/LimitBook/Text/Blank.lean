/-! White space. A blank is a character with the Unicode property `White_Space`; fields are what
stands between blanks. -/
namespace LimitBook.Text

def isBlank (character : Char) : Bool :=
  let code := character.toNat
  (0x09 ≤ code && code ≤ 0x0d) || code == 0x20 || code == 0x85 || code == 0xa0 || code == 0x1680
    || (0x2000 ≤ code && code ≤ 0x200a) || code == 0x2028 || code == 0x2029 || code == 0x202f
    || code == 0x205f || code == 0x3000

def trim (text : List Char) : List Char :=
  ((text.dropWhile isBlank).reverse.dropWhile isBlank).reverse

def fields : List Char → List (List Char)
  | [] => []
  | character :: rest =>
    if isBlank character then fields rest
    else
      (character :: rest.takeWhile (fun next => !isBlank next))
        :: fields (rest.dropWhile (fun next => !isBlank next))
termination_by text => text.length
decreasing_by
  · exact Nat.lt_succ_self _
  · exact Nat.lt_succ_of_le (List.dropWhile_sublist _).length_le

end LimitBook.Text
