import LimitBook.Order
import LimitBook.Fixed.Text
import LimitBook.Text.Quoted

/-! Order lines. A line has four fields between blanks:

    market <buy|sell> <volume>  <any price>
    limit  <buy|sell> <volume>  <price>
    stop   <buy|sell> <volume>  <trigger>
    cancel <anything> <target>  <any price>
-/
namespace LimitBook
open Text

inductive LineError
  | fieldCount (found : Nat)
  | unknownKind (field : List Char)
  | unknownSide (field : List Char)
  | invalidVolume (field : List Char)
  | invalidOrderId (field : List Char)
  | invalidPrice (field : List Char) (cause : NumericError)
deriving DecidableEq

def LineError.message : LineError → String
  | fieldCount found => "expected 4 fields, found " ++ toString found
  | unknownKind field => "unknown order type " ++ String.ofList (quoted field)
  | unknownSide field => "unknown side " ++ String.ofList (quoted field)
  | invalidVolume field => "invalid volume " ++ String.ofList (quoted field)
  | invalidOrderId field => "invalid order id " ++ String.ofList (quoted field)
  | invalidPrice field cause =>
    "invalid price " ++ String.ofList (quoted field) ++ ": " ++ cause.message

namespace Order

def readSide (field : List Char) : Except LineError Side :=
  if field = ['b', 'u', 'y'] then .ok .buy
  else if field = ['s', 'e', 'l', 'l'] then .ok .sell
  else .error (.unknownSide field)

def readVolume (field : List Char) : Except LineError Volume :=
  match Numeral.readWord? field with
  | some word => .ok (.ofWord word)
  | none => .error (.invalidVolume field)

def readTarget (field : List Char) : Except LineError OrderId :=
  match Numeral.readWord? field with
  | some word => .ok (.ofWord word)
  | none => .error (.invalidOrderId field)

def readPrice (field : List Char) : Except LineError Price :=
  match Fixed.read field with
  | .ok price => .ok price
  | .error cause => .error (.invalidPrice field cause)

def ofFields : List (List Char) → Except LineError Order
  | [kind, side, amount, price] => do
    let price ← readPrice price
    if kind = ['c', 'a', 'n', 'c', 'e', 'l'] then
      return cancel (← readTarget amount)
    else if kind = ['m', 'a', 'r', 'k', 'e', 't'] then
      let side ← readSide side
      return market side (← readVolume amount)
    else if kind = ['l', 'i', 'm', 'i', 't'] then
      let side ← readSide side
      return limit side (← readVolume amount) price
    else if kind = ['s', 't', 'o', 'p'] then
      let side ← readSide side
      return stop side (← readVolume amount) price
    else .error (.unknownKind kind)
  | other => .error (.fieldCount other.length)

def ofLine (line : List Char) : Except LineError Order := ofFields (fields line)

end Order
end LimitBook
