/-! JSON values. Numerals keep apart what a reader of whole numbers keeps apart: a numeral with a
fraction or an exponent, and minus zero, is not a whole number. A string with an escaped surrogate
that stands alone has no text; the name of a field may be such a string too. -/
namespace LimitBook

inductive Json
  | null
  | bool (value : Bool)
  | whole (value : Int)
  /-- A numeral that is not written as a whole number. -/
  | numeral (written : List Char)
  | string (text : Option (List Char))
  | array (items : List Json)
  | object (fields : List (Option (List Char) × Json))

namespace Json

def ofString (text : String) : Json := string (some text.toList)

def ofFields (fields : List (String × Json)) : Json :=
  object (fields.map fun (name, value) => (some name.toList, value))

def ofNat (number : Nat) : Json := whole number

def ofOption {α : Type} (encode : α → Json) : Option α → Json
  | some value => encode value
  | none => null

def ofList {α : Type} (encode : α → Json) (values : List α) : Json := array (values.map encode)

end Json
end LimitBook
