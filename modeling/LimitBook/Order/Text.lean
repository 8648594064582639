import LimitBook.Order
import LimitBook.Fixed.Text

/-! One line about an order: its number, its marks and what it asks for. -/
namespace LimitBook.Order

private def sideText : Option Side → String
  | some side => side.name
  | none => "unknown side"

private def boundText : Option Side → String
  | some .buy => "<="
  | some .sell => ">="
  | none => "?!?"

private def directionText : Option Side → String
  | some .buy => ">"
  | some .sell => "<"
  | none => "?!?"

private def marks (order : Order) : String :=
  (if order.id.isAssigned then "[id " ++ order.id.text ++ "] " else "")
    ++ (if order.cancelled then "[cancelled] " else "")
    ++ (if order.executed then "[executed] " else "")
    ++ (if order.triggered then "[triggered] " else "")

private def request (order : Order) : String :=
  let opening := order.kind.name ++ " order to " ++ sideText order.side ++ " " ++ order.volume.text ++ " units "
  let closing := ", with " ++ order.remaining.text ++ " remaining"
  match order.kind with
  | .market => opening ++ "at market price" ++ closing
  | .limit price => opening ++ boundText order.side ++ " $" ++ price.text ++ closing
  | .stop trigger limit =>
    opening ++ "if price goes " ++ directionText order.side ++ " " ++ trigger.text
      ++ (match limit with
          | some price => ", then " ++ boundText order.side ++ " $" ++ price.text
          | none => "")
      ++ closing
  | .cancel target => "cancel order that disables #" ++ target.text

def text (order : Order) : String := marks order ++ request order

instance : ToString Order := ⟨text⟩

end LimitBook.Order
