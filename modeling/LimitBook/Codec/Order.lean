import LimitBook.Order
import LimitBook.Json.Record

/-! Orders in JSON: prices, numbers and volumes are whole numbers, sides and kinds are choices. -/
namespace LimitBook

namespace Fixed
variable {places : Nat}

def toJson (number : Fixed places) : Json := .whole number.raw

def ofJson? : Json → Option (Fixed places)
  | .whole value => ofRaw? value
  | _ => none

end Fixed

namespace Volume

def toJson (volume : Volume) : Json := .ofNat volume.units

def ofJson? (json : Json) : Option Volume := json.word?.map ofWord

end Volume

namespace OrderId

def toJson (id : OrderId) : Json := .ofNat id.number

def ofJson? (json : Json) : Option OrderId := json.word?.map ofWord

end OrderId

namespace Side

def toJson : Side → Json
  | buy => .ofString "Buy"
  | sell => .ofString "Sell"

def ofJson? (json : Json) : Option Side :=
  match json.choice? with
  | some (name, content) =>
    if !Json.isBare content then none
    else if name = "Buy".toList then some buy
    else if name = "Sell".toList then some sell
    else none
  | none => none

end Side

namespace OrderKind

def toJson : OrderKind → Json
  | market => .ofString "Market"
  | limit price => .ofFields [("Limit", .ofFields [("price", price.toJson)])]
  | stop trigger bound =>
    .ofFields [("Stop", .ofFields [("trigger", trigger.toJson), ("limit", .ofOption Fixed.toJson bound)])]
  | cancel target => .ofFields [("Cancel", .ofFields [("target", target.toJson)])]

def decode? (contents? : List String → Json → Option (List (Option Json))) (json : Json) : Option OrderKind := do
  let (name, content) ← json.choice?
  if name = "Market".toList then
    if Json.isBare content then return market else none
  else
    let content ← content
    if name = "Limit".toList then
      match ← contents? ["price"] content with
      | [some price] => return limit (← Fixed.ofJson? price)
      | _ => none
    else if name = "Stop".toList then
      match ← contents? ["trigger", "limit"] content with
      | [some trigger, bound] => return stop (← Fixed.ofJson? trigger) (← Json.optional? Fixed.ofJson? bound)
      | _ => none
    else if name = "Cancel".toList then
      match ← contents? ["target"] content with
      | [some target] => return cancel (← OrderId.ofJson? target)
      | _ => none
    else none

def ofJson? : Json → Option OrderKind := decode? Json.record?

-- What a kind carries has to be named here, where `ofJson?` also takes an array.
def ofNamedJson? : Json → Option OrderKind := decode? Json.fields?

end OrderKind

namespace Order

def toJson (order : Order) : Json := .ofFields [
  ("id", order.id.toJson),
  ("side", .ofOption Side.toJson order.side),
  ("order_type", order.kind.toJson),
  ("volume", order.volume.toJson),
  ("remaining", order.remaining.toJson),
  ("cancelled", .bool order.cancelled),
  ("executed", .bool order.executed),
  ("triggered", .bool order.triggered)]

def decode? (kind? : Json → Option OrderKind) (json : Json) : Option Order := do
  match ← json.record? ["id", "side", "order_type", "volume", "remaining", "cancelled", "executed", "triggered"] with
  | [some id, side, some kind, some volume, some remaining, some cancelled, some executed, some triggered] =>
    return {
      id := ← OrderId.ofJson? id
      side := ← Json.optional? Side.ofJson? side
      kind := ← kind? kind
      volume := ← Volume.ofJson? volume
      remaining := ← Volume.ofJson? remaining
      cancelled := ← cancelled.bool?
      executed := ← executed.bool?
      triggered := ← triggered.bool? }
  | _ => none

def ofJson? : Json → Option Order := decode? OrderKind.ofJson?

def ofNamedJson? : Json → Option Order := decode? OrderKind.ofNamedJson?

end Order
end LimitBook
