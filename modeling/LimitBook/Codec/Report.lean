import LimitBook.Codec.Order
import LimitBook.Config
import LimitBook.Event
import LimitBook.Snapshot

/-! Trades, configurations, snapshots and events in JSON. -/
namespace LimitBook

namespace Trade

def toJson (trade : Trade) : Json := .ofFields [
  ("taker", trade.taker.toJson),
  ("maker", trade.maker.toJson),
  ("volume", trade.volume.toJson),
  ("price", trade.price.toJson)]

def ofJson? (json : Json) : Option Trade := do
  match ← json.record? ["taker", "maker", "volume", "price"] with
  | [some taker, some maker, some volume, some price] =>
    return ⟨← OrderId.ofJson? taker, ← OrderId.ofJson? maker, ← Volume.ofJson? volume, ← Fixed.ofJson? price⟩
  | _ => none

end Trade

namespace Config

def toJson (config : Config) : Json := .ofFields [
  ("instrument", .ofString config.instrument),
  ("tick_size", .ofOption Fixed.toJson config.tickSize),
  ("lot_size", .ofOption Volume.toJson config.lotSize)]

def ofJson? (json : Json) : Option Config := do
  match ← json.record? ["instrument", "tick_size", "lot_size"] with
  | [some instrument, tickSize, lotSize] =>
    return ⟨← instrument.text?, ← Json.optional? Fixed.ofJson? tickSize, ← Json.optional? Volume.ofJson? lotSize⟩
  | _ => none

end Config

namespace Level

def toJson (level : Level) : Json := .array [level.price.toJson, level.volume.toJson]

def ofJson? : Json → Option Level
  | .array [price, volume] => do return ⟨← Fixed.ofJson? price, ← Volume.ofJson? volume⟩
  | _ => none

end Level

namespace Snapshot

def toJson (snapshot : Snapshot) : Json := .ofFields [
  ("instrument", .ofString snapshot.instrument),
  ("bids", .ofList Level.toJson snapshot.bids),
  ("asks", .ofList Level.toJson snapshot.asks),
  ("spread", .ofOption Fixed.toJson snapshot.spread),
  ("last_price", .ofOption Fixed.toJson snapshot.lastPrice),
  ("pending_stops", .ofNat snapshot.pendingStops.toNat)]

def ofJson? (json : Json) : Option Snapshot := do
  match ← json.record? ["instrument", "bids", "asks", "spread", "last_price", "pending_stops"] with
  | [some instrument, some bids, some asks, spread, lastPrice, some pendingStops] =>
    return {
      instrument := ← instrument.text?
      bids := ← Json.list? Level.ofJson? bids
      asks := ← Json.list? Level.ofJson? asks
      spread := ← Json.optional? Fixed.ofJson? spread
      lastPrice := ← Json.optional? Fixed.ofJson? lastPrice
      pendingStops := .ofNat (← pendingStops.word?).val }
  | _ => none

end Snapshot

namespace CancelReason

def toJson : CancelReason → Json
  | requested => .ofString "Requested"
  | unfilledMarket => .ofString "UnfilledMarket"

def ofJson? (json : Json) : Option CancelReason :=
  match json.choice? with
  | some (name, content) =>
    if !Json.isBare content then none
    else if name = "Requested".toList then some requested
    else if name = "UnfilledMarket".toList then some unfilledMarket
    else none
  | none => none

end CancelReason

namespace Event

def toJson (event : Event) : Json :=
  let named (name : String) (fields : List (String × Json)) : Json := .ofFields [(name, .ofFields fields)]
  match event with
  | accepted id => named "OrderAccepted" [("order_id", id.toJson)]
  | rejected reason => named "OrderRejected" [("reason", .ofString reason)]
  | rested id side price remaining =>
    named "OrderRested" [("order_id", id.toJson), ("side", side.toJson), ("price", price.toJson),
      ("remaining", remaining.toJson)]
  | stopPending id trigger => named "StopPending" [("order_id", id.toJson), ("trigger", trigger.toJson)]
  | matched trade => named "OrderMatched" [("matched", trade.toJson)]
  | stopTriggered id price => named "StopTriggered" [("order_id", id.toJson), ("price", price.toJson)]
  | cancelled id reason => named "OrderCancelled" [("order_id", id.toJson), ("reason", reason.toJson)]
  | cancelIgnored id target => named "CancelIgnored" [("order_id", id.toJson), ("target", target.toJson)]
  | halted reason => named "BookHalted" [("reason", .ofString reason)]

def ofJson? : Json → Option Event
  | .object [(some name, content)] =>
    if name = "OrderAccepted".toList then do
      match ← content.fields? ["order_id"] with
      | [some id] => return accepted (← OrderId.ofJson? id)
      | _ => none
    else if name = "OrderRejected".toList then do
      match ← content.fields? ["reason"] with
      | [some reason] => return rejected (← reason.text?)
      | _ => none
    else if name = "OrderRested".toList then do
      match ← content.fields? ["order_id", "side", "price", "remaining"] with
      | [some id, some side, some price, some remaining] =>
        return rested (← OrderId.ofJson? id) (← Side.ofJson? side) (← Fixed.ofJson? price) (← Volume.ofJson? remaining)
      | _ => none
    else if name = "StopPending".toList then do
      match ← content.fields? ["order_id", "trigger"] with
      | [some id, some trigger] => return stopPending (← OrderId.ofJson? id) (← Fixed.ofJson? trigger)
      | _ => none
    else if name = "OrderMatched".toList then do
      match ← content.fields? ["matched"] with
      | [some trade] => return matched (← Trade.ofJson? trade)
      | _ => none
    else if name = "StopTriggered".toList then do
      match ← content.fields? ["order_id", "price"] with
      | [some id, some price] => return stopTriggered (← OrderId.ofJson? id) (← Fixed.ofJson? price)
      | _ => none
    else if name = "OrderCancelled".toList then do
      match ← content.fields? ["order_id", "reason"] with
      | [some id, some reason] => return cancelled (← OrderId.ofJson? id) (← CancelReason.ofJson? reason)
      | _ => none
    else if name = "CancelIgnored".toList then do
      match ← content.fields? ["order_id", "target"] with
      | [some id, some target] => return cancelIgnored (← OrderId.ofJson? id) (← OrderId.ofJson? target)
      | _ => none
    else if name = "BookHalted".toList then do
      match ← content.fields? ["reason"] with
      | [some reason] => return halted (← reason.text?)
      | _ => none
    else none
  | _ => none

end Event
end LimitBook
