import LimitBook.Codec.Report
import LimitBook.Proofs.Json.Reading
import LimitBook.Proofs.Json.Record

/-! Serialized values are decoded from what they are encoded as, in which all numbers are whole. -/
namespace LimitBook

namespace Json
variable {α : Type} {encode : α → Json} {decode : Json → Option α}

structure Lawful (encode : α → Json) (decode : Json → Option α) : Prop where
  decoded (value : α) : decode (encode value) = some value
  exact (value : α) : Exact (encode value)

private theorem Lawful.optional (lawful : Lawful encode decode) (filled : ∀ value, encode value ≠ null)
    (value : Option α) :
    optional? decode (some (ofOption encode value)) = some value := by
  cases value with
  | none => rfl
  | some value =>
    rw [ofOption, optional?, lawful.decoded, Option.map_some]
    exact filled value

private theorem Lawful.list (lawful : Lawful encode decode) : Lawful (ofList encode) (list? decode) where
  decoded values := by
    have each : ∀ value ∈ values, (decode ∘ encode) value = some value := fun value _ => lawful.decoded value
    rw [ofList, list?, List.mapM_map, mapM_eq_some_map each, List.map_id']
  exact values := by
    refine .array fun item member => ?_
    obtain ⟨value, -, rfl⟩ := List.mem_map.mp member
    exact lawful.exact value

theorem lawful_text : Lawful ofString text? where
  decoded text := by simp [ofString, text?]
  exact _ := .string _

private theorem Lawful.exact_ofOption (lawful : Lawful encode decode) (value : Option α) :
    Exact (ofOption encode value) := by
  cases value with
  | none => exact .null
  | some value => exact lawful.exact value

private theorem exact_ofFields {entries : List (String × Json)} (exact : ∀ entry ∈ entries, Exact entry.2) :
    Exact (ofFields entries) := by
  refine .object fun field member => ?_
  obtain ⟨entry, listed, rfl⟩ := List.mem_map.mp member
  exact exact entry listed

end Json

open Json

private theorem Word.ofNat?_val {number : Nat} (fits : number < 0x1_0000_0000_0000_0000) :
    ofNat? number = some ⟨number, fits⟩ :=
  dif_pos fits

theorem Fixed.lawful {places : Nat} : Lawful (toJson : Fixed places → Json) ofJson? where
  decoded number := dif_pos ⟨number.lower, number.upper⟩
  exact _ := .whole _

private theorem Fixed.optional {places : Nat} (number : Option (Fixed places)) :
    optional? ofJson? (some (ofOption toJson number)) = some number :=
  lawful.optional (fun _ => nofun) number

theorem Volume.lawful : Lawful Volume.toJson Volume.ofJson? where
  decoded volume := by
    have read : volume.toJson.word? = some ⟨volume.units, volume.fits⟩ := Word.ofNat?_val volume.fits
    rw [ofJson?, read]
    rfl
  exact _ := .whole _

theorem OrderId.lawful : Lawful OrderId.toJson OrderId.ofJson? where
  decoded id := by
    have read : id.toJson.word? = some ⟨id.number, id.fits⟩ := Word.ofNat?_val id.fits
    rw [ofJson?, read]
    rfl
  exact _ := .whole _

theorem Side.lawful : Lawful Side.toJson Side.ofJson? where
  decoded side := by cases side <;> decide
  exact side := by cases side <;> exact .string _

theorem CancelReason.lawful : Lawful CancelReason.toJson CancelReason.ofJson? where
  decoded reason := by cases reason <;> decide
  exact reason := by cases reason <;> exact .string _

namespace OrderKind
variable {contents? : List String → Json → Option (List (Option Json))}

/-- What a single kind carries is read on its own. -/
theorem decode?_limit (content : Json) : decode? contents? (.ofFields [("Limit", content)])
    = (contents? ["price"] content >>= fun
      | [some price] => Fixed.ofJson? price >>= fun price => some (limit price)
      | _ => none) := rfl

theorem decode?_stop (content : Json) : decode? contents? (.ofFields [("Stop", content)])
    = (contents? ["trigger", "limit"] content >>= fun
      | [some trigger, bound] =>
        Fixed.ofJson? trigger >>= fun trigger => optional? Fixed.ofJson? bound >>= fun bound =>
          some (stop trigger bound)
      | _ => none) := rfl

theorem decode?_cancel (content : Json) : decode? contents? (.ofFields [("Cancel", content)])
    = (contents? ["target"] content >>= fun
      | [some target] => OrderId.ofJson? target >>= fun target => some (cancel target)
      | _ => none) := rfl

/-- A kind is read back by any reader of what a kind carries that reads the fields of an object. -/
theorem lawful
    (named : ∀ entries : List (String × Json), (entries.map (·.1)).Nodup →
      contents? (entries.map (·.1)) (ofFields entries) = some (entries.map fun entry => some entry.2)) :
    Lawful toJson (decode? contents?) where
  decoded kind := by
    cases kind with
    | market => rfl
    | limit price =>
      have read : contents? ["price"] (ofFields [("price", price.toJson)]) = some [some price.toJson] :=
        named [("price", price.toJson)] (List.nodup_singleton _)
      rw [toJson, decode?_limit, read]
      simp only [Option.bind_eq_bind, Option.bind_some, Fixed.lawful.decoded]
    | stop trigger bound =>
      have distinct : ["trigger", "limit"].Nodup := by decide
      have read : contents? ["trigger", "limit"]
          (ofFields [("trigger", trigger.toJson), ("limit", ofOption Fixed.toJson bound)])
          = some [some trigger.toJson, some (ofOption Fixed.toJson bound)] :=
        named [("trigger", trigger.toJson), ("limit", ofOption Fixed.toJson bound)] distinct
      rw [toJson, decode?_stop, read]
      simp only [Option.bind_eq_bind, Option.bind_some, Fixed.lawful.decoded, Fixed.optional]
    | cancel target =>
      have read : contents? ["target"] (ofFields [("target", target.toJson)]) = some [some target.toJson] :=
        named [("target", target.toJson)] (List.nodup_singleton _)
      rw [toJson, decode?_cancel, read]
      simp only [Option.bind_eq_bind, Option.bind_some, OrderId.lawful.decoded]
  exact kind := by
    cases kind with
    | market => exact .string _
    | limit price => simp [toJson, exact_ofFields, Fixed.lawful.exact]
    | stop trigger bound => simp [toJson, exact_ofFields, Fixed.lawful.exact, Fixed.lawful.exact_ofOption]
    | cancel target => simp [toJson, exact_ofFields, OrderId.lawful.exact]

theorem lawful_record : Lawful toJson ofJson? := lawful fun _ => record?_ofFields

theorem lawful_fields : Lawful toJson ofNamedJson? := lawful fun _ => fields?_ofFields

end OrderKind

namespace Order

theorem lawful {kind? : Json → Option OrderKind} (kinds : Lawful OrderKind.toJson kind?) :
    Lawful toJson (decode? kind?) where
  decoded order := by
    have distinct :
        ["id", "side", "order_type", "volume", "remaining", "cancelled", "executed", "triggered"].Nodup := by
      decide
    have read : order.toJson.record?
        ["id", "side", "order_type", "volume", "remaining", "cancelled", "executed", "triggered"]
        = some [some order.id.toJson, some (ofOption Side.toJson order.side), some order.kind.toJson,
          some order.volume.toJson, some order.remaining.toJson, some (.bool order.cancelled),
          some (.bool order.executed), some (.bool order.triggered)] :=
      record?_ofFields distinct
    have sided := Side.lawful.optional (fun side => by cases side <;> nofun) order.side
    rw [decode?, read]
    simp only [Option.bind_eq_bind, Option.bind_some, OrderId.lawful.decoded, sided, kinds.decoded,
      Volume.lawful.decoded, bool?]
    rfl
  exact order := by
    simp [toJson, exact_ofFields, OrderId.lawful.exact, Side.lawful.exact_ofOption, kinds.exact,
      Volume.lawful.exact, Exact.bool]

end Order

namespace Trade

theorem lawful : Lawful toJson ofJson? where
  decoded trade := by
    have distinct : ["taker", "maker", "volume", "price"].Nodup := by decide
    have read : trade.toJson.record? ["taker", "maker", "volume", "price"]
        = some [some trade.taker.toJson, some trade.maker.toJson, some trade.volume.toJson, some trade.price.toJson] :=
      record?_ofFields distinct
    rw [ofJson?, read]
    simp only [Option.bind_eq_bind, Option.bind_some, OrderId.lawful.decoded, Volume.lawful.decoded,
      Fixed.lawful.decoded]
    rfl
  exact trade := by
    simp [toJson, exact_ofFields, OrderId.lawful.exact, Volume.lawful.exact, Fixed.lawful.exact]

end Trade

namespace Config

theorem lawful : Lawful toJson ofJson? where
  decoded config := by
    have distinct : ["instrument", "tick_size", "lot_size"].Nodup := by decide
    have read : config.toJson.record? ["instrument", "tick_size", "lot_size"]
        = some [some (ofString config.instrument), some (ofOption Fixed.toJson config.tickSize),
          some (ofOption Volume.toJson config.lotSize)] :=
      record?_ofFields distinct
    rw [ofJson?, read]
    simp only [Option.bind_eq_bind, Option.bind_some, lawful_text.decoded, Fixed.optional,
      Volume.lawful.optional (fun _ => nofun)]
    rfl
  exact config := by
    simp [toJson, exact_ofFields, lawful_text.exact, Fixed.lawful.exact_ofOption, Volume.lawful.exact_ofOption]

end Config

namespace Level

theorem lawful : Lawful toJson ofJson? where
  decoded level := by
    simp only [toJson, ofJson?, Fixed.lawful.decoded, Volume.lawful.decoded]
    rfl
  exact level := by
    refine .array ?_
    simp [Fixed.lawful.exact, Volume.lawful.exact]

end Level

namespace Snapshot

theorem lawful : Lawful toJson ofJson? where
  decoded snapshot := by
    have distinct : ["instrument", "bids", "asks", "spread", "last_price", "pending_stops"].Nodup := by decide
    have read : snapshot.toJson.record? ["instrument", "bids", "asks", "spread", "last_price", "pending_stops"]
        = some [some (ofString snapshot.instrument), some (ofList Level.toJson snapshot.bids),
          some (ofList Level.toJson snapshot.asks), some (ofOption Fixed.toJson snapshot.spread),
          some (ofOption Fixed.toJson snapshot.lastPrice), some (ofNat snapshot.pendingStops.toNat)] :=
      record?_ofFields distinct
    have counted : (ofNat snapshot.pendingStops.toNat).word?
        = some ⟨snapshot.pendingStops.toNat, snapshot.pendingStops.toNat_lt⟩ :=
      Word.ofNat?_val snapshot.pendingStops.toNat_lt
    rw [ofJson?, read]
    simp only [Option.bind_eq_bind, Option.bind_some, lawful_text.decoded, Level.lawful.list.decoded,
      Fixed.optional, counted, UInt64.ofNat_toNat]
    rfl
  exact snapshot := by
    have counted : Exact (ofNat snapshot.pendingStops.toNat) := .whole _
    simp [toJson, exact_ofFields, lawful_text.exact, Fixed.lawful.exact_ofOption, Level.lawful.list.exact, counted]

end Snapshot

namespace Event

theorem lawful : Lawful toJson ofJson? where
  decoded event := by
    cases event with
    | accepted id =>
      change (fields? ["order_id"] (ofFields [("order_id", id.toJson)]) >>= _) = _
      rw [fields?_single]
      simp only [Option.bind_eq_bind, Option.bind_some, OrderId.lawful.decoded]
      rfl
    | rejected reason =>
      change (fields? ["reason"] (ofFields [("reason", ofString reason)]) >>= _) = _
      rw [fields?_single]
      simp only [Option.bind_eq_bind, Option.bind_some, lawful_text.decoded]
      rfl
    | rested id side price remaining =>
      have distinct : ["order_id", "side", "price", "remaining"].Nodup := by decide
      have read : fields? ["order_id", "side", "price", "remaining"]
          (ofFields [("order_id", id.toJson), ("side", side.toJson), ("price", price.toJson),
            ("remaining", remaining.toJson)])
          = some [some id.toJson, some side.toJson, some price.toJson, some remaining.toJson] :=
        fields?_ofFields distinct
      change (fields? ["order_id", "side", "price", "remaining"]
        (ofFields [("order_id", id.toJson), ("side", side.toJson), ("price", price.toJson),
          ("remaining", remaining.toJson)]) >>= _) = _
      rw [read]
      simp only [Option.bind_eq_bind, Option.bind_some, OrderId.lawful.decoded, Side.lawful.decoded,
        Fixed.lawful.decoded, Volume.lawful.decoded]
      rfl
    | stopPending id trigger =>
      change (fields? ["order_id", "trigger"]
        (ofFields [("order_id", id.toJson), ("trigger", trigger.toJson)]) >>= _) = _
      rw [fields?_pair (by decide)]
      simp only [Option.bind_eq_bind, Option.bind_some, OrderId.lawful.decoded, Fixed.lawful.decoded]
      rfl
    | matched trade =>
      change (fields? ["matched"] (ofFields [("matched", trade.toJson)]) >>= _) = _
      rw [fields?_single]
      simp only [Option.bind_eq_bind, Option.bind_some, Trade.lawful.decoded]
      rfl
    | stopTriggered id price =>
      change (fields? ["order_id", "price"] (ofFields [("order_id", id.toJson), ("price", price.toJson)]) >>= _) = _
      rw [fields?_pair (by decide)]
      simp only [Option.bind_eq_bind, Option.bind_some, OrderId.lawful.decoded, Fixed.lawful.decoded]
      rfl
    | cancelled id reason =>
      change (fields? ["order_id", "reason"] (ofFields [("order_id", id.toJson), ("reason", reason.toJson)]) >>= _) = _
      rw [fields?_pair (by decide)]
      simp only [Option.bind_eq_bind, Option.bind_some, OrderId.lawful.decoded, CancelReason.lawful.decoded]
      rfl
    | cancelIgnored id target =>
      change (fields? ["order_id", "target"] (ofFields [("order_id", id.toJson), ("target", target.toJson)]) >>= _) = _
      rw [fields?_pair (by decide)]
      simp only [Option.bind_eq_bind, Option.bind_some, OrderId.lawful.decoded]
      rfl
    | halted reason =>
      change (fields? ["reason"] (ofFields [("reason", ofString reason)]) >>= _) = _
      rw [fields?_single]
      simp only [Option.bind_eq_bind, Option.bind_some, lawful_text.decoded]
      rfl
  exact event := by
    cases event <;>
      simp [toJson, exact_ofFields, OrderId.lawful.exact, lawful_text.exact, Side.lawful.exact, Fixed.lawful.exact,
        Volume.lawful.exact, Trade.lawful.exact, CancelReason.lawful.exact]

end Event

end LimitBook
