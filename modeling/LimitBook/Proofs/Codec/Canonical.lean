import LimitBook.Proofs.Codec.Lawful
import LimitBook.Proofs.Fixed.RoundTrip

/-! Serialized values read back from their texts, and what a decoder takes no notice of. -/
namespace LimitBook

namespace Json
variable {α : Type} {encode : α → Json} {decode : Json → Option α}

structure Canonical (encode : α → Json) (decode : Json → Option α) : Prop where
  decoded (value : α) : decode (encode value) = some value
  read (value : α) : Json.read? (encode value).text.toList = some (encode value)
  kept (json : Json) :
    ((decode json).bind fun value => (Json.read? (encode value).text.toList).bind decode) = decode json
  distinct : Function.Injective fun value => (encode value).text

def Lenient (names optional : List String) (decode : Json → Option α) : Prop :=
  ∀ wide narrow, Widened names optional wide narrow → decode (object wide) = decode (object narrow)

def Unwrapping (decode : Json → Option α) : Prop :=
  ∀ name, decode (object [(some name, null)]) = decode (string (some name))

private theorem Lawful.canonical (lawful : Lawful encode decode) : Canonical encode decode := by
  have read : ∀ value, Json.read? (encode value).text.toList = some (encode value) := by
    intro value
    rw [text, String.toList_ofList, read?_print (lawful.exact value)]
  have back : ∀ value, (Json.read? (encode value).text.toList).bind decode = some value := by
    intro value
    rw [read, Option.bind_some, lawful.decoded]
  refine ⟨lawful.decoded, read, fun json => ?_, fun one other same => ?_⟩
  · simp only [back]
    cases decode json <;> rfl
  · have decoded := back one
    rw [show (encode one).text = (encode other).text from same, back] at decoded
    exact (Option.some.inj decoded).symm

/-- A decoder that looks at nothing but the fields of some names takes no notice of others. -/
theorem lenient_of_pick? {names : List String} {next : List (Option Json) → Option α}
    (factors : ∀ fields, decode (object fields) = (pick? names fields).bind next) : Lenient names [] decode := by
  intro wide narrow widened
  rw [factors, factors, widened.pick?_same]

/-- So does one that takes null for no value where a field is optional. -/
theorem lenient_of_filled {names optional : List String} {build : List (Option Json) → Option α}
    (factors : ∀ fields, decode (object fields) = (pick? names fields).bind build)
    (alike : ∀ values, values.length = names.length → build (List.zipWith (filled optional) names values)
      = build values) :
    Lenient names optional decode := by
  intro wide narrow widened
  rw [factors, factors, widened.pick?_bind alike]

end Json

open Json

namespace Order

def fieldNames : List String :=
  ["id", "side", "order_type", "volume", "remaining", "cancelled", "executed", "triggered"]

theorem lenient (kind? : Json → Option OrderKind) : Lenient fieldNames ["side"] (decode? kind?) := by
  refine lenient_of_filled (fun _ => rfl) fun values sized => ?_
  match values, sized with
  | [id, side, kind, volume, remaining, cancelled, executed, triggered], _ =>
    cases side with
    | some => rfl
    | none =>
      cases id <;> cases kind <;> cases volume <;> cases remaining <;> cases cancelled <;> cases executed <;>
        cases triggered <;> rfl

end Order

namespace Trade

def fieldNames : List String := ["taker", "maker", "volume", "price"]

theorem lenient : Lenient fieldNames [] ofJson? := lenient_of_pick? fun _ => rfl

end Trade

namespace Config

def fieldNames : List String := ["instrument", "tick_size", "lot_size"]

theorem lenient : Lenient fieldNames ["tick_size", "lot_size"] ofJson? := by
  refine lenient_of_filled (fun _ => rfl) fun values sized => ?_
  match values, sized with
  | [instrument, tickSize, lotSize], _ => cases instrument <;> cases tickSize <;> cases lotSize <;> rfl

end Config

namespace Snapshot

def fieldNames : List String := ["instrument", "bids", "asks", "spread", "last_price", "pending_stops"]

theorem lenient : Lenient fieldNames ["spread", "last_price"] ofJson? := by
  refine lenient_of_filled (fun _ => rfl) fun values sized => ?_
  match values, sized with
  | [instrument, bids, asks, spread, lastPrice, pendingStops], _ =>
    cases instrument <;> cases bids <;> cases asks <;> cases spread <;> cases lastPrice <;> cases pendingStops <;> rfl

end Snapshot

namespace OrderKind
variable {contents? : List String → Json → Option (List (Option Json))}

def contents : List (String × List String × List String) :=
  [("Limit", ["price"], []), ("Stop", ["trigger", "limit"], ["limit"]), ("Cancel", ["target"], [])]

theorem lenient (picks : ∀ names fields, contents? names (object fields) = pick? names fields) :
    ∀ entry ∈ contents, Lenient entry.2.1 entry.2.2 fun content =>
      decode? contents? (ofFields [(entry.1, content)]) := by
  simp only [contents, List.forall_mem_cons]
  refine ⟨?_, ?_, ?_, List.forall_mem_nil _⟩
  · exact lenient_of_pick? fun fields => by rw [decode?_limit, picks]; rfl
  · intro wide narrow widened
    simp only [decode?_stop, picks]
    refine widened.pick?_bind fun values sized => ?_
    match values, sized with
    | [trigger, bound], _ => cases trigger <;> cases bound <;> rfl
  · exact lenient_of_pick? fun fields => by rw [decode?_cancel, picks]; rfl

/-- A kind that carries something is read neither from its name alone nor from its name with nothing. -/
theorem unwrapping (empty : ∀ names, contents? names .null = none) : Unwrapping (decode? contents?) := by
  intro name
  by_cases market : name = "Market".toList
  · subst market
    rfl
  · simp only [decode?, choice?, Option.bind_eq_bind, Option.bind_some, Option.bind_none, if_neg market, empty,
      ite_self]

end OrderKind

namespace Event

def contents : List (String × List String) :=
  [("OrderAccepted", ["order_id"]), ("OrderRejected", ["reason"]),
    ("OrderRested", ["order_id", "side", "price", "remaining"]), ("StopPending", ["order_id", "trigger"]),
    ("OrderMatched", ["matched"]), ("StopTriggered", ["order_id", "price"]),
    ("OrderCancelled", ["order_id", "reason"]), ("CancelIgnored", ["order_id", "target"]), ("BookHalted", ["reason"])]

theorem lenient : ∀ entry ∈ contents, Lenient entry.2 [] fun content => ofJson? (ofFields [(entry.1, content)]) := by
  simp only [contents, List.forall_mem_cons]
  refine ⟨?_, ?_, ?_, ?_, ?_, ?_, ?_, ?_, ?_, List.forall_mem_nil _⟩ <;> exact lenient_of_pick? fun _ => rfl

end Event

private theorem Side.unwrapping : Unwrapping Side.ofJson? := fun _ => rfl

private theorem CancelReason.unwrapping : Unwrapping CancelReason.ofJson? := fun _ => rfl

/-- Orders in any state, trades, configurations, snapshots and events are read back from their JSON texts. The
text of a value is the canonical form of all that is decoded as it: of objects with fields nobody asks for, with
null or nothing where no value is needed, and with kinds, sides and reasons that carry nothing as single fields. -/
theorem encodings_canonical :
    Canonical Order.toJson Order.ofJson? ∧ Canonical Order.toJson Order.ofNamedJson?
    ∧ Canonical Trade.toJson Trade.ofJson?
    ∧ Canonical Config.toJson Config.ofJson? ∧ Canonical Snapshot.toJson Snapshot.ofJson?
    ∧ Canonical Event.toJson Event.ofJson?
    ∧ Lenient Order.fieldNames ["side"] Order.ofJson? ∧ Lenient Order.fieldNames ["side"] Order.ofNamedJson?
    ∧ Lenient Trade.fieldNames [] Trade.ofJson? ∧ Lenient Config.fieldNames ["tick_size", "lot_size"] Config.ofJson?
    ∧ Lenient Snapshot.fieldNames ["spread", "last_price"] Snapshot.ofJson?
    ∧ (∀ entry ∈ Event.contents, Lenient entry.2 [] fun content => Event.ofJson? (ofFields [(entry.1, content)]))
    ∧ (∀ entry ∈ OrderKind.contents,
      Lenient entry.2.1 entry.2.2 (fun content => OrderKind.ofJson? (ofFields [(entry.1, content)]))
      ∧ Lenient entry.2.1 entry.2.2 fun content => OrderKind.ofNamedJson? (ofFields [(entry.1, content)]))
    ∧ Unwrapping OrderKind.ofJson? ∧ Unwrapping OrderKind.ofNamedJson? ∧ Unwrapping Side.ofJson?
    ∧ Unwrapping CancelReason.ofJson? := by
  have records := (Order.lawful OrderKind.lawful_record).canonical
  have named := (Order.lawful OrderKind.lawful_fields).canonical
  refine ⟨records, named, Trade.lawful.canonical, Config.lawful.canonical, Snapshot.lawful.canonical,
    Event.lawful.canonical, Order.lenient _, Order.lenient _, Trade.lenient, Config.lenient, Snapshot.lenient,
    Event.lenient, fun entry listed => ⟨?_, ?_⟩, OrderKind.unwrapping fun _ => rfl, OrderKind.unwrapping fun _ => rfl,
    Side.unwrapping, CancelReason.unwrapping⟩
  · exact OrderKind.lenient (fun _ _ => rfl) entry listed
  · exact OrderKind.lenient (fun _ _ => rfl) entry listed

def stray : Order where
  id := ⟨Volume.greatest.units, Volume.greatest.fits⟩
  side := none
  kind := .stop .least (some 0)
  volume := 0
  remaining := .greatest
  cancelled := true
  executed := true
  triggered := false

/-- The stray order is read back, and a lot that is null beside a field nobody asks for is a configuration
without either. -/
theorem encodings_canonical_stray :
    stray.toJson.text = "\x7b\"id\":18446744073709551615,\"side\":null,\"order_type\":\x7b\"Stop\":\x7b\"trigger\":"
      ++ "-9223372036854775808,\"limit\":0\x7d\x7d,\"volume\":0,\"remaining\":18446744073709551615,"
      ++ "\"cancelled\":true,\"executed\":true,\"triggered\":false\x7d"
    ∧ Json.read? stray.toJson.text.toList = some stray.toJson ∧ Order.ofJson? stray.toJson = some stray
    ∧ Widened Config.fieldNames ["tick_size", "lot_size"]
      [(some "note".toList, .numeral "1.5".toList), (some "instrument".toList, ofString "TEST"),
        (some "lot_size".toList, .null)]
      [(some "instrument".toList, ofString "TEST")]
    ∧ Config.ofJson? (.object [(some "note".toList, .numeral "1.5".toList), (some "instrument".toList, ofString "TEST"),
      (some "lot_size".toList, .null)]) = some (.plain "TEST") := by
  have bare : Widened Config.fieldNames ["tick_size", "lot_size"]
      ([(some "instrument".toList, ofString "TEST")] ++ (some "lot_size".toList, .null) :: [])
      [(some "instrument".toList, ofString "TEST")] :=
    .null (by decide) (by simp) (.same _)
  have widened : Widened Config.fieldNames ["tick_size", "lot_size"]
      ([] ++ (some "note".toList, .numeral "1.5".toList)
        :: [(some "instrument".toList, ofString "TEST"), (some "lot_size".toList, .null)])
      [(some "instrument".toList, ofString "TEST")] :=
    .unknown _ (by decide) bare
  refine ⟨by decide +kernel, encodings_canonical.1.read stray, encodings_canonical.1.decoded stray, widened, ?_⟩
  refine (encodings_canonical.2.2.2.2.2.2.2.2.2.1 _ _ widened).trans ?_
  decide

end LimitBook
