import FlinkPractices.Lib.PyStr
import FlinkPractices.Proto.Messages

/-!
# The protobuf mapper (`infrastructure/serialization/protobuf_mapper.py`)

`json_to_trade_proto` and `json_to_orderbook_proto`: from the JSON payload of an exchange straight
to protobuf.  Numbers go through `float()` and `int()`, which also accept strings; what they make
of a string is a parameter (`NumberSyntax`), and so are the upper-case table and the clock.

* `pyFloat`, `pyInt` — `float(v)` and `int(v)` of a JSON value, with the exceptions they raise
* `toExchangeEnum`, `toAskBidEnum`, `toChangeTypeEnum` — the enumerations by their names, in any
  letter case
* `requiredCode`, `firstTimestamp` — the two checks at the head of both mappers
* `collectLevels` — the loop over `orderbook_units`; a side of a unit gives a level if both of its
  numbers are there
* `jsonToTradeProto`, `jsonToOrderbookProto` — the mappers, with the fields in the order of the
  source, so that of several faults the same one is raised

The two mappers differ from the service's own conversions; `Service.Encoders` and
`Service.TradeEncoders` compare them, and `Proto.Recover` says how much of a payload they keep.
-/

set_option autoImplicit false

namespace FlinkPractices.Proto

open Lib

/-- `float(s)` and `int(s)` of strings. -/
structure NumberSyntax where
  float : String → Option Binary64
  int : String → Option Int

variable (U : UpperTable) (syn : NumberSyntax) (now : DateTime)

/-- `float(v)`. -/
def pyFloat : Json → Except PyExn Binary64
  | .str s =>
    match syn.float s with
    | some x => .ok x
    | none => .error (.valueError "")
  | v => toDouble v

/-- `int(v)`. -/
def pyInt : Json → Except PyExn Int
  | .bool b => .ok b.toNat
  | .int n => .ok n
  | .float x => .ok (x.units.tdiv (2 ^ 1074))
  | .str s =>
    match syn.int s with
    | some n => .ok n
    | none => .error (.valueError "")
  | _ => .error (.typeError "")

/-- `_now_timestamp_utc`. -/
def nowTimestampUtc : Timestamp :=
  ⟨now.micros.tdiv 1000000, now.micros % 1000000 * 1000⟩

/-- `_timestamp_from_millis`. -/
def timestampFromMillis (ms : Int) : Except PyExn Timestamp := do
  let seconds ← int64 (ms / 1000)
  return ⟨seconds, ms % 1000 * 1000000⟩

/-! ## Enumerations -/

/-- `_normalize_exchange_name`. -/
def normalizeExchangeName (name : String) : String :=
  if name = "" then "" else upper U (strip name)

/-- `_to_exchange_enum`. -/
def toExchangeEnum (exchangeName : String) : Exchange :=
  if normalizeExchangeName U exchangeName = "UPBIT" then .upbit else .unspecified

/-- `_ASK_BID_MAP.get`. -/
def askBidMap : String → AskBid
  | "ASK" => .ask
  | "BID" => .bid
  | _ => .unspecified

/-- `_CHANGE_TYPE_MAP.get`. -/
def changeTypeMap : String → ChangeType
  | "RISE" => .rise
  | "EVEN" => .even
  | "FALL" => .fall
  | _ => .unspecified

/-- `value.upper()` of a value that is not falsy; only strings have it. -/
def enumOf {α : Type} (unspecified : α) (table : String → α) (value : Json) : Except PyExn α :=
  if value.truthy then
    match value with
    | .str s => .ok (table (upper U s))
    | _ => .error (.attributeError "")
  else .ok unspecified

/-- `_to_ask_bid_enum`. -/
def toAskBidEnum : Json → Except PyExn AskBid := enumOf U .unspecified askBidMap

/-- `_to_change_type_enum`. -/
def toChangeTypeEnum : Json → Except PyExn ChangeType := enumOf U .unspecified changeTypeMap

/-! ## The two mappers -/

/-- `data.get(key)`. -/
def pyGet (data : Dict) (key : String) : Json := data.getD key .null

/-- `float(v) if v is not None else 0.0`. -/
def floatOrZero : Json → Except PyExn Binary64
  | .null => .ok Binary64.zero
  | v => pyFloat syn v

/-- `int(v) if v is not None else 0`. -/
def intOrZero : Json → Except PyExn Int
  | .null => .ok 0
  | v => pyInt syn v

/-- `data.get(first)`, or `data.get(second)` if that is `None`; `None` is an error. -/
def firstTimestamp (data : Dict) (first second message : String) : Except PyExn Json :=
  match pyGet data first with
  | .null =>
    match pyGet data second with
    | .null => .error (.valueError message)
    | v => .ok v
  | v => .ok v

/-- `code = data.get("code")`, which must not be falsy. -/
def requiredCode (data : Dict) (message : String) : Except PyExn Json :=
  if (pyGet data "code").truthy then .ok (pyGet data "code")
  else .error (.valueError message)

/-- `json_to_trade_proto`. -/
def jsonToTradeProto (data : Json) (exchangeName : String) : Except PyExn Trade :=
  match data with
  | .dict d => do
    let code ← requiredCode d "'code' is required in trade message"
    let tradeTsMs ← firstTimestamp d "trade_timestamp" "timestamp"
      "'trade_timestamp' or 'timestamp' is required for trade message"
    let tradePrice ← floatOrZero syn (pyGet d "trade_price")
    let tradeVolume ← floatOrZero syn (pyGet d "trade_volume")
    let askBid ← toAskBidEnum U (pyGet d "ask_bid")
    let prevClosingPrice ← floatOrZero syn (pyGet d "prev_closing_price")
    let change ← toChangeTypeEnum U (pyGet d "change")
    let changePrice ← floatOrZero syn (pyGet d "change_price")
    let tradeTimestamp ← timestampFromMillis (← pyInt syn tradeTsMs)
    let sequentialId ← intOrZero syn (pyGet d "sequential_id")
    -- the constructor of the message checks the types
    let code ← stringField code
    let sequentialId ← int64 sequentialId
    return {
      exchange := toExchangeEnum U exchangeName
      code, tradePrice, tradeVolume, askBid, prevClosingPrice, change, changePrice
      tradeTimestamp, sequentialId
      streamType := .realtime
      receivedTimestamp := nowTimestampUtc now }
  | _ => .error (.typeError "data must be a dict")

/-- A level, if both of its numbers are there. -/
def levelOf (price size : Json) : Except PyExn (List OrderBookLevel) :=
  match price, size with
  | .null, _ => .ok []
  | _, .null => .ok []
  | price, size => do
    let price ← pyFloat syn price
    let size ← pyFloat syn size
    return [⟨price, size⟩]

/-- The ask and the bid of one unit. -/
def unitLevels : Json → Except PyExn (List OrderBookLevel × List OrderBookLevel)
  | .dict u => do
    let ask ← levelOf syn (pyGet u "ask_price") (pyGet u "ask_size")
    let bid ← levelOf syn (pyGet u "bid_price") (pyGet u "bid_size")
    return (ask, bid)
  | _ => .error (.attributeError "")

/-- The loop over `orderbook_units`. -/
def collectLevels : List Json → Except PyExn (List OrderBookLevel × List OrderBookLevel)
  | [] => .ok ([], [])
  | u :: us => do
    let (ask, bid) ← unitLevels syn u
    let (asks, bids) ← collectLevels us
    return (ask ++ asks, bid ++ bids)

/-- `for … in v`. -/
def iterate (v : Json) : Except PyExn (List Json) :=
  match v.iter with
  | some xs => .ok xs
  | none => .error (.typeError "")

/-- `json_to_orderbook_proto`. -/
def jsonToOrderbookProto (data : Json) (exchangeName : String) : Except PyExn OrderBookUpdate :=
  match data with
  | .dict d => do
    let code ← requiredCode d "'code' is required in orderbook message"
    let tsMs ← firstTimestamp d "timestamp" "event_timestamp"
      "'timestamp' (ms) is required in orderbook message"
    let units := Dict.getD d "orderbook_units" (.list [])
    let (asks, bids) ← collectLevels syn (← iterate (if units.truthy then units else .list []))
    let totalAskSize ← floatOrZero syn (pyGet d "total_ask_size")
    let totalBidSize ← floatOrZero syn (pyGet d "total_bid_size")
    let eventTimestamp ← timestampFromMillis (← pyInt syn tsMs)
    let code ← stringField code
    return {
      exchange := toExchangeEnum U exchangeName
      code, totalAskSize, totalBidSize, asks, bids
      streamType := .realtime
      eventTimestamp
      receivedTimestamp := nowTimestampUtc now }
  | _ => .error (.typeError "data must be a dict")

end FlinkPractices.Proto
