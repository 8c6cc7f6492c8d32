import FlinkPractices.ExchangeConfig
import FlinkPractices.MarketData
import FlinkPractices.Proto.Mapper

/-!
# The conversions of the ingestion service (`application/services/ingestion_service.py`)

What `IngestionService` does with one message, short of publishing it: the market filter, the
conversion to protobuf, the choice of the topic and of the key.  The filter reads the configuration
through `self._connector.config`; `none` stands for a connector without that attribute.

* `isSubscribedMarket` — the filter; without the attribute it raises `AttributeError`
* `convertToTradeProto`, `convertToOrderbookProto` — the two conversions, field by field in the
  order of the source, so that of several faults the same one is raised; what a field accepts is
  `Proto.Messages`
* `convertToProtobuf` — the one for the data type
* `getTopicForMessage`, `keyForMessage` — topic and key

The conversions read `raw_data`, the payload as the exchange sent it, with the names that the author
expected there: an order book's `asks` and `bids` with `price` and `size`.  Whether an exchange
sends these is not a matter of this module (`Service.Encoders`).  Enumerations are looked up in
tables; a value that is not hashable raises `TypeError`.
-/

set_option autoImplicit false

namespace FlinkPractices.Service

open Lib Proto

variable {U : UpperTable}

/-- What the service publishes. -/
inductive ProtoMessage where
  | trade (t : Trade)
  | orderbook (b : OrderBookUpdate)
  deriving DecidableEq, Repr

/-- `_is_subscribed_market`. -/
def isSubscribedMarket (config : Option (ExchangeConfig U)) (message : MarketDataMessage) :
    Except PyExn Bool :=
  match config with
  | some cfg => .ok (cfg.subscribedMarkets.contains (message.code U))
  | none => .error (.attributeError "config")

/-- `table.get(value, unspecified)`; lists and dictionaries are not hashable. -/
def lookup {α : Type} (unspecified : α) (table : String → α) : Json → Except PyExn α
  | .str s => .ok (table s)
  | .list _ => .error (.typeError "")
  | .dict _ => .error (.typeError "")
  | _ => .ok unspecified

/-- `common_pb2.REALTIME if message.stream_type.value == "realtime" else common_pb2.SNAPSHOT`. -/
def protoStreamType (t : FlinkPractices.StreamType) : Proto.StreamType :=
  if t.value = "realtime" then .realtime else .snapshot

/-- `0.0`. -/
def zeroFloat : Json := .float Binary64.zero

/-- `_convert_to_trade_proto`. -/
def convertToTradeProto (U : UpperTable) (message : MarketDataMessage) : Except PyExn Trade := do
  let raw := message.rawData
  let askBid ← lookup .unspecified askBidMap (raw.getD "ask_bid" (.str ""))
  let change ← lookup .unspecified changeTypeMap (raw.getD "change" (.str ""))
  let tradePrice ← doubleField (raw.getD "trade_price" zeroFloat)
  let tradeVolume ← doubleField (raw.getD "trade_volume" zeroFloat)
  let prevClosingPrice ← doubleField (raw.getD "prev_closing_price" zeroFloat)
  let changePrice ← doubleField (raw.getD "change_price" zeroFloat)
  let sequentialId ← int64Field (raw.getD "sequential_id" (.int 0))
  return {
    exchange := .upbit
    code := message.code U
    tradePrice, tradeVolume, askBid, prevClosingPrice, change, changePrice
    tradeTimestamp := Timestamp.fromDatetime message.eventTimestamp
    sequentialId
    streamType := protoStreamType message.streamType
    receivedTimestamp := Timestamp.fromDatetime message.receivedTimestamp }

/-- `OrderBookLevel(price=level.get("price", 0.0), size=level.get("size", 0.0))`. -/
def orderBookLevel : Json → Except PyExn OrderBookLevel
  | .dict level => do
    let price ← doubleField (Dict.getD level "price" zeroFloat)
    let size ← doubleField (Dict.getD level "size" zeroFloat)
    return ⟨price, size⟩
  | _ => .error (.attributeError "")

/-- `[OrderBookLevel(…) for level in v]`. -/
def orderBookLevels (v : Json) : Except PyExn (List OrderBookLevel) := do
  (← iterate v).mapM orderBookLevel

/-- `_convert_to_orderbook_proto`. -/
def convertToOrderbookProto (U : UpperTable) (message : MarketDataMessage) :
    Except PyExn OrderBookUpdate := do
  let raw := message.rawData
  let asks ← orderBookLevels (raw.getD "asks" (.list []))
  let bids ← orderBookLevels (raw.getD "bids" (.list []))
  let totalAskSize ← doubleField (raw.getD "total_ask_size" zeroFloat)
  let totalBidSize ← doubleField (raw.getD "total_bid_size" zeroFloat)
  return {
    exchange := .upbit
    code := message.code U
    totalAskSize, totalBidSize, asks, bids
    streamType := protoStreamType message.streamType
    eventTimestamp := Timestamp.fromDatetime message.eventTimestamp
    receivedTimestamp := Timestamp.fromDatetime message.receivedTimestamp }

/-- `_convert_to_protobuf`; the two data types are the only ones. -/
def convertToProtobuf (U : UpperTable) (message : MarketDataMessage) : Except PyExn ProtoMessage :=
  match message.dataType with
  | .trade => .trade <$> convertToTradeProto U message
  | .orderbook => .orderbook <$> convertToOrderbookProto U message

/-- `_get_topic_for_message`. -/
def getTopicForMessage (message : MarketDataMessage) : String :=
  match message.dataType with
  | .trade => "upbit.trades.v1"
  | .orderbook => "upbit.orderbooks.v1"

/-- `message.code.encode("utf-8")`. -/
def keyForMessage (U : UpperTable) (message : MarketDataMessage) : ByteArray :=
  (message.code U).toUTF8

end FlinkPractices.Service
