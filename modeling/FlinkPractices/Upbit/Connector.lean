import FlinkPractices.Connector.Tasks
import FlinkPractices.MarketData

/-!
# The Upbit connector (`connectors/upbit_connector.py`)

`UpbitWebSocketConnector` as a `Subclass`: the subscription registry, the coroutines that send
subscription requests, and the conversion of received frames.

* Registry — `_subscriptions`, a dictionary by ticket in insertion order, and its inverse index
  `_code_to_tickets`.  A ticket is stored before its request is sent.
* Sending — `Coro` are the suspension points: the two requests of the seeding, the replay of the
  registry (an iterator over the dictionary, which fails if the dictionary has grown in between),
  and `subscribe`.
* Receiving — `parseMessage` swallows every exception and returns `None`;
  `convertToMarketDataMessages` turns every exception into `InvalidMessageError`.

`uuid4`, the clock, `orjson.loads`, `deepcopy` and the upper-case table are parameters
(`Environment`).  A message keeps a deep copy of its data, and `deepcopy` recurses: a frame that is
nested a few hundred levels deep is parsed, but a `RecursionError` comes out of the constructor of
its message.
-/

set_option autoImplicit false

namespace FlinkPractices.Upbit

open Lib Connector

/-- What the connector takes from its surroundings.  `uuid4 n` is the `n`-th UUID, `now n` the
`n`-th reading of the clock.  `deepcopy` gives an equal value, or raises: which values it copies
depends on the recursion limit and on the height of the stack. -/
structure Environment where
  uuid4 : Nat → String
  uuid4_inj : Function.Injective uuid4
  now : Nat → DateTime
  loads : String → Except PyExn Json
  deepcopy : Dict → Except PyExn Dict
  deepcopy_eq : ∀ {d copy}, deepcopy d = .ok copy → copy = d

variable {U : UpperTable} (env : Environment) (cfg : ExchangeConfig U)

/-! ## The registry -/

inductive SubscriptionStatus where
  | requested
  | active
  deriving DecidableEq, Repr

structure SubscriptionEntry where
  ticket : String
  subType : String
  codes : List String
  status : SubscriptionStatus
  createdAt : DateTime
  lastMessageAt : Option DateTime
  deriving DecidableEq, Repr

/-- The attributes of the connector, and how often `uuid4` and the clock were read. -/
structure Registry where
  subscriptions : List (String × SubscriptionEntry)
  codeToTickets : List (String × List String)
  issued : Nat
  reads : Nat

/-- `__init__`. -/
def Registry.init : Registry := ⟨[], [], 0, 0⟩

/-- `d[key] = value`. -/
def dictSet {α : Type} (d : List (String × α)) (key : String) (value : α) : List (String × α) :=
  if d.any (·.1 == key) then d.map fun kv => if kv.1 == key then (key, value) else kv
  else d ++ [(key, value)]

/-- `self._code_to_tickets.setdefault(c, set()).add(ticket)`. -/
def indexCode (ticket : String) (index : List (String × List String)) (c : String) :
    List (String × List String) :=
  let tickets := (index.lookup c).getD []
  dictSet index c (if tickets.contains ticket then tickets else tickets ++ [ticket])

/-- `_store_subscription`. -/
def storeSubscription (U : UpperTable) (r : Registry) (ticket subType : String)
    (codes : List String) : Registry :=
  let entry : SubscriptionEntry :=
    { ticket, subType, codes := codes.map (upper U), status := .requested,
      createdAt := env.now r.reads, lastMessageAt := none }
  { r with
    subscriptions := dictSet r.subscriptions ticket entry
    codeToTickets := entry.codes.foldl (indexCode ticket) r.codeToTickets
    reads := r.reads + 1 }

/-- `_mark_active_for`. -/
def markActiveFor (U : UpperTable) (r : Registry) (subType code : String) : Registry :=
  match r.codeToTickets.lookup (upper U code) with
  | none => r
  | some [] => r
  | some tickets =>
    let mark : String × SubscriptionEntry → String × SubscriptionEntry := fun kv =>
      if tickets.contains kv.1 && kv.2.subType == subType then
        (kv.1, { kv.2 with status := .active, lastMessageAt := some (env.now r.reads) })
      else kv
    { r with subscriptions := r.subscriptions.map mark, reads := r.reads + 1 }

/-! ## Sending subscription requests -/

/-- `[{"ticket": …}, {"type": …, "codes": …}, {"format": "DEFAULT"}]`. -/
structure Request where
  ticket : String
  subType : String
  codes : List String
  format : String
  deriving DecidableEq, Repr

/-- The suspension points of the sending coroutines. -/
inductive Coro where
  | seedTrade (codes : List String)
  | seedOrderbook
  /-- the request of entry `pos` is being sent, in an iteration over `size` entries -/
  | replay (pos size : Nat)
  | subscribe
  deriving DecidableEq, Repr

/-- `raise ConnectionException("WebSocket is not connected")`. -/
def notConnected : PyExn := .connectionException "WebSocket is not connected"

/-- `_send_single_subscription`. -/
def sendSingleSubscription (ws : Option Ws) (ticket subType : String) (codes : List String)
    (k : Coro) : SendStep Coro Request :=
  match ws with
  | some w => .send w ⟨ticket, subType, codes, "DEFAULT"⟩ k
  | none => .raised notConnected

/-- `_create_and_send_subscription`, up to its send. -/
def createAndSendSubscription (U : UpperTable) (r : Registry) (ws : Option Ws) (subType : String)
    (codes : List String) (k : Coro) : Registry × SendStep Coro Request :=
  let ticket := env.uuid4 r.issued
  let r := storeSubscription env U { r with issued := r.issued + 1 } ticket subType codes
  (r, sendSingleSubscription ws ticket subType codes k)

/-- `except Exception` of `_send_subscription_message`. -/
def wrapFailure : SendStep Coro Request → SendStep Coro Request
  | .raised _ => .raised (.connectionException "Failed to send subscription message")
  | s => s

/-- The head of the replay loop: `next()` of an iterator over `size` entries at `pos`. -/
def replayNext (r : Registry) (ws : Option Ws) (pos size : Nat) : SendStep Coro Request :=
  if r.subscriptions.length = size then
    match r.subscriptions[pos]? with
    | some (_, e) => sendSingleSubscription ws e.ticket e.subType e.codes (.replay pos size)
    | none => .returned
  else .raised (.runtimeError "dictionary changed size during iteration")

/-- `_send_subscription_message`, first segment. -/
def sendSubscriptionMessage (r : Registry) (ws : Option Ws) : Registry × SendStep Coro Request :=
  match ws with
  | none => (r, .raised notConnected)
  | some _ =>
    if r.subscriptions.isEmpty then
      let (r, s) := createAndSendSubscription env U r ws "trade" cfg.subscribedMarkets
        (.seedTrade cfg.subscribedMarkets)
      (r, wrapFailure s)
    else (r, wrapFailure (replayNext r ws 0 r.subscriptions.length))

/-- `subscribe(sub_type, codes)`, first segment. -/
def subscribe (U : UpperTable) (r : Registry) (ws : Option Ws) (subType : String)
    (codes : List String) : Registry × SendStep Coro Request :=
  if subType = "trade" ∨ subType = "orderbook" then
    match ws with
    | none => (r, .raised notConnected)
    | some _ => createAndSendSubscription env U r ws subType (codes.map (upper U)) .subscribe
  else (r, .raised (.valueError "sub_type must be 'trade' or 'orderbook'"))

/-- The segment after a send that succeeded (`none`) or failed. -/
def resumeSend (U : UpperTable) (r : Registry) (ws : Option Ws) :
    Coro → Option PyExn → Registry × SendStep Coro Request
  | .seedTrade codes, none =>
    let (r, s) := createAndSendSubscription env U r ws "orderbook" codes .seedOrderbook
    (r, wrapFailure s)
  | .seedOrderbook, none => (r, .returned)
  | .replay pos size, none => (r, wrapFailure (replayNext r ws (pos + 1) size))
  | .subscribe, none => (r, .returned)
  | .subscribe, some e => (r, .raised e)
  | _, some e => (r, wrapFailure (.raised e))

/-! ## Receiving -/

inductive Frame where
  | text (s : String)
  | binary (bytes : ByteArray)

/-- The text of a frame; binary ones are decoded as strict UTF-8. -/
def Frame.decode : Frame → Option String
  | .text s => some s
  | .binary bytes => String.fromUTF8? bytes

/-- The type and the code of a message for a configured market, if it is one.  A `code` that is
not a string has no `upper`, and the `AttributeError` is swallowed. -/
def recognise (d : Dict) : Option (String × String) :=
  match d.getD "type" .null, d.getD "code" .null with
  | .str ty, .str code =>
    if ty = "trade" ∨ ty = "orderbook" then
      if code ≠ "" ∧ upper U code ∈ cfg.subscribedMarkets then some (ty, code) else none
    else none
  | _, _ => none

/-- `_parse_message`. -/
def parseMessage (r : Registry) (f : Frame) : Registry × Option Dict :=
  match f.decode with
  | none => (r, none)
  | some s =>
    match env.loads s with
    | .ok (.dict d) =>
      match recognise cfg d with
      | some (ty, code) => (markActiveFor env U r ty code, some d)
      | none => (r, none)
    | _ => (r, none)

/-- `event_ts_ms`, by message type. -/
def eventTsMs (ty : String) (d : Dict) : Json :=
  if ty = "trade" then d.getD "trade_timestamp" (d.getD "timestamp" .null)
  else d.getD "timestamp" .null

/-- `datetime.fromtimestamp(event_ts_ms / 1000, tz=UTC)`; `bool` is an `int`. -/
def fromTimestampMs (q : Division) : Json → Option DateTime
  | .int n => DateTime.fromMillis q n
  | .float x => DateTime.fromMillisFloat q x
  | .bool b => DateTime.fromMillis q b.toNat
  | _ => none

/-- `except Exception` of the conversion. -/
def invalidMessage : PyExn := .invalidMessageError "Failed to convert message"

/-- `[MarketDataMessage(…)]`, whose constructor copies the data. -/
def newMessage (dataType : MarketDataType) (code : String) (d : Dict) (event received : DateTime) :
    Except PyExn (List MarketDataMessage) :=
  match env.deepcopy d with
  | .ok rawData =>
    .ok [{ exchange := cfg.exchangeName, dataType, rawCode := code, receivedTimestamp := received,
           eventTimestamp := event, streamType := .realtime, rawData }]
  | .error _ => .error invalidMessage

variable {env cfg} in
/-- Data that are copied are in the message. -/
theorem newMessage_copied {d : Dict} (h : env.deepcopy d = .ok d) (dataType : MarketDataType)
    (code : String) (event received : DateTime) :
    newMessage env cfg dataType code d event received =
      .ok [⟨cfg.exchangeName, dataType, code, received, event, .realtime, d⟩] := by
  rw [newMessage, h]

variable {env cfg} in
/-- For the others there is no message. -/
theorem newMessage_not_copied {d : Dict} (h : env.deepcopy d ≠ .ok d) (dataType : MarketDataType)
    (code : String) (event received : DateTime) :
    newMessage env cfg dataType code d event received = .error invalidMessage := by
  unfold newMessage
  split
  · rename_i copy hcopy
    obtain rfl := env.deepcopy_eq hcopy
    exact absurd hcopy h
  · rfl

variable {env cfg} in
theorem newMessage_ok {d : Dict} {dataType : MarketDataType} {code : String}
    {event received : DateTime} {ms : List MarketDataMessage} :
    newMessage env cfg dataType code d event received = .ok ms ↔ env.deepcopy d = .ok d ∧
      ms = [⟨cfg.exchangeName, dataType, code, received, event, .realtime, d⟩] := by
  by_cases h : env.deepcopy d = .ok d
  · rw [newMessage_copied h, Except.ok.injEq, and_iff_right h]
    exact eq_comm
  · rw [newMessage_not_copied h]
    exact iff_of_false nofun fun h' => h h'.1

/-- The message, with its two readings of the clock (one if it has a timestamp of its own). -/
def toMessage (q : Division) (r : Registry) (dataType : MarketDataType) (ty code : String)
    (d : Dict) : Registry × Except PyExn (List MarketDataMessage) :=
  if (eventTsMs ty d).truthy then
    match fromTimestampMs q (eventTsMs ty d) with
    | some t =>
      ({ r with reads := r.reads + 1 }, newMessage env cfg dataType code d t (env.now r.reads))
    | none => (r, .error invalidMessage)
  else
    ({ r with reads := r.reads + 2 },
      newMessage env cfg dataType code d (env.now r.reads) (env.now (r.reads + 1)))

/-- `_convert_to_market_data_messages`; the timestamp is divided by 1000 as `q` says. -/
def convertToMarketDataMessages (q : Division) (r : Registry) (d : Dict) :
    Registry × Except PyExn (List MarketDataMessage) :=
  match d.getD "type" .null, d.getD "code" .null with
  | .str "trade", .str code => toMessage env cfg q r .trade "trade" code d
  | .str "orderbook", .str code => toMessage env cfg q r .orderbook "orderbook" code d
  -- a message that `_parse_message` has let through is one of these
  | _, _ => (r, .ok [])

/-! ## The subclass -/

/-- The public coroutines of its own. -/
inductive Own where
  | subscribe (subType : String) (codes : List String)

/-- `UpbitWebSocketConnector`. -/
def upbit : Subclass where
  Inst := Registry
  Coro := Coro
  Payload := Request
  Frame := Frame
  Parsed := Dict
  Msg := MarketDataMessage
  Own := Own
  sendSubscriptionMessage := sendSubscriptionMessage env cfg
  own r ws o := match o with
    | .subscribe subType codes => subscribe env U r ws subType codes
  resumeSend := resumeSend env U
  parseMessage r f :=
    let (r, d) := parseMessage env cfg r f
    -- `if parsed_data:` an empty dictionary has no type, so it is never returned
    (r, .ok d)
  convertToMarketDataMessages := convertToMarketDataMessages env cfg .double

/-- Surroundings with a stopped clock, a given decoder, and a stack that leaves `deepcopy` room for
490 levels. -/
def fixedEnvironment (loads : String → Except PyExn Json) : Environment where
  uuid4 n := String.ofList ("ticket-".toList ++ List.replicate n 'i')
  uuid4_inj m n h := by
    have hlen := congrArg (fun s => s.toList.length) h
    simpa using hlen
  now _ := DateTime.epoch
  loads
  deepcopy d := if (Json.dict d).depth ≤ 490 then .ok d else .error .recursionError
  deepcopy_eq h := by
    split at h
    · exact (Except.ok.inj h).symm
    · cases h

end FlinkPractices.Upbit
