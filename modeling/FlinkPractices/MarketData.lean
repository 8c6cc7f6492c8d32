import FlinkPractices.Exceptions
import FlinkPractices.Lib.Json
import FlinkPractices.Lib.PyStr

/-!
# Market data messages (`domain/models/market_data.py`)

The immutable message that a connector yields.  The constructor keeps the code as received;
`code` normalises it on every access, by the upper-case table.

* `MarketDataType`, `StreamType` — the two enumerations, with their values
* `MarketDataMessage` — the message; `rawData` is the payload as it was received.  That the
  constructor keeps a deep copy of it, and may fail to make one, is the conversion's business
  (`Upbit.Connector.newMessage`)
* `validationErrors`, `validate` — the rules of the domain, with their texts in the order of the
  source

The timestamps are in UTC here, so that the checks of their time zones always pass and are left out.
`validate` is never called in the pipeline; `Validity` says what it would find.
-/

set_option autoImplicit false

namespace FlinkPractices

open Lib

inductive MarketDataType where
  | trade
  | orderbook
  deriving DecidableEq, Repr

inductive StreamType where
  | snapshot
  | realtime
  deriving DecidableEq, Repr

namespace StreamType

/-- `Enum.value`. -/
def value : StreamType → String
  | .snapshot => "snapshot"
  | .realtime => "realtime"

end StreamType

structure MarketDataMessage where
  exchange : String
  dataType : MarketDataType
  /-- `_code` -/
  rawCode : String
  receivedTimestamp : DateTime
  eventTimestamp : DateTime
  streamType : StreamType
  rawData : Dict

namespace MarketDataMessage

/-- The `code` property. -/
def code (U : UpperTable) (m : MarketDataMessage) : String := upper U m.rawCode

/-- The text about an event that is later than its receipt. -/
def laterThanReceived (m : MarketDataMessage) : String :=
  "event_timestamp (" ++ m.eventTimestamp.str ++ ") cannot be later than received_timestamp (" ++
    m.receivedTimestamp.str ++ ")"

/-- The error texts of `validate`, in its order. -/
def validationErrors (U : UpperTable) (m : MarketDataMessage) : List String :=
  (if m.exchange = "" ∨ strip m.exchange = "" then ["exchange cannot be empty"] else []) ++
  (if startsWith (upper U (m.code U)) "KRW-" then []
    else ["Invalid market code: '" ++ m.code U ++ "' (expected format: KRW-XXX for Upbit)"]) ++
  (if m.receivedTimestamp.micros < m.eventTimestamp.micros then [m.laterThanReceived] else []) ++
  (if m.rawData.isEmpty then ["raw_data cannot be empty"] else [])

/-- `validate()`. -/
def validate (U : UpperTable) (m : MarketDataMessage) : Except PyExn Unit :=
  if m.validationErrors U = [] then .ok ()
  else .error (.validationException
    ("MarketDataMessage validation failed: " ++ "; ".intercalate (m.validationErrors U)))

end MarketDataMessage

end FlinkPractices
