import FlinkPractices.Connector.Base
import FlinkPractices.Service.Convert

/-!
# The ports of the ingestion service (`domain/ports`)

`IngestionService` runs over any `ExchangeConnector` and any `MessagePublisher`.  A port is such an
object as a machine of segments: what a call does up to its first `await`, and what it does when
that `await` gives a result.  A call that was never suspended cannot have been cancelled (`Start`).

* `ConnectorPort` — `connect()`, `disconnect()` and the stream, with the state of the object and the
  suspension points of each; `config` is the attribute that the service reads and the port does not
  declare
* `PublisherPort` — `publish()` and `flush()`
* `Wake` — what an `await` gives: a result, an exception, a cancellation, or what the network
  delivers
* `Next`, `StreamNext` — how a later segment of a call, and of a stream, ends

Nothing is assumed of a port: a result about the service over any ports holds for ports that never
answer, that raise at every call, and that change their state as they like.  The websocket connector
is `Service.WebSocket`, the Kafka adapter `Kafka.Producer`.
-/

set_option autoImplicit false

namespace FlinkPractices.Service

open Connector (TaskId)

/-- How the first segment of a call ends. -/
inductive Start (Pc : Type) where
  | suspend (pc : Pc)
  | returned
  | raised (e : PyExn)

/-- How a later segment of a call ends. -/
inductive Next (Pc : Type) where
  | suspend (pc : Pc)
  | finish (r : Outcome)

/-- How a later segment of a stream ends: `batch` are the messages it yields before it goes on. -/
inductive StreamNext (Pc : Type) where
  | suspend (pc : Pc)
  | finish (r : Outcome)
  | batch (m : MarketDataMessage) (ms : List MarketDataMessage)

/-- What an `await` gives; `input` is what the network delivers. -/
inductive Wake (Input : Type) where
  | done
  | input (i : Input)
  | raised (e : PyExn)
  | cancelled

/-- An `ExchangeConnector`.  `config` is its attribute of that name, if it has one.  The outcomes
of the tasks that are done are passed to its calls. -/
structure ConnectorPort (U : Lib.UpperTable) where
  State : Type
  ConnectPc : Type
  DisconnectPc : Type
  StreamPc : Type
  Input : Type
  config : State → Option (ExchangeConfig U)
  connect : (TaskId → Option Outcome) → State → TaskId → State × Start ConnectPc
  resumeConnect : (TaskId → Option Outcome) → State → TaskId → ConnectPc → Wake Input →
    Option (State × Next ConnectPc)
  disconnect : State → TaskId → State × Start DisconnectPc
  resumeDisconnect : State → TaskId → DisconnectPc → Wake Input →
    Option (State × Next DisconnectPc)
  /-- `stream_market_data()` from the top of its loop -/
  stream : (TaskId → Option Outcome) → State → TaskId → State × Start StreamPc
  resumeStream : (TaskId → Option Outcome) → State → TaskId → StreamPc → Wake Input →
    Option (State × StreamNext StreamPc)
  /-- the task a suspended call awaits, if it awaits one -/
  connectAwaits : ConnectPc → Option TaskId
  streamAwaits : StreamPc → Option TaskId

/-- A `MessagePublisher`. -/
structure PublisherPort where
  State : Type
  PublishPc : Type
  FlushPc : Type
  publish : State → String → ByteArray → ProtoMessage → State × Start PublishPc
  resumePublish : State → PublishPc → Wake Empty → Option (State × Next PublishPc)
  flush : State → State × Start FlushPc
  resumeFlush : State → FlushPc → Wake Empty → Option (State × Next FlushPc)

/-- A wake-up that carries no input. -/
def Wake.plain {Input : Type} : Wake Input → Option (Wake Empty)
  | .done => some .done
  | .raised e => some (.raised e)
  | .cancelled => some .cancelled
  | .input _ => none

end FlinkPractices.Service
