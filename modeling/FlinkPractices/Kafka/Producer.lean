import FlinkPractices.Service.Ports

/-!
# The Kafka adapter (`kafka/kafka_producer.py`)

`KafkaProducerAdapter` as a `MessagePublisher`.  `confluent_kafka.Producer` and
`SerializeToString` are parameters (`Producer`): what the `n`-th call of `produce()`, `poll()` and
`flush()` answers.  `Adapter` counts the calls and keeps the records that `produce()` accepted.

* `publish` — the first segment, up to the sleep after a full queue or to the end of the call
* `resumePublish` — the segment after a sleep
* `flush` — it blocks the event loop instead of suspending, so it is one segment
* `publisher` — the adapter as the port of `Service.Ports`

`publish()` tries again while the queue is full, at most ten times, with a short sleep after each
attempt; whatever else goes wrong comes out as `PublishException` (`publishFailure`), with the texts
of the source.

The producer may answer differently each time, and so may the serialization; nothing is assumed of
either.  What becomes of a record once it is accepted (delivery, its callback) is `Kafka.Metrics`,
and `close()` is `Kafka.Closing`.
-/

set_option autoImplicit false

namespace FlinkPractices.Kafka

open Service

/-- `confluent_kafka.Producer`: `none` means that the call returns. -/
structure Producer where
  serialize : ProtoMessage → Except PyExn ByteArray
  produce : Nat → Option PyExn
  poll : Nat → Option PyExn
  flush : Nat → Except PyExn Nat

structure Record where
  topic : String
  key : ByteArray
  value : ByteArray

structure Adapter where
  records : List Record
  produces : Nat
  polls : Nat
  flushes : Nat

/-- `__init__`. -/
def Adapter.init : Adapter := ⟨[], 0, 0, 0⟩

/-- `max_retries`. -/
def maxRetries : Nat := 10

/-- `await asyncio.sleep(0.01)` of `publish()`, after `retryCount` attempts. -/
structure PublishPc where
  record : Record
  retryCount : Nat

/-- The `except` clauses of `publish()`. -/
def publishFailure (topic : String) : PyExn :=
  .publishException ("Failed to publish message to " ++ topic)

variable (K : Producer)

/-- `self._producer.poll(…)`. -/
def poll (a : Adapter) : Adapter × Option PyExn :=
  ({ a with polls := a.polls + 1 }, K.poll a.polls)

/-- An accepted record: serve the callbacks. -/
def enqueued (a : Adapter) (r : Record) : Adapter × Start PublishPc :=
  match poll K { a with records := a.records ++ [r] } with
  | (a, none) => (a, .returned)
  | (a, some _) => (a, .raised (publishFailure r.topic))

/-- The queue is full: make room, and sleep. -/
def bufferFull (a : Adapter) (r : Record) (retryCount : Nat) : Adapter × Start PublishPc :=
  match poll K a with
  | (a, none) => (a, .suspend ⟨r, retryCount + 1⟩)
  | (a, some _) => (a, .raised (publishFailure r.topic))

/-- The head of the retry loop. -/
def attempt (a : Adapter) (r : Record) (retryCount : Nat) : Adapter × Start PublishPc :=
  if retryCount < maxRetries then
    match K.produce a.produces with
    | none => enqueued K { a with produces := a.produces + 1 } r
    | some .bufferError => bufferFull K { a with produces := a.produces + 1 } r retryCount
    | some _ => ({ a with produces := a.produces + 1 }, .raised (publishFailure r.topic))
  -- "Buffer full after 10 retries" is raised inside the `try`, and wrapped
  else (a, .raised (publishFailure r.topic))

/-- `publish()`, first segment. -/
def publish (a : Adapter) (topic : String) (key : ByteArray) (message : ProtoMessage) :
    Adapter × Start PublishPc :=
  match K.serialize message with
  | .ok value => attempt K a ⟨topic, key, value⟩ 0
  | .error _ => (a, .raised (publishFailure topic))

/-- The rest of a call, when a segment is not its first. -/
def next {Pc : Type} : Adapter × Start Pc → Adapter × Next Pc
  | (a, .suspend pc) => (a, .suspend pc)
  | (a, .returned) => (a, .finish .returned)
  | (a, .raised e) => (a, .finish (.raised e))

/-- The segment of `publish()` after a sleep. -/
def resumePublish (a : Adapter) (pc : PublishPc) : Wake Empty → Option (Adapter × Next PublishPc)
  | .done => some (next (attempt K a pc.record pc.retryCount))
  | .cancelled => some (a, .finish .cancelled)
  | _ => none

/-- `flush()`; it blocks instead of suspending. -/
def flush (a : Adapter) : Adapter × Start Empty :=
  match K.flush a.flushes with
  | .ok _ => ({ a with flushes := a.flushes + 1 }, .returned)
  | .error _ =>
    ({ a with flushes := a.flushes + 1 }, .raised (.publishException "Failed to flush messages"))

/-- `KafkaProducerAdapter`. -/
def publisher : PublisherPort where
  State := Adapter
  PublishPc := PublishPc
  FlushPc := Empty
  publish := publish K
  resumePublish := resumePublish K
  flush := flush K
  resumeFlush _ pc _ := nomatch pc

/-- A producer that accepts everything. -/
def acceptingProducer : Producer where
  serialize _ := .ok ByteArray.empty
  produce _ := none
  poll _ := none
  flush _ := .ok 0

end FlinkPractices.Kafka
