import FlinkPractices.Lib.AsyncLock
import FlinkPractices.Service.Ports

/-!
# The ingestion service, segment by segment (`application/services/ingestion_service.py`)

`IngestionService` as segments between suspension points, as in `Connector.Base`: `start`, `stop`
and `_consume_and_publish`, and the use case `stream_market_data` that calls the first two
(`application/use_cases/stream_market_data.py`).

* `IngestionService` — the attributes of the object, the states of its two ports, and a history of
  what was called when (`Event`); every `stop()` that finds the service running has a number.
* `Pc` — the suspension points; `call` are first segments, `advance` is the segment that follows.
* `turn` — the body of the loop for one message, up to the suspension or the end of its `publish()`;
  `consume` is the loop over the messages that the generator still has.

`asyncio.wait_for` is that of Python 3.11: it always suspends once; when the time is over it
cancels the task, waits until the task is done, and raises `TimeoutError` only if the task ended
cancelled.

The use case has no function of its own: it is `start()` with the caller `useCase`, sleeps of one
second while the flag is set, and `stop()` from its `finally` block, with what that block was left
with (`StopCaller`).
-/

set_option autoImplicit false

namespace FlinkPractices.Service

open Lib
open Connector (TaskId)

variable {U : UpperTable} (P : ConnectorPort U) (Q : PublisherPort)

/-- What the history records: `publish` by a consumption task, and the steps of the `n`-th
`stop()`, which waits for the consumption task `b`. -/
inductive Event where
  | publish (b : TaskId)
  | stopping (n : Nat) (b : Option TaskId)
  | flush (n : Nat)
  | disconnect (n : Nat)
  | stopped (n : Nat)
  deriving DecidableEq, Repr

structure IngestionService where
  connector : P.State
  publisher : Q.State
  maxConsecutiveFailures : Nat
  running : Bool
  lock : AsyncLock TaskId
  processedCount : Nat
  consecutiveFailures : Nat
  backgroundTask : Option TaskId
  /-- the name of the task that `asyncio.create_task` makes next -/
  nextTask : TaskId
  /-- how many calls of `stop()` have found the service running -/
  stops : Nat
  history : List Event

/-- `__init__`, among clients `0, …, clients - 1`. -/
def IngestionService.init (connector : P.State) (publisher : Q.State) (maxConsecutiveFailures : Nat)
    (clients : Nat) : IngestionService P Q where
  connector := connector
  publisher := publisher
  maxConsecutiveFailures := maxConsecutiveFailures
  running := false
  lock := AsyncLock.free
  processedCount := 0
  consecutiveFailures := 0
  backgroundTask := none
  nextTask := clients
  stops := 0
  history := []

/-- Who calls `start()`. -/
inductive StartCaller where
  | client
  | useCase
  deriving DecidableEq, Repr

/-- Who calls `stop()`: the `finally` block of the use case goes on with what it was left with. -/
inductive StopCaller where
  | client
  | useCase (pending : Outcome)
  deriving DecidableEq, Repr

/-- The suspension points of the service and of the use case. -/
inductive Pc where
  | startLock (k : StartCaller)
  /-- `await self._connector.connect()` -/
  | connecting (k : StartCaller) (pc : P.ConnectPc)
  | stopLock (k : StopCaller)
  /-- `asyncio.wait_for(self._background_task, timeout=5.0)` -/
  | waiting (k : StopCaller) (n : Nat) (b : TaskId)
  /-- in it, when the time is over: the task has been cancelled -/
  | timedOut (k : StopCaller) (n : Nat) (b : TaskId)
  /-- in it, when `stop()` itself has been cancelled -/
  | aborting (k : StopCaller) (n : Nat) (b : TaskId)
  /-- `await self._background_task` after the timeout -/
  | awaiting (k : StopCaller) (n : Nat) (b : TaskId)
  | flushing (k : StopCaller) (n : Nat) (pc : Q.FlushPc)
  | disconnecting (k : StopCaller) (n : Nat) (pc : P.DisconnectPc)
  /-- a consumption task that has not run yet -/
  | ready
  /-- `async for message in self._connector.stream_market_data()` -/
  | receiving (pc : P.StreamPc)
  /-- `await self._publisher.publish(…)`; `ms` are still to come from the generator -/
  | publishing (pc : Q.PublishPc) (ms : List MarketDataMessage)
  /-- `await asyncio.sleep(1)` of the use case -/
  | sleeping

/-- How a segment ends; `cancelling` suspends after `task.cancel()`. -/
inductive Act where
  | suspend (pc : Pc P Q)
  | cancelling (pc : Pc P Q) (b : TaskId)
  | finish (r : Outcome)

variable {P Q}

/-- `get_status()`. -/
def IngestionService.getStatus (s : IngestionService P Q) : Bool × Nat × Nat :=
  (s.running, s.processedCount, s.consecutiveFailures)

def IngestionService.log (s : IngestionService P Q) (e : Event) : IngestionService P Q :=
  { s with history := s.history ++ [e] }

/-! ## `stop()` -/

/-- What follows `stop()`, by its caller. -/
def afterStop : StopCaller → Outcome → Outcome
  | .useCase pending, .returned => pending
  | _, r => r

/-- `stop()` ends. -/
def stopEnd (s : IngestionService P Q) (k : StopCaller) (n : Nat) (r : Outcome) :
    IngestionService P Q × Act P Q :=
  (s.log (.stopped n), .finish (afterStop k r))

/-- The disconnection; its exceptions are logged. -/
def stopDisconnect (s : IngestionService P Q) (t : TaskId) (k : StopCaller) (n : Nat) :
    IngestionService P Q × Act P Q :=
  let s := s.log (.disconnect n)
  match P.disconnect s.connector t with
  | (c, .suspend pc) => ({ s with connector := c }, .suspend (.disconnecting k n pc))
  | (c, .returned) => stopEnd { s with connector := c } k n .returned
  | (c, .raised _) => stopEnd { s with connector := c } k n .returned

/-- The flush; its exceptions are logged. -/
def stopFlush (s : IngestionService P Q) (t : TaskId) (k : StopCaller) (n : Nat) :
    IngestionService P Q × Act P Q :=
  let s := s.log (.flush n)
  match Q.flush s.publisher with
  | (q, .suspend pc) => ({ s with publisher := q }, .suspend (.flushing k n pc))
  | (q, .returned) => stopDisconnect { s with publisher := q } t k n
  | (q, .raised _) => stopDisconnect { s with publisher := q } t k n

/-- `await self._background_task` after the timeout has given `r`. -/
def stopAwaited (s : IngestionService P Q) (t : TaskId) (k : StopCaller) (n : Nat) :
    Outcome → IngestionService P Q × Act P Q
  | .returned => stopFlush s t k n
  | .cancelled => stopFlush s t k n
  | .raised e => stopEnd s k n (.raised e)

/-- `except asyncio.TimeoutError`: cancel the background task, whichever it is now, and await
it. -/
def stopTimeout (outcome : TaskId → Option Outcome) (s : IngestionService P Q) (t : TaskId)
    (k : StopCaller) (n : Nat) : IngestionService P Q × Act P Q :=
  match s.backgroundTask with
  | some b =>
    match outcome b with
    | some r => stopAwaited s t k n r
    | none => (s, .cancelling (.awaiting k n b) b)
  | none => stopEnd s k n (.raised (.attributeError "cancel"))

/-- An exception comes out of `wait_for`. -/
def stopRaised (outcome : TaskId → Option Outcome) (s : IngestionService P Q) (t : TaskId)
    (k : StopCaller) (n : Nat) (e : PyExn) : IngestionService P Q × Act P Q :=
  if e = .timeoutError then stopTimeout outcome s t k n else stopEnd s k n (.raised e)

/-- `wait_for` gives the result `r` of the task in time. -/
def stopWaited (outcome : TaskId → Option Outcome) (s : IngestionService P Q) (t : TaskId)
    (k : StopCaller) (n : Nat) : Outcome → IngestionService P Q × Act P Q
  | .returned => stopFlush s t k n
  | .raised e => stopRaised outcome s t k n e
  | .cancelled => stopEnd s k n .cancelled

/-- `wait_for` gives the result `r` of the task it has cancelled. -/
def stopWaitedLate (outcome : TaskId → Option Outcome) (s : IngestionService P Q) (t : TaskId)
    (k : StopCaller) (n : Nat) : Outcome → IngestionService P Q × Act P Q
  | .returned => stopFlush s t k n
  | .raised e => stopRaised outcome s t k n e
  | .cancelled => stopTimeout outcome s t k n

/-- The body of `async with self._lock`, and the wait for the background task. -/
def stopLocked (s : IngestionService P Q) (t : TaskId) (k : StopCaller) :
    IngestionService P Q × Act P Q :=
  if s.running then
    let n := s.stops
    let s := { s with running := false, lock := s.lock.release, stops := n + 1 }.log
      (.stopping n s.backgroundTask)
    match s.backgroundTask with
    | some b => (s, .suspend (.waiting k n b))
    | none => stopFlush s t k n
  else ({ s with lock := s.lock.release }, .finish (afterStop k .returned))

/-- `stop()`, first segment. -/
def stop (s : IngestionService P Q) (t : TaskId) (k : StopCaller) : IngestionService P Q × Act P Q :=
  match s.lock.tryAcquire t with
  | some l => stopLocked { s with lock := l } t k
  | none => ({ s with lock := s.lock.enqueue t }, .suspend (.stopLock k))

/-! ## `start()` -/

/-- What follows `start()`, by its caller: the use case sleeps, or runs its `finally` block. -/
def afterStart (s : IngestionService P Q) (t : TaskId) :
    StartCaller → Outcome → IngestionService P Q × Act P Q
  | .client, r => (s, .finish r)
  | .useCase, .returned => (s, .suspend .sleeping)
  | .useCase, r => stop s t (.useCase r)

/-- `connect()` has returned: create the consumption task. -/
def startConnected (s : IngestionService P Q) (t : TaskId) (k : StartCaller) :
    IngestionService P Q × Act P Q :=
  afterStart { s with
    running := true
    backgroundTask := some s.nextTask
    nextTask := s.nextTask + 1
    lock := s.lock.release } t k .returned

/-- `connect()` has failed. -/
def startFailed (s : IngestionService P Q) (t : TaskId) (k : StartCaller) (r : Outcome) :
    IngestionService P Q × Act P Q :=
  afterStart { s with lock := s.lock.release } t k r

/-- The body of `async with self._lock`. -/
def startLocked (outcome : TaskId → Option Outcome) (s : IngestionService P Q) (t : TaskId)
    (k : StartCaller) : IngestionService P Q × Act P Q :=
  if s.running then startFailed s t k (.raised (.runtimeError "Service is already running"))
  else
    match P.connect outcome s.connector t with
    | (c, .suspend pc) => ({ s with connector := c }, .suspend (.connecting k pc))
    | (c, .returned) => startConnected { s with connector := c } t k
    | (c, .raised e) => startFailed { s with connector := c } t k (.raised e)

/-- `start()`, first segment. -/
def start (outcome : TaskId → Option Outcome) (s : IngestionService P Q) (t : TaskId)
    (k : StartCaller) : IngestionService P Q × Act P Q :=
  match s.lock.tryAcquire t with
  | some l => startLocked outcome { s with lock := l } t k
  | none => ({ s with lock := s.lock.enqueue t }, .suspend (.startLock k))

/-! ## `_consume_and_publish()` -/

/-- The generator is asked for the next message, at the top of its loop. -/
def nextMessage (outcome : TaskId → Option Outcome) (s : IngestionService P Q) (b : TaskId) :
    IngestionService P Q × Act P Q :=
  match P.stream outcome s.connector b with
  | (c, .suspend pc) => ({ s with connector := c }, .suspend (.receiving pc))
  | (c, .returned) => ({ s with connector := c }, .finish .returned)
  | (c, .raised e) => ({ s with connector := c }, .finish (.raised e))

/-- `publish()` has ended with `r`: count it.  The result is how the loop ends, if it does. -/
def countPublish (s : IngestionService P Q) : Outcome → IngestionService P Q × Option Outcome
  | .returned =>
    ({ s with consecutiveFailures := 0, processedCount := s.processedCount + 1 }, none)
  | .raised e =>
    if e.isPublishException then
      let s := { s with consecutiveFailures := s.consecutiveFailures + 1 }
      if s.maxConsecutiveFailures ≤ s.consecutiveFailures then (s, some (.raised e)) else (s, none)
    else (s, some (.raised e))
  | .cancelled => (s, some .cancelled)

/-- How the body of the loop ends. -/
inductive Turn (Q : PublisherPort) where
  /-- with the next message -/
  | next
  /-- in `await self._publisher.publish(…)` -/
  | suspend (pc : Q.PublishPc)
  /-- the loop is left -/
  | finish (r : Outcome)

/-- The end of the body, when `publish()` has ended with `r`. -/
def endTurn (s : IngestionService P Q) (r : Outcome) : IngestionService P Q × Turn Q :=
  match countPublish s r with
  | (s, some r) => (s, .finish r)
  | (s, none) => (s, .next)

/-- The body of the loop, for the message `m`. -/
def turn (b : TaskId) (s : IngestionService P Q) (m : MarketDataMessage) :
    IngestionService P Q × Turn Q :=
  if s.running then
    match isSubscribedMarket (P.config s.connector) m with
    | .error e => (s, .finish (.raised e))
    | .ok false => (s, .next)
    | .ok true =>
      match convertToProtobuf U m with
      | .error _ => (s, .next)
      | .ok proto =>
        match Q.publish s.publisher (getTopicForMessage m) (keyForMessage U m) proto with
        | (q, .suspend pc) => ({ s with publisher := q }.log (.publish b), .suspend pc)
        | (q, .returned) => endTurn ({ s with publisher := q }.log (.publish b)) .returned
        | (q, .raised e) => endTurn ({ s with publisher := q }.log (.publish b)) (.raised e)
  else (s, .finish .returned)

/-- The loop after a turn, when the generator still has the messages `ms`. -/
def consume (outcome : TaskId → Option Outcome) (b : TaskId) :
    List MarketDataMessage → IngestionService P Q × Turn Q → IngestionService P Q × Act P Q
  | ms, (s, .suspend pc) => (s, .suspend (.publishing pc ms))
  | _, (s, .finish r) => (s, .finish r)
  | [], (s, .next) => nextMessage outcome s b
  | m :: ms, (s, .next) => consume outcome b ms (turn b s m)

/-! ## Calls and resumptions -/

/-- The public coroutines, and the use case from `service.start()` on. -/
inductive Op where
  | start
  | stop
  | useCase
  deriving DecidableEq, Repr

/-- The first segment of a call. -/
def call (outcome : TaskId → Option Outcome) (s : IngestionService P Q) (t : TaskId) :
    Op → IngestionService P Q × Act P Q
  | .start => start outcome s t .client
  | .stop => stop s t .client
  | .useCase => start outcome s t .useCase

/-- What wakes a task of the service: an `await` gives a result, or the timer of `wait_for` or
`sleep` is over. -/
inductive Resume (P : ConnectorPort U) where
  | wake (w : Wake P.Input)
  | timeout

/-- The segment that follows a suspension point; `none` if it cannot be resumed so. -/
def advance (outcome : TaskId → Option Outcome) (s : IngestionService P Q) (t : TaskId) :
    Pc P Q → Resume P → Option (IngestionService P Q × Act P Q)
  | .startLock k, .wake .done =>
    match s.lock.wake t with
    | some l => some (startLocked outcome { s with lock := l } t k)
    | none => none
  | .startLock k, .wake .cancelled =>
    some (afterStart { s with lock := s.lock.abandon t } t k .cancelled)
  | .connecting k pc, .wake w =>
    match P.resumeConnect outcome s.connector t pc w with
    | some (c, .suspend pc) => some ({ s with connector := c }, .suspend (.connecting k pc))
    | some (c, .finish .returned) => some (startConnected { s with connector := c } t k)
    | some (c, .finish r) => some (startFailed { s with connector := c } t k r)
    | none => none
  | .stopLock k, .wake .done =>
    match s.lock.wake t with
    | some l => some (stopLocked { s with lock := l } t k)
    | none => none
  | .stopLock k, .wake .cancelled =>
    some ({ s with lock := s.lock.abandon t }, .finish (afterStop k .cancelled))
  | .waiting k n b, .wake .done =>
    match outcome b with
    | some r => some (stopWaited outcome s t k n r)
    | none => none
  | .waiting k n b, .timeout =>
    match outcome b with
    | some _ => none
    | none => some (s, .cancelling (.timedOut k n b) b)
  | .waiting k n b, .wake .cancelled =>
    match outcome b with
    | some r => some (stopWaited outcome s t k n r)
    | none => some (s, .cancelling (.aborting k n b) b)
  | .timedOut k n b, .wake .done =>
    match outcome b with
    | some r => some (stopWaitedLate outcome s t k n r)
    | none => none
  | .timedOut k n _, .wake .cancelled => some (stopEnd s k n .cancelled)
  | .aborting k n b, .wake .done =>
    match outcome b with
    | some _ => some (stopEnd s k n .cancelled)
    | none => none
  | .aborting k n _, .wake .cancelled => some (stopEnd s k n .cancelled)
  | .awaiting k n b, .wake .done =>
    match outcome b with
    | some r => some (stopAwaited s t k n r)
    | none => none
  | .awaiting k n _, .wake .cancelled => some (stopAwaited s t k n .cancelled)
  | .flushing k n pc, .wake w =>
    match w.plain.bind (Q.resumeFlush s.publisher pc) with
    | some (q, .suspend pc) => some ({ s with publisher := q }, .suspend (.flushing k n pc))
    | some (q, .finish .cancelled) => some (stopEnd { s with publisher := q } k n .cancelled)
    | some (q, .finish _) => some (stopDisconnect { s with publisher := q } t k n)
    | none => none
  | .disconnecting k n pc, .wake w =>
    match P.resumeDisconnect s.connector t pc w with
    | some (c, .suspend pc) => some ({ s with connector := c }, .suspend (.disconnecting k n pc))
    | some (c, .finish .cancelled) => some (stopEnd { s with connector := c } k n .cancelled)
    | some (c, .finish _) => some (stopEnd { s with connector := c } k n .returned)
    | none => none
  | .ready, .wake .done => some (nextMessage outcome s t)
  | .ready, .wake .cancelled => some (s, .finish .cancelled)
  | .receiving pc, .wake w =>
    match P.resumeStream outcome s.connector t pc w with
    | some (c, .suspend pc) => some ({ s with connector := c }, .suspend (.receiving pc))
    | some (c, .finish r) => some ({ s with connector := c }, .finish r)
    | some (c, .batch m ms) => some (consume outcome t (m :: ms) ({ s with connector := c }, .next))
    | none => none
  | .publishing pc ms, .wake w =>
    match w.plain.bind (Q.resumePublish s.publisher pc) with
    | some (q, .suspend pc) => some ({ s with publisher := q }, .suspend (.publishing pc ms))
    | some (q, .finish r) => some (consume outcome t ms (endTurn { s with publisher := q } r))
    | none => none
  | .sleeping, .timeout => some (s, .suspend .sleeping)
  | .sleeping, .wake .cancelled => some (stop s t (.useCase .cancelled))
  | _, _ => none

end FlinkPractices.Service
