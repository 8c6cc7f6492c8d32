import FlinkPractices.ConnectionState
import FlinkPractices.ExchangeConfig
import FlinkPractices.Lib.AsyncLock
import Mathlib.Algebra.Group.Nat.Defs

/-!
# The base websocket connector (`connectors/base_websocket.py`), segment by segment

`BaseWebSocketConnector` is written as coroutines over one mutable object.  Under `asyncio`
nothing else runs between two suspension points, so a coroutine is the list of its segments: what
it does to the object from one `await` (or `yield`) to the next.  Each definition below is one
such segment, named after its source function; `Pc` says at which `await` a call is suspended.

* `Conn` — the attributes of the object, and what the model remembers about the network: how
  often `websockets.connect` was called, how many sockets it returned (they are numbered), on
  which of them `close()` was attempted, which subscription requests were sent on which socket.
* `Subclass` — what a concrete connector adds: its attributes, its `_send_subscription_message`,
  `_parse_message` and `_convert_to_market_data_messages`, and public coroutines of its own.
* `connect`, `disconnect`, `streamLoop` — the entry segments; `advance` — the segment that follows
  when the `await` a call is suspended in gives a result.

`async with self._connect_lock` is `Lib.AsyncLock`; `finally` and the release of the lock, which
happen without suspension, are `connectFinally`.
-/

set_option autoImplicit false

namespace FlinkPractices.Connector

open Lib

abbrev TaskId := Nat

/-- Sockets, in the order `websockets.connect` returned them. -/
abbrev Ws := Nat

/-- What a segment of a coroutine that only sends ends with: the next `websocket.send`, or its
end. -/
inductive SendStep (Coro Payload : Type) where
  | send (w : Ws) (payload : Payload) (k : Coro)
  | returned
  | raised (e : PyExn)

/-- What a concrete connector adds to the base class.  `Coro` are the suspension points of its
coroutines; `resumeSend … none` is the segment after a successful send, `some e` after a failed
one. -/
structure Subclass where
  Inst : Type
  Coro : Type
  Payload : Type
  Frame : Type
  Parsed : Type
  Msg : Type
  Own : Type
  sendSubscriptionMessage : Inst → Option Ws → Inst × SendStep Coro Payload
  own : Inst → Option Ws → Own → Inst × SendStep Coro Payload
  resumeSend : Inst → Option Ws → Coro → Option PyExn → Inst × SendStep Coro Payload
  parseMessage : Inst → Frame → Inst × Except PyExn (Option Parsed)
  convertToMarketDataMessages : Inst → Parsed → Inst × Except PyExn (List Msg)

variable {U : UpperTable} (S : Subclass) (cfg : ExchangeConfig U)

/-- The connector object, and the history of its network operations. -/
structure Conn where
  state : ConnectionState
  websocket : Option Ws
  reconnectAttempts : Nat
  connectLock : AsyncLock TaskId
  connectingTask : Option TaskId
  inst : S.Inst
  /-- calls of `websockets.connect` -/
  dials : Nat
  /-- sockets `websockets.connect` has returned: `0, …, opened - 1` -/
  opened : Nat
  /-- sockets on which `close()` was attempted -/
  closed : List Ws
  /-- requests sent successfully, with their socket -/
  sent : List (Ws × S.Payload)

/-- `__init__`. -/
def Conn.init (inst : S.Inst) : Conn S where
  state := .disconnected
  websocket := none
  reconnectAttempts := 0
  connectLock := AsyncLock.free
  connectingTask := none
  inst := inst
  dials := 0
  opened := 0
  closed := []
  sent := []

/-- The suspension points of `connect()`. -/
inductive ConnectPc where
  /-- `await self._connecting_task`, before the lock -/
  | awaitTask (owner : TaskId)
  /-- `async with self._connect_lock` -/
  | lock
  /-- `await self._connecting_task`, under the lock -/
  | awaitTaskLocked (owner : TaskId)
  /-- `await websockets.connect(...)` -/
  | dialing
  /-- a `send` of `await self._send_subscription_message()` -/
  | sending (w : Ws) (payload : S.Payload) (k : S.Coro)
  /-- `await self._cleanup()` on the error path -/
  | closing (w : Ws)

/-- Who awaits `connect()`: a task, the top of the stream loop, or the reconnect loop. -/
inductive Caller where
  | task
  | stream
  | reconnect
  deriving DecidableEq, Repr

/-- The suspension points of a call. -/
inductive Pc where
  | connect (caller : Caller) (pc : ConnectPc S)
  | disconnectLock
  | disconnectClosing (w : Ws)
  /-- `await self._websocket.recv()` -/
  | recv (w : Ws)
  /-- `_handle_connection_closed`: `await self._cleanup()` -/
  | lostClosing (w : Ws)
  /-- `_handle_connection_closed`: `await asyncio.sleep(delay)` -/
  | backoff (delay : Nat)
  /-- a `send` of one of the subclass's own coroutines -/
  | own (w : Ws) (payload : S.Payload) (k : S.Coro)

/-- What a segment of `connect()` ends with. -/
inductive ConnectAct where
  | suspend (pc : ConnectPc S)
  | finish (r : Outcome)

/-- What a segment ends with. -/
inductive Act where
  | suspend (pc : Pc S)
  | finish (r : Outcome)
  | yields (m : S.Msg) (rest : List S.Msg)

/-- What the scheduler gives to a suspended call. -/
inductive Wake where
  | done
  | frame (f : S.Frame)
  | raised (e : PyExn)
  | cancelled

variable {S}

/-! ## State changes and clean-up -/

/-- `_transition_state`. -/
def transitionState (c : Conn S) (target : ConnectionState) : Except PyExn (Conn S) :=
  match c.state.validateTransition target with
  | .ok () => .ok { c with state := target }
  | .error e => .error e

/-- `_cleanup` up to its `await self._websocket.close()`: the socket being closed, if any. -/
def cleanup (c : Conn S) : Conn S × Option Ws :=
  match c.websocket with
  | some w => ({ c with closed := w :: c.closed }, some w)
  | none => (c, none)

/-- `_cleanup` after `close()` returned or raised. -/
def cleanupDone (c : Conn S) : Conn S := { c with websocket := none }

/-! ## `connect()` -/

/-- `ConnectionFailedError(f"Failed to connect to {self._config.websocket_url}")`. -/
def connectFailure : PyExn := .connectionFailedError ("Failed to connect to " ++ cfg.websocketUrl)

/-- The `finally` block of `connect()` and the release of the lock. -/
def connectFinally (c : Conn S) (t : TaskId) : Conn S :=
  { c with
    connectingTask := if c.connectingTask = some t then none else c.connectingTask
    connectLock := c.connectLock.release }

/-- `except Exception as e` of `connect()`, up to the `await` of its clean-up. -/
def connectFailed (c : Conn S) (t : TaskId) : Conn S × ConnectAct S :=
  match transitionState c .failed with
  | .error e => (connectFinally c t, .finish (.raised e))
  | .ok c =>
    match cleanup c with
    | (c, some w) => (c, .suspend (.closing w))
    | (c, none) => (connectFinally c t, .finish (.raised (connectFailure cfg)))

/-- After `_send_subscription_message` returned. -/
def connectSubscribed (c : Conn S) (t : TaskId) : Conn S × ConnectAct S :=
  match transitionState c .connected with
  | .error _ => connectFailed cfg c t
  | .ok c => (connectFinally { c with reconnectAttempts := 0 } t, .finish .returned)

/-- A segment of `_send_subscription_message` inside `connect()`. -/
def connectSending (c : Conn S) (t : TaskId) :
    S.Inst × SendStep S.Coro S.Payload → Conn S × ConnectAct S
  | (inst, .send w p k) => ({ c with inst }, .suspend (.sending w p k))
  | (inst, .returned) => connectSubscribed cfg { c with inst } t
  | (inst, .raised _) => connectFailed cfg { c with inst } t

/-- `websockets.connect` returned a socket: store it and start subscribing. -/
def connectDialed (c : Conn S) (t : TaskId) : Conn S × ConnectAct S :=
  let c := { c with websocket := some c.opened, opened := c.opened + 1 }
  connectSending cfg c t (S.sendSubscriptionMessage c.inst c.websocket)

/-- A new attempt, under the lock, up to `await websockets.connect(...)`. -/
def connectAttempt (c : Conn S) (t : TaskId) : Conn S × ConnectAct S :=
  let c := { c with connectingTask := some t }
  match transitionState c .connecting with
  | .error _ => connectFailed cfg c t
  | .ok c => ({ c with dials := c.dials + 1 }, .suspend .dialing)

/-- `self._connecting_task`, when it is set and not `done()`. -/
def inFlight (isDone : TaskId → Bool) (c : Conn S) : Option TaskId :=
  match c.connectingTask with
  | some o => if isDone o then none else some o
  | none => none

/-- The body of `async with self._connect_lock`, from the double check on. -/
def connectLocked (isDone : TaskId → Bool) (c : Conn S) (t : TaskId) : Conn S × ConnectAct S :=
  if c.state = .connected then
    ({ c with connectLock := c.connectLock.release }, .finish .returned)
  else
    match inFlight isDone c with
    | some o => (c, .suspend (.awaitTaskLocked o))
    | none => connectAttempt cfg c t

/-- `async with self._connect_lock`: enter at once or join the queue. -/
def connectAcquire (isDone : TaskId → Bool) (c : Conn S) (t : TaskId) : Conn S × ConnectAct S :=
  match c.connectLock.tryAcquire t with
  | some k => connectLocked cfg isDone { c with connectLock := k } t
  | none => ({ c with connectLock := c.connectLock.enqueue t }, .suspend .lock)

/-- `connect()`, first segment. -/
def connect (isDone : TaskId → Bool) (c : Conn S) (t : TaskId) : Conn S × ConnectAct S :=
  if c.state = .connected then (c, .finish .returned)
  else
    match inFlight isDone c with
    | some o => (c, .suspend (.awaitTask o))
    | none => connectAcquire cfg isDone c t

/-- `CancelledError` inside the `try` of `connect()`: only `finally` runs. -/
def connectCancelled (c : Conn S) (t : TaskId) : Conn S × ConnectAct S :=
  (connectFinally c t, .finish .cancelled)

/-- The segment of `connect()` that follows a suspension point. -/
def resumeConnect (isDone : TaskId → Bool) (c : Conn S) (t : TaskId) :
    ConnectPc S → Wake S → Option (Conn S × ConnectAct S)
  | .awaitTask _, .done => some (c, .finish .returned)
  | .awaitTask _, .raised _ => some (connectAcquire cfg isDone c t)
  | .awaitTask _, .cancelled => some (c, .finish .cancelled)
  | .lock, .done =>
    match c.connectLock.wake t with
    | some k => some (connectLocked cfg isDone { c with connectLock := k } t)
    | none => none
  | .lock, .cancelled =>
    some ({ c with connectLock := c.connectLock.abandon t }, .finish .cancelled)
  | .awaitTaskLocked _, .done =>
    some ({ c with connectLock := c.connectLock.release }, .finish .returned)
  | .awaitTaskLocked _, .raised _ => some (connectAttempt cfg c t)
  | .awaitTaskLocked _, .cancelled =>
    some ({ c with connectLock := c.connectLock.release }, .finish .cancelled)
  | .dialing, .done => some (connectDialed cfg c t)
  | .dialing, .raised _ => some (connectFailed cfg c t)
  | .dialing, .cancelled => some (connectCancelled c t)
  | .sending w p k, .done =>
    some (connectSending cfg { c with sent := c.sent ++ [(w, p)] } t
      (S.resumeSend c.inst c.websocket k none))
  | .sending _ _ k, .raised e =>
    some (connectSending cfg c t (S.resumeSend c.inst c.websocket k (some e)))
  | .sending _ _ _, .cancelled => some (connectCancelled c t)
  | .closing _, .done =>
    some (connectFinally (cleanupDone c) t, .finish (.raised (connectFailure cfg)))
  | .closing _, .raised _ =>
    some (connectFinally (cleanupDone c) t, .finish (.raised (connectFailure cfg)))
  | .closing _, .cancelled => some (connectCancelled c t)
  | _, _ => none

/-! ## `disconnect()` -/

/-- After the clean-up of `disconnect()`. -/
def disconnectFinish (c : Conn S) : Conn S × Act S :=
  match transitionState c .disconnected with
  | .ok c => ({ c with connectLock := c.connectLock.release }, .finish .returned)
  | .error e => ({ c with connectLock := c.connectLock.release }, .finish (.raised e))

/-- The body of `async with self._connect_lock`, from the double check on. -/
def disconnectLocked (c : Conn S) : Conn S × Act S :=
  if c.state = .disconnected then
    ({ c with connectLock := c.connectLock.release }, .finish .returned)
  else
    match cleanup c with
    | (c, some w) => (c, .suspend (.disconnectClosing w))
    | (c, none) => disconnectFinish c

/-- `disconnect()`, first segment. -/
def disconnect (c : Conn S) (t : TaskId) : Conn S × Act S :=
  if c.state = .disconnected then (c, .finish .returned)
  else
    match c.connectLock.tryAcquire t with
    | some k => disconnectLocked { c with connectLock := k }
    | none => ({ c with connectLock := c.connectLock.enqueue t }, .suspend .disconnectLock)

/-! ## `_handle_connection_closed()` -/

/-- `_should_attempt_reconnect`; `0` means without limit. -/
def shouldAttemptReconnect (c : Conn S) : Bool :=
  if cfg.maxReconnectAttempts = 0 then true
  else decide (c.reconnectAttempts < cfg.maxReconnectAttempts)

/-- `_calculate_backoff_delay`, in seconds. -/
def calculateBackoffDelay (c : Conn S) : Nat :=
  min (2 ^ c.reconnectAttempts) cfg.exponentialBackoffMaxSeconds

/-- `ConnectionClosedError(f"Failed to reconnect after {n} attempts")`. -/
def reconnectFailure (c : Conn S) : PyExn :=
  .connectionClosedError ("Failed to reconnect after " ++ toString c.reconnectAttempts ++
    " attempts")

/-- After the reconnect loop. -/
def giveUp (c : Conn S) : Conn S × Act S :=
  if c.state = .connecting ∨ c.state = .connected ∨ c.state = .reconnecting then
    match transitionState c .failed with
    | .ok c => (c, .finish (.raised (reconnectFailure c)))
    | .error e => (c, .finish (.raised e))
  else (c, .finish (.raised (reconnectFailure c)))

/-- The head of `while self._should_attempt_reconnect()`, up to the sleep. -/
def reconnectLoop (c : Conn S) : Conn S × Act S :=
  if shouldAttemptReconnect cfg c then
    let c := { c with reconnectAttempts := c.reconnectAttempts + 1 }
    (c, .suspend (.backoff (calculateBackoffDelay cfg c)))
  else giveUp c

/-- The clean-up of `_handle_connection_closed`, and the loop if there is no socket to close. -/
def handleCleanup (c : Conn S) : Conn S × Act S :=
  match cleanup c with
  | (c, some w) => (c, .suspend (.lostClosing w))
  | (c, none) => reconnectLoop cfg c

/-- `_handle_connection_closed`, first segment. -/
def handleConnectionClosed (c : Conn S) : Conn S × Act S :=
  if c.state = .connected then
    match transitionState c .reconnecting with
    | .ok c => handleCleanup cfg c
    | .error e => (c, .finish (.raised e))
  else if c.state = .failed then
    match transitionState c .disconnected with
    | .ok c => handleCleanup cfg c
    | .error e => (c, .finish (.raised e))
  else handleCleanup cfg c

/-! ## `stream_market_data()` -/

/-- `await self._websocket.recv()`; without a socket `ConnectionClosedError` is raised and
caught by `except Exception`. -/
def recvMessage (c : Conn S) : Conn S × Act S :=
  match c.websocket with
  | some w => (c, .suspend (.recv w))
  | none => handleConnectionClosed cfg c

/-- `connect()` at the top of the loop has ended or is suspended.  It raises only
`ConnectionFailedError` or `InvalidTransitionError`, which `except Exception` catches. -/
def afterStreamConnect : Conn S × ConnectAct S → Conn S × Act S
  | (c, .suspend pc) => (c, .suspend (.connect .stream pc))
  | (c, .finish .returned) => recvMessage cfg c
  | (c, .finish (.raised _)) => handleConnectionClosed cfg c
  | (c, .finish .cancelled) => (c, .finish .cancelled)

/-- The top of `while True`. -/
def streamLoop (isDone : TaskId → Bool) (c : Conn S) (t : TaskId) : Conn S × Act S :=
  if c.state = .connected then recvMessage cfg c
  else afterStreamConnect cfg (connect cfg isDone c t)

/-- The `except` clauses of the loop. -/
def streamExcept (isDone : TaskId → Bool) (c : Conn S) (t : TaskId) (e : PyExn) : Conn S × Act S :=
  if e.isParsingError then streamLoop cfg isDone c t else handleConnectionClosed cfg c

/-- `for message in messages: yield message`, then the top of the loop. -/
def yieldMessages (isDone : TaskId → Bool) (c : Conn S) (t : TaskId) :
    List S.Msg → Conn S × Act S
  | m :: rest => (c, .yields m rest)
  | [] => streamLoop cfg isDone c t

/-- `recv()` returned a frame: parse, convert, yield. -/
def streamFrame (isDone : TaskId → Bool) (c : Conn S) (t : TaskId) (f : S.Frame) :
    Conn S × Act S :=
  match S.parseMessage c.inst f with
  | (inst, .error e) => streamExcept cfg isDone { c with inst } t e
  | (inst, .ok none) => streamLoop cfg isDone { c with inst } t
  | (inst, .ok (some parsed)) =>
    match S.convertToMarketDataMessages inst parsed with
    | (inst, .error e) => streamExcept cfg isDone { c with inst } t e
    | (inst, .ok ms) => yieldMessages cfg isDone { c with inst } t ms

/-- `connect()` in the reconnect loop has ended or is suspended. -/
def afterReconnect (isDone : TaskId → Bool) (t : TaskId) : Conn S × ConnectAct S → Conn S × Act S
  | (c, .suspend pc) => (c, .suspend (.connect .reconnect pc))
  | (c, .finish .returned) => streamLoop cfg isDone c t
  | (c, .finish (.raised e)) =>
    if e.isConnectionFailedError then
      if c.state = .disconnected then reconnectLoop cfg c
      else
        match transitionState c .disconnected with
        | .ok c => reconnectLoop cfg c
        | .error e => (c, .finish (.raised e))
    else (c, .finish (.raised e))
  | (c, .finish .cancelled) => (c, .finish .cancelled)

/-- After the sleep of the reconnect loop. -/
def reconnect (isDone : TaskId → Bool) (c : Conn S) (t : TaskId) : Conn S × Act S :=
  match transitionState c .disconnected with
  | .error e => (c, .finish (.raised e))
  | .ok c => afterReconnect cfg isDone t (connect cfg isDone c t)

/-! ## Calls and resumptions -/

/-- `connect()` awaited by a task. -/
def afterTaskConnect : Conn S × ConnectAct S → Conn S × Act S
  | (c, .suspend pc) => (c, .suspend (.connect .task pc))
  | (c, .finish r) => (c, .finish r)

/-- What follows `connect()`, by its caller. -/
def afterConnect (isDone : TaskId → Bool) (t : TaskId) : Caller → Conn S × ConnectAct S → Conn S × Act S
  | .task => afterTaskConnect
  | .stream => afterStreamConnect cfg
  | .reconnect => afterReconnect cfg isDone t

/-- A segment of one of the subclass's own coroutines. -/
def ownSending (c : Conn S) : S.Inst × SendStep S.Coro S.Payload → Conn S × Act S
  | (inst, .send w p k) => ({ c with inst }, .suspend (.own w p k))
  | (inst, .returned) => ({ c with inst }, .finish .returned)
  | (inst, .raised e) => ({ c with inst }, .finish (.raised e))

/-- The public coroutines. -/
inductive Op (S : Subclass) where
  | connect
  | disconnect
  | stream
  | own (o : S.Own)

/-- The first segment of a call. -/
def enter (isDone : TaskId → Bool) (c : Conn S) (t : TaskId) : Op S → Conn S × Act S
  | .connect => afterTaskConnect (connect cfg isDone c t)
  | .disconnect => disconnect c t
  | .stream => streamLoop cfg isDone c t
  | .own o => ownSending c (S.own c.inst c.websocket o)

/-- The segment that follows a suspension point; `none` if it cannot be resumed so. -/
def advance (isDone : TaskId → Bool) (c : Conn S) (t : TaskId) : Pc S → Wake S → Option (Conn S × Act S)
  | .connect caller pc, w => (resumeConnect cfg isDone c t pc w).map (afterConnect cfg isDone t caller)
  | .disconnectLock, .done =>
    match c.connectLock.wake t with
    | some k => some (disconnectLocked { c with connectLock := k })
    | none => none
  | .disconnectLock, .cancelled =>
    some ({ c with connectLock := c.connectLock.abandon t }, .finish .cancelled)
  | .disconnectClosing _, .done => some (disconnectFinish (cleanupDone c))
  | .disconnectClosing _, .raised _ => some (disconnectFinish (cleanupDone c))
  | .disconnectClosing _, .cancelled =>
    some ({ c with connectLock := c.connectLock.release }, .finish .cancelled)
  | .recv _, .frame f => some (streamFrame cfg isDone c t f)
  | .recv _, .raised e => some (streamExcept cfg isDone c t e)
  | .recv _, .cancelled => some (c, .finish .cancelled)
  | .lostClosing _, .done => some (reconnectLoop cfg (cleanupDone c))
  | .lostClosing _, .raised _ => some (reconnectLoop cfg (cleanupDone c))
  | .lostClosing _, .cancelled => some (c, .finish .cancelled)
  | .backoff _, .done => some (reconnect cfg isDone c t)
  | .backoff _, .cancelled => some (c, .finish .cancelled)
  | .own w p k, .done =>
    some (ownSending { c with sent := c.sent ++ [(w, p)] } (S.resumeSend c.inst c.websocket k none))
  | .own _ _ k, .raised e => some (ownSending c (S.resumeSend c.inst c.websocket k (some e)))
  | .own _ _ _, .cancelled => some (c, .finish .cancelled)
  | _, _ => none

end FlinkPractices.Connector
