import FlinkPractices.Connector.Base
import Mathlib.Logic.Relation

/-!
# The control flow of the connector

The segments of `Connector.Base` are functions from one suspension point to the next.  Here they
are taken apart: `Point` names the places between two statements of the coroutines, and `Edge t`
is the control-flow graph, one constructor for each way execution goes from one place to the next
(with the change it makes to the connector).  Principal results: every segment is a path of edges,

* `enter_path` (the first segment of a call), `yieldMessages_path` (the generator goes on),
* `advance_path` (the segment after a suspension point),

so that whatever each edge keeps is kept by all of them, and an invariant of the connector is one
case analysis over the graph, with the cases named after what happens in the source.

`Part` divides the graph by coroutine: `connect()`, `disconnect()`, the stream, the handler of a
lost connection, the subclass's own coroutines, and what leads from a call or from the end of
`connect()` into one of them.  A long case analysis is made part by part.

The graph is a relation: it allows a suspended call to go on from any answer, whether or not the
system could give that answer then.  Which answers are possible, and that a segment always ends, is
the business of `Connector.Base` and `Connector.Tasks`.
-/

set_option autoImplicit false

namespace FlinkPractices.Connector

open Lib

variable {U : UpperTable} {S : Subclass} (cfg : ExchangeConfig U)

/-- Places in the coroutines. -/
inductive Point (S : Subclass) where
  /-- no call in progress -/
  | idle
  | enter (op : Op S)
  | resumed (pc : Pc S) (w : Wake S)
  | generator (ms : List S.Msg)
  /-- at the start of `connect()` -/
  | connect (caller : Caller)
  /-- before `async with self._connect_lock` of `connect()` -/
  | acquire (caller : Caller)
  /-- after it -/
  | locked (caller : Caller)
  /-- at the start of the `try` -/
  | attempt (caller : Caller)
  /-- a segment of `_send_subscription_message` has ended with `r` -/
  | sent (caller : Caller) (r : SendStep S.Coro S.Payload)
  /-- in `except Exception` -/
  | failed (caller : Caller)
  /-- `connect()` has ended with `r` -/
  | ended (caller : Caller) (r : Outcome)
  /-- at the start of `disconnect()`, under its lock, and after its clean-up -/
  | disconnect
  | disconnectLocked
  | disconnectFinish
  /-- at the top of the stream loop -/
  | loop
  | receive
  /-- at the start of `_handle_connection_closed`, before its clean-up, at its loop -/
  | lost
  | lostCleanup
  | retry
  /-- a segment of one of the subclass's own coroutines has ended with `r` -/
  | own (r : SendStep S.Coro S.Payload)
  | suspended (pc : Pc S)
  | finished (r : Outcome)
  | yielded (m : S.Msg) (rest : List S.Msg)

/-- `InvalidTransitionError` for a transition out of the current state. -/
def Conn.invalid (c : Conn S) (s : ConnectionState) : PyExn :=
  .invalidTransitionError (ConnectionState.invalidTransitionMessage c.state s)

/-- The control-flow graph, for task `t`. -/
inductive Edge (isDone : TaskId → Bool) (t : TaskId) : Point S → Conn S → Point S → Conn S → Prop
  -- connect()
  | connectAlready {k c} : c.state = .connected →
      Edge isDone t (.connect k) c (.ended k .returned) c
  | connectAwait {k c o} : c.state ≠ .connected → inFlight isDone c = some o →
      Edge isDone t (.connect k) c (.suspended (.connect k (.awaitTask o))) c
  | connectAcquire {k c} : c.state ≠ .connected → inFlight isDone c = none →
      Edge isDone t (.connect k) c (.acquire k) c
  | taskReturned {k c o} :
      Edge isDone t (.resumed (.connect k (.awaitTask o)) .done) c (.ended k .returned) c
  | taskRaised {k c o e} :
      Edge isDone t (.resumed (.connect k (.awaitTask o)) (.raised e)) c (.acquire k) c
  | taskCancelled {k c o} :
      Edge isDone t (.resumed (.connect k (.awaitTask o)) .cancelled) c (.ended k .cancelled) c
  | acquire {k c l} : c.connectLock.tryAcquire t = some l →
      Edge isDone t (.acquire k) c (.locked k) { c with connectLock := l }
  | queue {k c} : c.connectLock.tryAcquire t = none →
      Edge isDone t (.acquire k) c (.suspended (.connect k .lock))
        { c with connectLock := c.connectLock.enqueue t }
  | lockWoken {k c l} : c.connectLock.wake t = some l →
      Edge isDone t (.resumed (.connect k .lock) .done) c (.locked k) { c with connectLock := l }
  | lockCancelled {k c} :
      Edge isDone t (.resumed (.connect k .lock) .cancelled) c (.ended k .cancelled)
        { c with connectLock := c.connectLock.abandon t }
  | lockedAlready {k c} : c.state = .connected →
      Edge isDone t (.locked k) c (.ended k .returned)
        { c with connectLock := c.connectLock.release }
  | lockedAwait {k c o} : c.state ≠ .connected → inFlight isDone c = some o →
      Edge isDone t (.locked k) c (.suspended (.connect k (.awaitTaskLocked o))) c
  | lockedAttempt {k c} : c.state ≠ .connected → inFlight isDone c = none →
      Edge isDone t (.locked k) c (.attempt k) { c with connectingTask := some t }
  | lockedReturned {k c o} :
      Edge isDone t (.resumed (.connect k (.awaitTaskLocked o)) .done) c (.ended k .returned)
        { c with connectLock := c.connectLock.release }
  | lockedRaised {k c o e} :
      Edge isDone t (.resumed (.connect k (.awaitTaskLocked o)) (.raised e)) c (.attempt k)
        { c with connectingTask := some t }
  | lockedCancelled {k c o} :
      Edge isDone t (.resumed (.connect k (.awaitTaskLocked o)) .cancelled) c (.ended k .cancelled)
        { c with connectLock := c.connectLock.release }
  | dial {k c} : c.state.isValidTransition .connecting = true →
      Edge isDone t (.attempt k) c (.suspended (.connect k .dialing))
        { c with state := .connecting, dials := c.dials + 1 }
  | dialInvalid {k c} : c.state.isValidTransition .connecting = false →
      Edge isDone t (.attempt k) c (.failed k) c
  | dialReturned {k c i r} : S.sendSubscriptionMessage c.inst (some c.opened) = (i, r) →
      Edge isDone t (.resumed (.connect k .dialing) .done) c (.sent k r)
        { c with websocket := some c.opened, opened := c.opened + 1, inst := i }
  | dialRaised {k c e} :
      Edge isDone t (.resumed (.connect k .dialing) (.raised e)) c (.failed k) c
  | dialCancelled {k c} :
      Edge isDone t (.resumed (.connect k .dialing) .cancelled) c (.ended k .cancelled)
        (connectFinally c t)
  | send {k c w p q} :
      Edge isDone t (.sent k (.send w p q)) c (.suspended (.connect k (.sending w p q))) c
  | sendReturned {k c w p q i r} : S.resumeSend c.inst c.websocket q none = (i, r) →
      Edge isDone t (.resumed (.connect k (.sending w p q)) .done) c (.sent k r)
        { c with sent := c.sent ++ [(w, p)], inst := i }
  | sendRaised {k c w p q e i r} : S.resumeSend c.inst c.websocket q (some e) = (i, r) →
      Edge isDone t (.resumed (.connect k (.sending w p q)) (.raised e)) c (.sent k r)
        { c with inst := i }
  | sendCancelled {k c w p q} :
      Edge isDone t (.resumed (.connect k (.sending w p q)) .cancelled) c (.ended k .cancelled)
        (connectFinally c t)
  | connected {k c} : c.state.isValidTransition .connected = true →
      Edge isDone t (.sent k .returned) c (.ended k .returned)
        (connectFinally { c with state := .connected, reconnectAttempts := 0 } t)
  | connectedInvalid {k c} : c.state.isValidTransition .connected = false →
      Edge isDone t (.sent k .returned) c (.failed k) c
  | subscribeRaised {k c e} : Edge isDone t (.sent k (.raised e)) c (.failed k) c
  | failClose {k c w} : c.state.isValidTransition .failed = true → c.websocket = some w →
      Edge isDone t (.failed k) c (.suspended (.connect k (.closing w)))
        { c with state := .failed, closed := w :: c.closed }
  | failNone {k c} : c.state.isValidTransition .failed = true → c.websocket = none →
      Edge isDone t (.failed k) c (.ended k (.raised (connectFailure cfg)))
        (connectFinally { c with state := .failed } t)
  | failInvalid {k c} : c.state.isValidTransition .failed = false →
      Edge isDone t (.failed k) c (.ended k (.raised (c.invalid .failed))) (connectFinally c t)
  | closeReturned {k c w} :
      Edge isDone t (.resumed (.connect k (.closing w)) .done) c
        (.ended k (.raised (connectFailure cfg))) (connectFinally (cleanupDone c) t)
  | closeRaised {k c w e} :
      Edge isDone t (.resumed (.connect k (.closing w)) (.raised e)) c
        (.ended k (.raised (connectFailure cfg))) (connectFinally (cleanupDone c) t)
  | closeCancelled {k c w} :
      Edge isDone t (.resumed (.connect k (.closing w)) .cancelled) c (.ended k .cancelled)
        (connectFinally c t)
  -- what follows connect(), by its caller
  | endedTask {c r} : Edge isDone t (.ended .task r) c (.finished r) c
  | endedStreamReturned {c} : Edge isDone t (.ended .stream .returned) c .receive c
  | endedStreamRaised {c e} : Edge isDone t (.ended .stream (.raised e)) c .lost c
  | endedStreamCancelled {c} : Edge isDone t (.ended .stream .cancelled) c (.finished .cancelled) c
  | endedReconnectReturned {c} : Edge isDone t (.ended .reconnect .returned) c .loop c
  | endedReconnectFailed {c e} : e.isConnectionFailedError = true →
      c.state.isValidTransition .disconnected = true →
      Edge isDone t (.ended .reconnect (.raised e)) c .retry { c with state := .disconnected }
  | endedReconnectInvalid {c e} : e.isConnectionFailedError = true →
      c.state.isValidTransition .disconnected = false →
      Edge isDone t (.ended .reconnect (.raised e)) c
        (.finished (.raised (c.invalid .disconnected))) c
  | endedReconnectRaised {c e} : e.isConnectionFailedError = false →
      Edge isDone t (.ended .reconnect (.raised e)) c (.finished (.raised e)) c
  | endedReconnectCancelled {c} :
      Edge isDone t (.ended .reconnect .cancelled) c (.finished .cancelled) c
  -- disconnect()
  | disconnectAlready {c} : c.state = .disconnected →
      Edge isDone t .disconnect c (.finished .returned) c
  | disconnectAcquire {c l} : c.state ≠ .disconnected → c.connectLock.tryAcquire t = some l →
      Edge isDone t .disconnect c .disconnectLocked { c with connectLock := l }
  | disconnectQueue {c} : c.state ≠ .disconnected → c.connectLock.tryAcquire t = none →
      Edge isDone t .disconnect c (.suspended .disconnectLock)
        { c with connectLock := c.connectLock.enqueue t }
  | disconnectWoken {c l} : c.connectLock.wake t = some l →
      Edge isDone t (.resumed .disconnectLock .done) c .disconnectLocked
        { c with connectLock := l }
  | disconnectLockCancelled {c} :
      Edge isDone t (.resumed .disconnectLock .cancelled) c (.finished .cancelled)
        { c with connectLock := c.connectLock.abandon t }
  | disconnectedAlready {c} : c.state = .disconnected →
      Edge isDone t .disconnectLocked c (.finished .returned)
        { c with connectLock := c.connectLock.release }
  | disconnectClose {c w} : c.state ≠ .disconnected → c.websocket = some w →
      Edge isDone t .disconnectLocked c (.suspended (.disconnectClosing w))
        { c with closed := w :: c.closed }
  | disconnectNone {c} : c.state ≠ .disconnected → c.websocket = none →
      Edge isDone t .disconnectLocked c .disconnectFinish c
  | disconnectClosed {c w} :
      Edge isDone t (.resumed (.disconnectClosing w) .done) c .disconnectFinish (cleanupDone c)
  | disconnectCloseRaised {c w e} :
      Edge isDone t (.resumed (.disconnectClosing w) (.raised e)) c .disconnectFinish
        (cleanupDone c)
  | disconnectCloseCancelled {c w} :
      Edge isDone t (.resumed (.disconnectClosing w) .cancelled) c (.finished .cancelled)
        { c with connectLock := c.connectLock.release }
  | disconnected {c} : c.state.isValidTransition .disconnected = true →
      Edge isDone t .disconnectFinish c (.finished .returned)
        { c with state := .disconnected, connectLock := c.connectLock.release }
  | disconnectInvalid {c} : c.state.isValidTransition .disconnected = false →
      Edge isDone t .disconnectFinish c (.finished (.raised (c.invalid .disconnected)))
        { c with connectLock := c.connectLock.release }
  -- stream_market_data()
  | loopConnected {c} : c.state = .connected → Edge isDone t .loop c .receive c
  | loopConnect {c} : c.state ≠ .connected → Edge isDone t .loop c (.connect .stream) c
  | recv {c w} : c.websocket = some w → Edge isDone t .receive c (.suspended (.recv w)) c
  | recvNone {c} : c.websocket = none → Edge isDone t .receive c .lost c
  | frameSkipped {c w f i} : S.parseMessage c.inst f = (i, .ok none) →
      Edge isDone t (.resumed (.recv w) (.frame f)) c .loop { c with inst := i }
  | frameInvalid {c w f i e} : S.parseMessage c.inst f = (i, .error e) → e.isParsingError = true →
      Edge isDone t (.resumed (.recv w) (.frame f)) c .loop { c with inst := i }
  | frameRaised {c w f i e} : S.parseMessage c.inst f = (i, .error e) → e.isParsingError = false →
      Edge isDone t (.resumed (.recv w) (.frame f)) c .lost { c with inst := i }
  | convertInvalid {c w f i j d e} : S.parseMessage c.inst f = (i, .ok (some d)) →
      S.convertToMarketDataMessages i d = (j, .error e) → e.isParsingError = true →
      Edge isDone t (.resumed (.recv w) (.frame f)) c .loop { c with inst := j }
  | convertRaised {c w f i j d e} : S.parseMessage c.inst f = (i, .ok (some d)) →
      S.convertToMarketDataMessages i d = (j, .error e) → e.isParsingError = false →
      Edge isDone t (.resumed (.recv w) (.frame f)) c .lost { c with inst := j }
  | converted {c w f i j d ms} : S.parseMessage c.inst f = (i, .ok (some d)) →
      S.convertToMarketDataMessages i d = (j, .ok ms) →
      Edge isDone t (.resumed (.recv w) (.frame f)) c (.generator ms) { c with inst := j }
  | yields {c m ms} : Edge isDone t (.generator (m :: ms)) c (.yielded m ms) c
  | yieldedAll {c} : Edge isDone t (.generator []) c .loop c
  | recvInvalid {c w e} : e.isParsingError = true →
      Edge isDone t (.resumed (.recv w) (.raised e)) c .loop c
  | recvRaised {c w e} : e.isParsingError = false →
      Edge isDone t (.resumed (.recv w) (.raised e)) c .lost c
  | recvCancelled {c w} :
      Edge isDone t (.resumed (.recv w) .cancelled) c (.finished .cancelled) c
  -- _handle_connection_closed()
  | lostConnected {c} : c.state = .connected →
      Edge isDone t .lost c .lostCleanup { c with state := .reconnecting }
  | lostFailed {c} : c.state = .failed →
      Edge isDone t .lost c .lostCleanup { c with state := .disconnected }
  | lostOther {c} : c.state ≠ .connected → c.state ≠ .failed →
      Edge isDone t .lost c .lostCleanup c
  | lostClose {c w} : c.websocket = some w →
      Edge isDone t .lostCleanup c (.suspended (.lostClosing w)) { c with closed := w :: c.closed }
  | lostNone {c} : c.websocket = none → Edge isDone t .lostCleanup c .retry c
  | lostClosed {c w} :
      Edge isDone t (.resumed (.lostClosing w) .done) c .retry (cleanupDone c)
  | lostCloseRaised {c w e} :
      Edge isDone t (.resumed (.lostClosing w) (.raised e)) c .retry (cleanupDone c)
  | lostCancelled {c w} :
      Edge isDone t (.resumed (.lostClosing w) .cancelled) c (.finished .cancelled) c
  | backoff {c} : shouldAttemptReconnect cfg c = true →
      Edge isDone t .retry c
        (.suspended (.backoff (calculateBackoffDelay cfg
          { c with reconnectAttempts := c.reconnectAttempts + 1 })))
        { c with reconnectAttempts := c.reconnectAttempts + 1 }
  | giveUpFailed {c} : shouldAttemptReconnect cfg c = false →
      c.state = .connecting ∨ c.state = .connected ∨ c.state = .reconnecting →
      Edge isDone t .retry c (.finished (.raised (reconnectFailure c))) { c with state := .failed }
  | giveUp {c} : shouldAttemptReconnect cfg c = false →
      ¬(c.state = .connecting ∨ c.state = .connected ∨ c.state = .reconnecting) →
      Edge isDone t .retry c (.finished (.raised (reconnectFailure c))) c
  | woken {c n} : c.state.isValidTransition .disconnected = true →
      Edge isDone t (.resumed (.backoff n) .done) c (.connect .reconnect)
        { c with state := .disconnected }
  | wokenInvalid {c n} : c.state.isValidTransition .disconnected = false →
      Edge isDone t (.resumed (.backoff n) .done) c
        (.finished (.raised (c.invalid .disconnected))) c
  | backoffCancelled {c n} :
      Edge isDone t (.resumed (.backoff n) .cancelled) c (.finished .cancelled) c
  -- the subclass's own coroutines
  | ownStart {c o i r} : S.own c.inst c.websocket o = (i, r) →
      Edge isDone t (.enter (.own o)) c (.own r) { c with inst := i }
  | ownSend {c w p q} : Edge isDone t (.own (.send w p q)) c (.suspended (.own w p q)) c
  | ownReturned {c} : Edge isDone t (.own .returned) c (.finished .returned) c
  | ownRaised {c e} : Edge isDone t (.own (.raised e)) c (.finished (.raised e)) c
  | ownSent {c w p q i r} : S.resumeSend c.inst c.websocket q none = (i, r) →
      Edge isDone t (.resumed (.own w p q) .done) c (.own r)
        { c with sent := c.sent ++ [(w, p)], inst := i }
  | ownSendRaised {c w p q e i r} : S.resumeSend c.inst c.websocket q (some e) = (i, r) →
      Edge isDone t (.resumed (.own w p q) (.raised e)) c (.own r) { c with inst := i }
  | ownCancelled {c w p q} :
      Edge isDone t (.resumed (.own w p q) .cancelled) c (.finished .cancelled) c
  -- calls
  | enterConnect {c} : Edge isDone t (.enter .connect) c (.connect .task) c
  | enterDisconnect {c} : Edge isDone t (.enter .disconnect) c .disconnect c
  | enterStream {c} : Edge isDone t (.enter .stream) c .loop c

/-- The parts of the graph. -/
inductive Part
  | connect
  /-- what a caller does first, and when `connect()` has ended -/
  | caller
  | disconnect
  /-- `stream_market_data()` -/
  | stream
  /-- `_handle_connection_closed()` -/
  | lost
  /-- the subclass's own coroutines -/
  | own

def Pc.part : Pc S → Part
  | .connect _ _ => .connect
  | .disconnectLock => .disconnect
  | .disconnectClosing _ => .disconnect
  | .recv _ => .stream
  | .lostClosing _ => .lost
  | .backoff _ => .lost
  | .own _ _ _ => .own

/-- The part whose edges leave a place; none leaves the last three. -/
def Point.part : Point S → Part
  | .resumed pc _ => pc.part
  | .connect _ => .connect
  | .acquire _ => .connect
  | .locked _ => .connect
  | .attempt _ => .connect
  | .sent _ _ => .connect
  | .failed _ => .connect
  | .disconnect => .disconnect
  | .disconnectLocked => .disconnect
  | .disconnectFinish => .disconnect
  | .generator _ => .stream
  | .loop => .stream
  | .receive => .stream
  | .lost => .lost
  | .lostCleanup => .lost
  | .retry => .lost
  | .own _ => .own
  | .idle => .caller
  | .enter _ => .caller
  | .ended _ _ => .caller
  | .suspended pc => pc.part
  | .finished _ => .caller
  | .yielded _ _ => .stream

/-- Paths through the graph. -/
def Path (isDone : TaskId → Bool) (t : TaskId) (x y : Point S × Conn S) : Prop :=
  Relation.ReflTransGen (fun x y => Edge cfg isDone t x.1 x.2 y.1 y.2) x y

/-- Where a segment leaves its task. -/
def Act.point : Act S → Point S
  | .suspend pc => .suspended pc
  | .finish r => .finished r
  | .yields m rest => .yielded m rest

/-- Where a segment of `connect()` leaves its task. -/
def ConnectAct.point (caller : Caller) : ConnectAct S → Point S
  | .suspend pc => .suspended (.connect caller pc)
  | .finish r => .ended caller r

/-! ## State changes and clean-up -/

theorem transitionState_valid {c : Conn S} {s : ConnectionState}
    (h : c.state.isValidTransition s = true) :
    transitionState c s = .ok { c with state := s } := by
  simp [transitionState, ConnectionState.validateTransition, h]

theorem transitionState_invalid {c : Conn S} {s : ConnectionState}
    (h : c.state.isValidTransition s = false) : transitionState c s = .error (c.invalid s) := by
  simp [transitionState, ConnectionState.validateTransition, Conn.invalid, h]

/-- The two ways a state change ends. -/
theorem transitionState_cases (c : Conn S) (s : ConnectionState) :
    (c.state.isValidTransition s = true ∧ transitionState c s = .ok { c with state := s }) ∨
    (c.state.isValidTransition s = false ∧ transitionState c s = .error (c.invalid s)) := by
  cases h : c.state.isValidTransition s with
  | true => exact .inl ⟨rfl, transitionState_valid h⟩
  | false => exact .inr ⟨rfl, transitionState_invalid h⟩

/-- The two ways the first half of a clean-up ends. -/
theorem cleanup_cases (c : Conn S) :
    (c.websocket = none ∧ cleanup c = (c, none)) ∨
    ∃ w, c.websocket = some w ∧ cleanup c = ({ c with closed := w :: c.closed }, some w) := by
  unfold cleanup
  split
  · rename_i w hw; exact .inr ⟨w, hw, rfl⟩
  · rename_i hw; exact .inl ⟨hw, rfl⟩

variable {cfg} {isDone : TaskId → Bool} {t : TaskId}

theorem Edge.path {p p' : Point S} {c c' : Conn S} (h : Edge cfg isDone t p c p' c') :
    Path cfg isDone t (p, c) (p', c') := .single h

theorem Edge.then {p p' : Point S} {c c' : Conn S} {y : Point S × Conn S}
    (h : Edge cfg isDone t p c p' c') (hp : Path cfg isDone t (p', c') y) :
    Path cfg isDone t (p, c) y := .head h hp

/-! ## `connect()` -/

section Connect

variable {k : Caller}

theorem connectFailed_path (c : Conn S) :
    Path cfg isDone t (.failed k, c)
      ((connectFailed cfg c t).2.point k, (connectFailed cfg c t).1) := by
  unfold connectFailed
  rcases transitionState_cases c .failed with ⟨hv, he⟩ | ⟨hv, he⟩ <;> rw [he]
  · rcases cleanup_cases { c with state := .failed } with ⟨hw, hc⟩ | ⟨w, hw, hc⟩ <;>
      simp only [hc]
    · exact (Edge.failNone hv hw).path
    · exact (Edge.failClose hv hw).path
  · exact (Edge.failInvalid hv).path

theorem connectSubscribed_path (c : Conn S) :
    Path cfg isDone t (.sent k .returned, c)
      ((connectSubscribed cfg c t).2.point k, (connectSubscribed cfg c t).1) := by
  unfold connectSubscribed
  rcases transitionState_cases c .connected with ⟨hv, he⟩ | ⟨hv, he⟩ <;> rw [he]
  · exact (Edge.connected hv).path
  · exact (Edge.connectedInvalid hv).then (connectFailed_path c)

theorem connectSending_path (c : Conn S) : ∀ {i : S.Inst} {r : SendStep S.Coro S.Payload},
    Path cfg isDone t (.sent k r, { c with inst := i })
      ((connectSending cfg c t (i, r)).2.point k, (connectSending cfg c t (i, r)).1)
  | _, .send _ _ _ => Edge.send.path
  | _, .returned => connectSubscribed_path _
  | _, .raised _ => Edge.subscribeRaised.then (connectFailed_path _)

theorem connectAttempt_path (c : Conn S) :
    Path cfg isDone t (.attempt k, { c with connectingTask := some t })
      ((connectAttempt cfg c t).2.point k, (connectAttempt cfg c t).1) := by
  unfold connectAttempt
  rcases transitionState_cases { c with connectingTask := some t } .connecting with
    ⟨hv, he⟩ | ⟨hv, he⟩ <;> simp only [he]
  · exact (Edge.dial hv).path
  · exact (Edge.dialInvalid hv).then (connectFailed_path _)

theorem connectLocked_path (c : Conn S) :
    Path cfg isDone t (.locked k, c)
      ((connectLocked cfg isDone c t).2.point k, (connectLocked cfg isDone c t).1) := by
  unfold connectLocked
  split
  · rename_i hs; exact (Edge.lockedAlready hs).path
  · rename_i hs
    split
    · rename_i o ho; exact (Edge.lockedAwait hs ho).path
    · rename_i ho; exact (Edge.lockedAttempt hs ho).then (connectAttempt_path c)

theorem connectAcquire_path (c : Conn S) :
    Path cfg isDone t (.acquire k, c)
      ((connectAcquire cfg isDone c t).2.point k, (connectAcquire cfg isDone c t).1) := by
  unfold connectAcquire
  split
  · rename_i l hl; exact (Edge.acquire hl).then (connectLocked_path _)
  · rename_i hl; exact (Edge.queue hl).path

/-- The first segment of `connect()` is a path. -/
theorem connect_path (c : Conn S) :
    Path cfg isDone t (.connect k, c)
      ((connect cfg isDone c t).2.point k, (connect cfg isDone c t).1) := by
  unfold connect
  split
  · rename_i hs; exact (Edge.connectAlready hs).path
  · rename_i hs
    split
    · rename_i o ho; exact (Edge.connectAwait hs ho).path
    · rename_i ho; exact (Edge.connectAcquire hs ho).then (connectAcquire_path c)

/-- The later segments of `connect()` are paths. -/
theorem resumeConnect_path {c : Conn S} {pc : ConnectPc S} {w : Wake S}
    {r : Conn S × ConnectAct S} (hr : resumeConnect cfg isDone c t pc w = some r) :
    Path cfg isDone t (.resumed (.connect k pc) w, c) (r.2.point k, r.1) := by
  cases pc with
  | awaitTask o =>
    cases w <;> simp only [resumeConnect, Option.some.injEq, reduceCtorEq] at hr <;> subst hr
    · exact Edge.taskReturned.path
    · exact Edge.taskRaised.then (connectAcquire_path c)
    · exact Edge.taskCancelled.path
  | lock =>
    cases w <;> simp only [resumeConnect, Option.some.injEq, reduceCtorEq] at hr
    · split at hr
      · rename_i l hl; cases hr; exact (Edge.lockWoken hl).then (connectLocked_path _)
      · cases hr
    · subst hr; exact Edge.lockCancelled.path
  | awaitTaskLocked o =>
    cases w <;> simp only [resumeConnect, Option.some.injEq, reduceCtorEq] at hr <;> subst hr
    · exact Edge.lockedReturned.path
    · exact Edge.lockedRaised.then (connectAttempt_path c)
    · exact Edge.lockedCancelled.path
  | dialing =>
    cases w <;> simp only [resumeConnect, Option.some.injEq, reduceCtorEq] at hr <;> subst hr
    · exact (Edge.dialReturned rfl).then
        (connectSending_path { c with websocket := some c.opened, opened := c.opened + 1 })
    · exact Edge.dialRaised.then (connectFailed_path c)
    · exact Edge.dialCancelled.path
  | sending w' p q =>
    cases w <;> simp only [resumeConnect, Option.some.injEq, reduceCtorEq] at hr <;> subst hr
    · exact (Edge.sendReturned rfl).then
        (connectSending_path { c with sent := c.sent ++ [(w', p)] })
    · exact (Edge.sendRaised rfl).then (connectSending_path c)
    · exact Edge.sendCancelled.path
  | closing w' =>
    cases w <;> simp only [resumeConnect, Option.some.injEq, reduceCtorEq] at hr <;> subst hr
    · exact Edge.closeReturned.path
    · exact Edge.closeRaised.path
    · exact Edge.closeCancelled.path

end Connect

/-! ## `disconnect()` -/

theorem disconnectFinish_path (c : Conn S) :
    Path cfg isDone t (.disconnectFinish, c)
      ((disconnectFinish c).2.point, (disconnectFinish c).1) := by
  unfold disconnectFinish
  rcases transitionState_cases c .disconnected with ⟨hv, he⟩ | ⟨hv, he⟩ <;> rw [he]
  · exact (Edge.disconnected hv).path
  · exact (Edge.disconnectInvalid hv).path

theorem disconnectLocked_path (c : Conn S) :
    Path cfg isDone t (.disconnectLocked, c)
      ((disconnectLocked c).2.point, (disconnectLocked c).1) := by
  unfold disconnectLocked
  split
  · rename_i hs; exact (Edge.disconnectedAlready hs).path
  · rename_i hs
    rcases cleanup_cases c with ⟨hw, hc⟩ | ⟨w, hw, hc⟩ <;> simp only [hc]
    · exact (Edge.disconnectNone hs hw).then (disconnectFinish_path c)
    · exact (Edge.disconnectClose hs hw).path

/-- The first segment of `disconnect()` is a path. -/
theorem disconnect_path (c : Conn S) :
    Path cfg isDone t (.disconnect, c) ((disconnect c t).2.point, (disconnect c t).1) := by
  unfold disconnect
  split
  · rename_i hs; exact (Edge.disconnectAlready hs).path
  · rename_i hs
    split
    · rename_i l hl; exact (Edge.disconnectAcquire hs hl).then (disconnectLocked_path _)
    · rename_i hl; exact (Edge.disconnectQueue hs hl).path

/-! ## `stream_market_data()` -/

theorem reconnectLoop_path (c : Conn S) :
    Path cfg isDone t (.retry, c) ((reconnectLoop cfg c).2.point, (reconnectLoop cfg c).1) := by
  unfold reconnectLoop
  split
  · rename_i ha; exact (Edge.backoff ha).path
  · rename_i ha
    have ha' : shouldAttemptReconnect cfg c = false := by simpa using ha
    unfold Connector.giveUp
    split
    · rename_i hs
      have hv : c.state.isValidTransition .failed = true := by
        rcases hs with hs | hs | hs <;> rw [hs] <;> rfl
      rw [transitionState_valid hv]
      exact (Edge.giveUpFailed ha' hs).path
    · rename_i hs; exact (Edge.giveUp ha' hs).path

theorem handleCleanup_path (c : Conn S) :
    Path cfg isDone t (.lostCleanup, c)
      ((handleCleanup cfg c).2.point, (handleCleanup cfg c).1) := by
  unfold handleCleanup
  rcases cleanup_cases c with ⟨hw, hc⟩ | ⟨w, hw, hc⟩ <;> simp only [hc]
  · exact (Edge.lostNone hw).then (reconnectLoop_path c)
  · exact (Edge.lostClose hw).path

theorem handleConnectionClosed_path (c : Conn S) :
    Path cfg isDone t (.lost, c)
      ((handleConnectionClosed cfg c).2.point, (handleConnectionClosed cfg c).1) := by
  unfold handleConnectionClosed
  split
  · rename_i hs
    rw [transitionState_valid (by rw [hs]; rfl)]
    exact (Edge.lostConnected hs).then (handleCleanup_path _)
  · rename_i hs
    split
    · rename_i hf
      rw [transitionState_valid (by rw [hf]; rfl)]
      exact (Edge.lostFailed hf).then (handleCleanup_path _)
    · rename_i hf; exact (Edge.lostOther hs hf).then (handleCleanup_path c)

theorem recvMessage_path (c : Conn S) :
    Path cfg isDone t (.receive, c) ((recvMessage cfg c).2.point, (recvMessage cfg c).1) := by
  unfold recvMessage
  split
  · rename_i w hw; exact (Edge.recv hw).path
  · rename_i hw; exact (Edge.recvNone hw).then (handleConnectionClosed_path c)

theorem afterStreamConnect_path : ∀ (r : Conn S × ConnectAct S),
    Path cfg isDone t (r.2.point .stream, r.1)
      ((afterStreamConnect cfg r).2.point, (afterStreamConnect cfg r).1)
  | (_, .suspend _) => .refl
  | (c, .finish .returned) => Edge.endedStreamReturned.then (recvMessage_path c)
  | (c, .finish (.raised _)) => Edge.endedStreamRaised.then (handleConnectionClosed_path c)
  | (_, .finish .cancelled) => Edge.endedStreamCancelled.path

theorem streamLoop_path (c : Conn S) :
    Path cfg isDone t (.loop, c)
      ((streamLoop cfg isDone c t).2.point, (streamLoop cfg isDone c t).1) := by
  unfold streamLoop
  split
  · rename_i hs; exact (Edge.loopConnected hs).then (recvMessage_path c)
  · rename_i hs
    exact (Edge.loopConnect hs).then ((connect_path c).trans (afterStreamConnect_path _))

/-- The generator going on is a path. -/
theorem yieldMessages_path (c : Conn S) : ∀ (ms : List S.Msg),
    Path cfg isDone t (.generator ms, c)
      ((yieldMessages cfg isDone c t ms).2.point, (yieldMessages cfg isDone c t ms).1)
  | _ :: _ => Edge.yields.path
  | [] => Edge.yieldedAll.then (streamLoop_path c)

theorem streamExcept_path {p : Point S} {c₀ c : Conn S} {e : PyExn}
    (hi : e.isParsingError = true → Edge cfg isDone t p c₀ .loop c)
    (hr : e.isParsingError = false → Edge cfg isDone t p c₀ .lost c) :
    Path cfg isDone t (p, c₀)
      ((streamExcept cfg isDone c t e).2.point, (streamExcept cfg isDone c t e).1) := by
  unfold streamExcept
  split
  · rename_i he; exact (hi he).then (streamLoop_path c)
  · rename_i he; exact (hr (by simpa using he)).then (handleConnectionClosed_path c)

theorem streamFrame_path (c : Conn S) (w : Ws) (f : S.Frame) :
    Path cfg isDone t (.resumed (.recv w) (.frame f), c)
      ((streamFrame cfg isDone c t f).2.point, (streamFrame cfg isDone c t f).1) := by
  unfold streamFrame
  split
  · rename_i i e hp
    exact streamExcept_path (fun he => .frameInvalid hp he) (fun he => .frameRaised hp he)
  · rename_i i hp; exact (Edge.frameSkipped hp).then (streamLoop_path _)
  · rename_i i d hp
    split
    · rename_i j e hd
      exact streamExcept_path (fun he => .convertInvalid hp hd he)
        (fun he => .convertRaised hp hd he)
    · rename_i j ms hd; exact (Edge.converted hp hd).then (yieldMessages_path _ ms)

theorem afterReconnect_path : ∀ (r : Conn S × ConnectAct S),
    Path cfg isDone t (r.2.point .reconnect, r.1)
      ((afterReconnect cfg isDone t r).2.point, (afterReconnect cfg isDone t r).1)
  | (_, .suspend _) => .refl
  | (c, .finish .returned) => Edge.endedReconnectReturned.then (streamLoop_path c)
  | (c, .finish (.raised e)) => by
    unfold afterReconnect
    by_cases he : e.isConnectionFailedError = true
    · simp only [he, if_true]
      by_cases hs : c.state = .disconnected
      · have hc : { c with state := .disconnected } = c := by rw [← hs]
        have hv : c.state.isValidTransition .disconnected = true := by rw [hs]; rfl
        have hedge : Edge cfg isDone t (.ended .reconnect (.raised e)) c .retry
            { c with state := .disconnected } := .endedReconnectFailed he hv
        rw [hc] at hedge
        rw [if_pos hs]; exact hedge.then (reconnectLoop_path c)
      · rw [if_neg hs]
        rcases transitionState_cases c .disconnected with ⟨hv, ht⟩ | ⟨hv, ht⟩ <;> rw [ht]
        · exact (Edge.endedReconnectFailed he hv).then (reconnectLoop_path _)
        · exact (Edge.endedReconnectInvalid he hv).path
    · simp only [he, if_false, Bool.false_eq_true]
      exact (Edge.endedReconnectRaised (by simpa using he)).path
  | (_, .finish .cancelled) => Edge.endedReconnectCancelled.path

theorem reconnect_path (c : Conn S) (n : Nat) :
    Path cfg isDone t (.resumed (.backoff n) .done, c)
      ((reconnect cfg isDone c t).2.point, (reconnect cfg isDone c t).1) := by
  unfold Connector.reconnect
  rcases transitionState_cases c .disconnected with ⟨hv, he⟩ | ⟨hv, he⟩ <;> rw [he]
  · exact (Edge.woken hv).then ((connect_path _).trans (afterReconnect_path _))
  · exact (Edge.wokenInvalid hv).path

/-! ## Calls and resumptions -/

theorem ownSending_path (c : Conn S) : ∀ {i : S.Inst} {r : SendStep S.Coro S.Payload},
    Path cfg isDone t (.own r, { c with inst := i })
      ((ownSending c (i, r)).2.point, (ownSending c (i, r)).1)
  | _, .send _ _ _ => Edge.ownSend.path
  | _, .returned => Edge.ownReturned.path
  | _, .raised _ => Edge.ownRaised.path

theorem afterConnect_path (r : Conn S × ConnectAct S) : ∀ (k : Caller),
    Path cfg isDone t (r.2.point k, r.1)
      ((afterConnect cfg isDone t k r).2.point, (afterConnect cfg isDone t k r).1)
  | .task =>
    match r with
    | (_, .suspend _) => .refl
    | (_, .finish _) => Edge.endedTask.path
  | .stream => afterStreamConnect_path r
  | .reconnect => afterReconnect_path r

/-- **The first segment of a call is a path.** -/
theorem enter_path (c : Conn S) : ∀ (op : Op S),
    Path cfg isDone t (.enter op, c) ((enter cfg isDone c t op).2.point, (enter cfg isDone c t op).1)
  | .connect => Edge.enterConnect.then ((connect_path c).trans (afterConnect_path _ .task))
  | .disconnect => Edge.enterDisconnect.then (disconnect_path c)
  | .stream => Edge.enterStream.then (streamLoop_path c)
  | .own _ => (Edge.ownStart rfl).then (ownSending_path c)

/-- **The segment after a suspension point is a path.** -/
theorem advance_path {c : Conn S} {pc : Pc S} {w : Wake S} {r : Conn S × Act S}
    (hr : advance cfg isDone c t pc w = some r) :
    Path cfg isDone t (.resumed pc w, c) (r.2.point, r.1) := by
  cases pc with
  | connect k pc =>
    simp only [advance, Option.map_eq_some_iff] at hr
    obtain ⟨r', hr', rfl⟩ := hr
    exact (resumeConnect_path hr').trans (afterConnect_path r' k)
  | disconnectLock =>
    cases w <;> simp only [advance, Option.some.injEq, reduceCtorEq] at hr
    · split at hr
      · rename_i l hl; cases hr; exact (Edge.disconnectWoken hl).then (disconnectLocked_path _)
      · cases hr
    · subst hr; exact Edge.disconnectLockCancelled.path
  | disconnectClosing w' =>
    cases w <;> simp only [advance, Option.some.injEq, reduceCtorEq] at hr <;> subst hr
    · exact Edge.disconnectClosed.then (disconnectFinish_path _)
    · exact Edge.disconnectCloseRaised.then (disconnectFinish_path _)
    · exact Edge.disconnectCloseCancelled.path
  | recv w' =>
    cases w <;> simp only [advance, Option.some.injEq, reduceCtorEq] at hr <;> subst hr
    · exact streamFrame_path c w' _
    · exact streamExcept_path (fun he => .recvInvalid he) (fun he => .recvRaised he)
    · exact Edge.recvCancelled.path
  | lostClosing w' =>
    cases w <;> simp only [advance, Option.some.injEq, reduceCtorEq] at hr <;> subst hr
    · exact Edge.lostClosed.then (reconnectLoop_path _)
    · exact Edge.lostCloseRaised.then (reconnectLoop_path _)
    · exact Edge.lostCancelled.path
  | backoff n =>
    cases w <;> simp only [advance, Option.some.injEq, reduceCtorEq] at hr <;> subst hr
    · exact reconnect_path c n
    · exact Edge.backoffCancelled.path
  | own w' p q =>
    cases w <;> simp only [advance, Option.some.injEq, reduceCtorEq] at hr <;> subst hr
    · exact (Edge.ownSent rfl).then (ownSending_path { c with sent := c.sent ++ [(w', p)] })
    · exact (Edge.ownSendRaised rfl).then (ownSending_path c)
    · exact Edge.ownCancelled.path

end FlinkPractices.Connector
