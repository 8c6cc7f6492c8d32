import FlinkPractices.Connector.Flow
import FlinkPractices.Service.Ports

/-!
# The websocket connectors as connectors of the service

`BaseWebSocketConnector` with any subclass as an `ExchangeConnector`: `webSocket S cfg message`,
where `message` turns what the subclass yields into the domain's message.

* `Wake.toConnector` — what the scheduler gives to a call of the service, given to the connector
* `firstConnect`, `firstSegment`, `laterConnect`, `laterDisconnect`, `laterStream` — the segments of
  `Connector.Base`, read as those of a port

Its attributes are private (`_config`, `_state`, …): it has none with the name `config`, which the
service reads.

A port's first segment cannot end cancelled, and a call that is no stream yields nothing, while the
type of the connector's segments allows both.  `connect_first`, `disconnect_first` and
`streamLoop_first` say that neither happens, so that nothing is lost where the cases are left out.
-/

set_option autoImplicit false

namespace FlinkPractices.Service

open Lib
open Connector (TaskId Conn Subclass)

variable {U : UpperTable} (S : Subclass) (cfg : ExchangeConfig U) (message : S.Msg → MarketDataMessage)

/-- What the scheduler gives to a call of the connector. -/
def Wake.toConnector {S : Subclass} : Wake S.Frame → Connector.Wake S
  | .done => .done
  | .input f => .frame f
  | .raised e => .raised e
  | .cancelled => .cancelled

/-- A first segment of a call ends; it is not cancelled and yields nothing
(`connect_first`, `disconnect_first`, `streamLoop_first`). -/
def firstConnect : Conn S × Connector.ConnectAct S → Conn S × Start (Connector.ConnectPc S)
  | (c, .suspend pc) => (c, .suspend pc)
  | (c, .finish (.raised e)) => (c, .raised e)
  | (c, .finish _) => (c, .returned)

def firstSegment : Conn S × Connector.Act S → Conn S × Start (Connector.Pc S)
  | (c, .suspend pc) => (c, .suspend pc)
  | (c, .finish (.raised e)) => (c, .raised e)
  | (c, _) => (c, .returned)

def laterConnect : Conn S × Connector.ConnectAct S → Conn S × Next (Connector.ConnectPc S)
  | (c, .suspend pc) => (c, .suspend pc)
  | (c, .finish r) => (c, .finish r)

/-- A later segment of `disconnect()` ends; it yields nothing. -/
def laterDisconnect : Conn S × Connector.Act S → Conn S × Next (Connector.Pc S)
  | (c, .suspend pc) => (c, .suspend pc)
  | (c, .finish r) => (c, .finish r)
  | (c, .yields _ _) => (c, .finish .returned)

def laterStream : Conn S × Connector.Act S → Conn S × StreamNext (Connector.Pc S)
  | (c, .suspend pc) => (c, .suspend pc)
  | (c, .finish r) => (c, .finish r)
  | (c, .yields m rest) => (c, .batch (message m) (rest.map message))

/-- The task that a suspended `connect()` awaits. -/
def connectAwaits {S : Subclass} : Connector.ConnectPc S → Option TaskId
  | .awaitTask o => some o
  | .awaitTaskLocked o => some o
  | _ => none

def streamAwaits {S : Subclass} : Connector.Pc S → Option TaskId
  | .connect _ pc => connectAwaits pc
  | _ => none

/-- `task.done()`. -/
def isDone (outcome : TaskId → Option Outcome) (t : TaskId) : Bool := (outcome t).isSome

/-- `BaseWebSocketConnector`. -/
@[reducible] def webSocket : ConnectorPort U where
  State := Conn S
  ConnectPc := Connector.ConnectPc S
  DisconnectPc := Connector.Pc S
  StreamPc := Connector.Pc S
  Input := S.Frame
  config _ := none
  connect outcome c t := firstConnect S (Connector.connect cfg (isDone outcome) c t)
  resumeConnect outcome c t pc w :=
    (Connector.resumeConnect cfg (isDone outcome) c t pc w.toConnector).map (laterConnect S)
  disconnect c t := firstSegment S (Connector.disconnect c t)
  resumeDisconnect c t pc w :=
    (Connector.advance cfg (fun _ => false) c t pc w.toConnector).map (laterDisconnect S)
  stream outcome c t := firstSegment S (Connector.streamLoop cfg (isDone outcome) c t)
  resumeStream outcome c t pc w :=
    (Connector.advance cfg (isDone outcome) c t pc w.toConnector).map (laterStream S message)
  connectAwaits := connectAwaits
  streamAwaits := streamAwaits

/-! ## The first segments -/

variable {S} (done : TaskId → Bool)

theorem connectFailed_first (c : Conn S) (t : TaskId) :
    (Connector.connectFailed cfg c t).2 ≠ .finish .cancelled := by
  unfold Connector.connectFailed
  split
  · nofun
  · split <;> nofun

theorem connectAttempt_first (c : Conn S) (t : TaskId) :
    (Connector.connectAttempt cfg c t).2 ≠ .finish .cancelled := by
  unfold Connector.connectAttempt
  dsimp only
  split
  · exact connectFailed_first cfg _ t
  · nofun

/-- `connect()` cannot be cancelled before it suspends. -/
theorem connect_first (c : Conn S) (t : TaskId) :
    (Connector.connect cfg done c t).2 ≠ .finish .cancelled := by
  unfold Connector.connect Connector.connectAcquire Connector.connectLocked
  split
  · nofun
  · split
    · nofun
    · split
      · split
        · nofun
        · exact connectAttempt_first cfg _ t
      · nofun

/-- A first segment that neither is cancelled nor yields. -/
def Uncancelled (a : Connector.Act S) : Prop :=
  (∃ pc, a = .suspend pc) ∨ a = .finish .returned ∨ ∃ e, a = .finish (.raised e)

theorem disconnect_first (c : Conn S) (t : TaskId) :
    Uncancelled (Connector.disconnect c t).2 := by
  have hf : ∀ c : Conn S, Uncancelled (Connector.disconnectFinish c).2 := by
    intro c
    unfold Connector.disconnectFinish
    split
    · exact .inr (.inl rfl)
    · exact .inr (.inr ⟨_, rfl⟩)
  unfold Connector.disconnect Connector.disconnectLocked
  split
  · exact .inr (.inl rfl)
  · split
    · split
      · exact .inl ⟨_, rfl⟩
      · exact hf _
    · exact .inl ⟨_, rfl⟩

theorem reconnectLoop_first (c : Conn S) : Uncancelled (Connector.reconnectLoop cfg c).2 := by
  unfold Connector.reconnectLoop Connector.giveUp
  split
  · exact .inl ⟨_, rfl⟩
  · split
    · split <;> exact .inr (.inr ⟨_, rfl⟩)
    · exact .inr (.inr ⟨_, rfl⟩)

theorem handleConnectionClosed_first (c : Conn S) :
    Uncancelled (Connector.handleConnectionClosed cfg c).2 := by
  have hc : ∀ c : Conn S, Uncancelled (Connector.handleCleanup cfg c).2 := by
    intro c
    unfold Connector.handleCleanup
    split
    · exact .inl ⟨_, rfl⟩
    · exact reconnectLoop_first cfg _
  unfold Connector.handleConnectionClosed
  split
  · split
    · exact hc _
    · exact .inr (.inr ⟨_, rfl⟩)
  · split
    · split
      · exact hc _
      · exact .inr (.inr ⟨_, rfl⟩)
    · exact hc _

/-- The generator, asked for its first message, suspends, or it raises. -/
theorem streamLoop_first (c : Conn S) (t : TaskId) :
    Uncancelled (Connector.streamLoop cfg done c t).2 := by
  have hr : ∀ c : Conn S, Uncancelled (Connector.recvMessage cfg c).2 := by
    intro c
    unfold Connector.recvMessage
    split
    · exact .inl ⟨_, rfl⟩
    · exact handleConnectionClosed_first cfg c
  unfold Connector.streamLoop
  split
  · exact hr c
  · have h := connect_first cfg done c t
    rcases hx : Connector.connect cfg done c t with ⟨c', _ | (_ | _ | _)⟩
    · exact .inl ⟨_, rfl⟩
    · exact hr c'
    · exact handleConnectionClosed_first cfg c'
    · rw [hx] at h; exact absurd rfl h

end FlinkPractices.Service
