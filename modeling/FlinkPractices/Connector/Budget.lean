import FlinkPractices.Connector.Attempt
import FlinkPractices.Connector.Sole

/-!
# The reconnect budget

The connector used by a single task, without cancellation, whatever the network answers.  Next to
it runs an observer (`observe`) that notes what it sees of every step: that a stream begins, that
the reconnect loop begins an iteration, that `websockets.connect` is called and how it answers, that
the connector becomes connected, and how a stream ends.

`Sys.WithinBudget` compares `_reconnect_attempts` with these notes: the counter is the number of
iterations since the last success and stays within the limit; every iteration dials exactly once,
when it wakes; a stream ends only by `ConnectionClosedError`, when the limit is used up; and the
failed dials in a row of one stream are at most the limit and one.

## Proof

* `Point.Span` — what a segment has done to the counter and to the dials when it reaches a place
* `Edge.span` — carried over the edges, one lemma for each part of the graph (`Part`)
* `Episode` — what a whole segment may have come to (nothing, a success, a dial, an iteration, an
  end), with the notes it leaves; `episode_of_span` is the only case analysis
* `Point.AfterFailure` — a dial that has failed leads to the next iteration or to the end, without
  an `await` in between, since there is no socket to close
* `Sys.Paced` — the invariant, kept by `step_paced`

Principal result: `withinBudget`, the conjunction of all of this in every run.
-/

set_option autoImplicit false

namespace FlinkPractices.Connector

open Lib Function

variable {U : UpperTable} {S : Subclass} (cfg : ExchangeConfig U)

/-! ## The observer -/

inductive Note where
  /-- `stream_market_data()` is called -/
  | stream
  /-- an iteration of the reconnect loop begins: it sleeps -/
  | iteration
  /-- `websockets.connect` is called, by `connect()` for `k` -/
  | dial (k : Caller)
  /-- it has answered: with a socket or by raising -/
  | answered (k : Caller) (ok : Bool)
  /-- `connect()` has succeeded -/
  | connected
  /-- a stream ends with `r`, and `_reconnect_attempts` is `n` -/
  | ended (r : Outcome) (n : Nat)

/-- What task `t` is doing after a segment of its own. -/
def arrival (k : Task S) : List Note :=
  match k.call with
  | some (.backoff _) => [.iteration]
  | some (.connect j .dialing) => [.dial j]
  | _ => []

/-- What the network has answered to a dial. -/
def answer (k : Task S) : Wake S → List Note
  | .done =>
    match k.call with
    | some (.connect j .dialing) => [.answered j true]
    | _ => []
  | .raised _ =>
    match k.call with
    | some (.connect j .dialing) => [.answered j false]
    | _ => []
  | _ => []

/-- The kind of the operation a step belongs to. -/
def Sys.kindOf (s : Sys S) : Label S → Option Kind
  | .call _ op => some op.kind
  | .next _ => some .stream
  | .resume t _ => (s.tasks t).call.map Pc.kind
  | _ => none

def Label.task : Label S → TaskId
  | .call t _ => t
  | .next t => t
  | .resume t _ => t
  | .cancel t _ => t
  | .exit t _ => t

/-- A stream has ended in the step: it is no longer suspended in a call and has not yielded. -/
def ending (s : Sys S) (l : Label S) (s' : Sys S) : List Note :=
  if s.kindOf l = some .stream ∧ (s'.tasks l.task).call.isNone ∧
      s'.yielded.length = s.yielded.length then
    match (s'.tasks l.task).last with
    | some r => [.ended r s'.conn.reconnectAttempts]
    | none => []
  else []

/-- The notes of a step, newest first. -/
def notes (s : Sys S) (l : Label S) (s' : Sys S) : List Note :=
  ending s l s' ++
  (if s.conn.state ≠ .connected ∧ s'.conn.state = .connected then [.connected] else []) ++
  match l with
  | .call t .stream => arrival (s'.tasks t) ++ [.stream]
  | .call t _ => arrival (s'.tasks t)
  | .next t => arrival (s'.tasks t)
  | .resume t w => arrival (s'.tasks t) ++ answer (s.tasks t) w
  | _ => []

/-- The system under observation. -/
def observe (x : Sys S × List Note) (l : Label S) : Option (Sys S × List Note) :=
  (step cfg x.1 l).map fun s' => (s', notes x.1 l s' ++ x.2)

/-! ## What the notes say -/

/-- Iterations begun since the last successful connection, or construction. -/
def iterationsSince : List Note → Nat
  | [] => 0
  | .connected :: _ => 0
  | .iteration :: ns => iterationsSince ns + 1
  | _ :: ns => iterationsSince ns

/-- The last dials of the current stream that have failed, one after the other. -/
def failuresInRow : List Note → Nat
  | [] => 0
  | .stream :: _ => 0
  | .ended _ _ :: _ => 0
  | .answered .task _ :: ns => failuresInRow ns
  | .answered _ true :: _ => 0
  | .answered _ false :: ns => failuresInRow ns + 1
  | _ :: ns => failuresInRow ns

/-- Iterations and dials of the reconnect loop take turns; `asleep` is an iteration that has not
dialed yet. -/
inductive TakeTurns : Bool → List Note → Prop
  | nil : TakeTurns false []
  | iteration {ns} : TakeTurns false ns → TakeTurns true (.iteration :: ns)
  | dial {ns} : TakeTurns true ns → TakeTurns false (.dial .reconnect :: ns)
  | stream {b ns} : TakeTurns b ns → TakeTurns b (.stream :: ns)
  | other {k ns} : k ≠ .reconnect → TakeTurns false ns → TakeTurns false (.dial k :: ns)
  | answered {b k ok ns} : TakeTurns b ns → TakeTurns b (.answered k ok :: ns)
  | connected {b ns} : TakeTurns b ns → TakeTurns b (.connected :: ns)
  | ended {b r n ns} : TakeTurns b ns → TakeTurns b (.ended r n :: ns)

def Note.isDial : Note → Bool
  | .dial _ => true
  | _ => false

/-- Task `t` sleeps in the reconnect loop. -/
def Sys.Asleep (s : Sys S) (t : TaskId) : Prop := ∃ n, (s.tasks t).call = some (.backoff n)

/-- What the budget allows, with `m = max_reconnect_attempts`. -/
structure Sys.WithinBudget (t : TaskId) (x : Sys S × List Note) : Prop where
  attempts : x.1.conn.reconnectAttempts = iterationsSince x.2
  bounded : cfg.maxReconnectAttempts ≠ 0 → x.1.conn.reconnectAttempts ≤ cfg.maxReconnectAttempts
  dials : x.1.conn.dials = x.2.countP Note.isDial
  /-- every iteration dials exactly once, when it wakes, and nothing else of the loop dials -/
  oneDial : (x.1.Asleep t ∧ TakeTurns true x.2) ∨ (¬x.1.Asleep t ∧ TakeTurns false x.2)
  ended : ∀ r n, .ended r n ∈ x.2 → (∃ message, r = .raised (.connectionClosedError message)) ∧
    n = cfg.maxReconnectAttempts ∧ 0 < cfg.maxReconnectAttempts
  failures : cfg.maxReconnectAttempts ≠ 0 → ∀ ns, ns <:+ x.2 →
    failuresInRow ns ≤ cfg.maxReconnectAttempts + 1

variable {cfg}

/-! ## What a segment does to the counter -/

/-- The counter and the dials as they were; nothing has connected. -/
structure Same (c₀ c : Conn S) : Prop where
  attempts : c.reconnectAttempts = c₀.reconnectAttempts
  dials : c.dials = c₀.dials
  connected : c.state = .connected → c₀.state = .connected

/-- The attempt has just succeeded. -/
structure Fresh (c₀ c : Conn S) : Prop where
  before : c₀.state ≠ .connected
  state : c.state = .connected
  attempts : c.reconnectAttempts = 0
  dials : c.dials = c₀.dials
  websocket : c.websocket ≠ none

/-- What a segment that began on `c₀` has done when it reaches a place; `wakes`: it may dial in the
reconnect loop. -/
def Point.Span (cfg : ExchangeConfig U) (κ : Kind) (wakes : Bool) (c₀ : Conn S) :
    Point S → Conn S → Prop
  | .suspended (.backoff _), c => c.reconnectAttempts = c₀.reconnectAttempts + 1 ∧
      c.dials = c₀.dials ∧ (c.state = .connected → c₀.state = .connected) ∧
      shouldAttemptReconnect cfg c₀ = true
  | .suspended (.connect k .dialing), c => c.reconnectAttempts = c₀.reconnectAttempts ∧
      c.dials = c₀.dials + 1 ∧ c.state ≠ .connected ∧ (k = .reconnect → wakes = true)
  | .suspended (.recv _), c => Same c₀ c ∨ Fresh c₀ c
  | .resumed pc _, c => c = c₀ ∧ ∀ n, pc = .backoff n → wakes = true
  | .sent _ _, c => Same c₀ c ∧ c₀.state ≠ .connected
  | .connect k, c => Same c₀ c ∧ (k = .reconnect → wakes = true)
  | .acquire k, c => Same c₀ c ∧ (k = .reconnect → wakes = true)
  | .locked k, c => Same c₀ c ∧ (k = .reconnect → wakes = true)
  | .attempt k, c => Same c₀ c ∧ (k = .reconnect → wakes = true)
  | .ended _ .returned, c => Same c₀ c ∨ Fresh c₀ c
  | .loop, c => Same c₀ c ∨ Fresh c₀ c
  | .receive, c => Same c₀ c ∨ Fresh c₀ c
  | .finished _, c => (Same c₀ c ∧ (κ = .stream → shouldAttemptReconnect cfg c₀ = false)) ∨
      (κ ≠ .stream ∧ Fresh c₀ c)
  | _, c => Same c₀ c

theorem Same.congr {c₀ c c' : Conn S} (h : Same c₀ c) (ha : c'.reconnectAttempts = c.reconnectAttempts)
    (hd : c'.dials = c.dials) (hs : c'.state = .connected → c.state = .connected) : Same c₀ c' :=
  ⟨ha.trans h.attempts, hd.trans h.dials, fun h' => h.connected (hs h')⟩

theorem shouldAttemptReconnect_congr {c c' : Conn S}
    (h : c'.reconnectAttempts = c.reconnectAttempts) :
    shouldAttemptReconnect cfg c' = shouldAttemptReconnect cfg c := by
  unfold shouldAttemptReconnect
  rw [h]

section

variable {κ : Kind} {wakes : Bool} {c₀ : Conn S} {isDone : TaskId → Bool} {t : TaskId}
variable {P P' : Point S} {c c' : Conn S}

/-- Inside `connect()`. -/
theorem Edge.span_connect (h : Edge cfg isDone t P c P' c') (hb : P.part = .connect)
    (hp : Place cfg κ t P c) (hP : P.Span cfg κ wakes c₀ c) : P'.Span cfg κ wakes c₀ c' := by
  have hT := hp.tidy
  cases h <;> cases hb
  case connectAlready => exact .inl hP.1
  case connectAwait ho | lockedAwait ho =>
    rw [hp.inFlight rfl] at ho
    cases ho
  case connectAcquire => exact hP
  case taskReturned | taskRaised | lockedReturned | lockedRaised => exact hT.1.elim
  case taskCancelled | lockCancelled | lockedCancelled | dialCancelled | sendCancelled |
      closeCancelled => exact absurd rfl hp.calm
  case acquire | lockedAttempt => exact ⟨hP.1.congr rfl rfl id, hP.2⟩
  case queue hl =>
    rw [hp.free.lock rfl, AsyncLock.tryAcquire_free] at hl
    cases hl
  case lockWoken => exact absurd rfl hp.free.notWaiting
  case lockedAlready => exact .inl (hP.1.congr rfl rfl id)
  case dial => exact ⟨hP.1.attempts, congrArg (· + 1) hP.1.dials, nofun, hP.2⟩
  case dialReturned =>
    obtain ⟨rfl, -⟩ := hP
    exact ⟨⟨rfl, rfl, id⟩, by rw [show c.state = .connecting from hT.1.1]; decide⟩
  case sendReturned | sendRaised =>
    obtain ⟨rfl, -⟩ := hP
    exact ⟨⟨rfl, rfl, id⟩, by rw [show c.state = .connecting from hT.1]; decide⟩
  case connected => exact .inr ⟨hP.2, rfl, rfl, hP.1.dials, hp.free.socket rfl⟩
  case dialInvalid | send | connectedInvalid | subscribeRaised => exact hP.1
  case failClose | failNone => exact Same.congr (c := c) hP rfl rfl nofun
  case failInvalid => exact Same.congr (c := c) hP rfl rfl id
  case dialRaised | closeReturned | closeRaised =>
    obtain ⟨rfl, -⟩ := hP
    exact ⟨rfl, rfl, id⟩

/-- From a call into its coroutine, and from the end of `connect()` to what its caller does. -/
theorem Edge.span_caller (h : Edge cfg isDone t P c P' c') (hb : P.part = .caller)
    (hp : Place cfg κ t P c) (hP : P.Span cfg κ wakes c₀ c) : P'.Span cfg κ wakes c₀ c' := by
  have hpr := hp.proper
  cases h <;> cases hb
  case enterConnect => exact ⟨hP, nofun⟩
  case enterDisconnect => exact hP
  case enterStream => exact .inl hP
  case ownStart => exact Same.congr (c := c) hP rfl rfl id
  case endedTask r =>
    have hκ : κ = .connect := hpr.1.symm
    have hne : κ ≠ .stream := by
      rw [hκ]
      decide
    cases r with
    | returned =>
      rcases hP with hP | hP
      · exact .inl ⟨hP, fun hs => absurd hs hne⟩
      · exact .inr ⟨hne, hP⟩
    | raised e => exact .inl ⟨hP, fun hs => absurd hs hne⟩
    | cancelled => exact absurd rfl hp.calm
  case endedStreamReturned | endedStreamRaised | endedReconnectReturned => exact hP
  case endedStreamCancelled | endedReconnectCancelled => exact absurd rfl hp.calm
  case endedReconnectFailed => exact Same.congr (c := c) hP rfl rfl nofun
  case endedReconnectInvalid hv =>
    obtain ⟨-, hr | ⟨_, hr, he⟩⟩ := hpr
    · cases hr
    · exact absurd ((ConnectionState.isValidTransition_disconnected _).2 (he nofun).2)
        (by rw [hv]; decide)
  case endedReconnectRaised he =>
    obtain ⟨-, hr | ⟨_, hr, hf⟩⟩ := hpr
    · cases hr
    · cases hr
      rw [(hf nofun).1] at he
      cases he

/-- Inside `disconnect()`. -/
theorem Edge.span_disconnect (h : Edge cfg isDone t P c P' c') (hb : P.part = .disconnect)
    (hp : Place cfg κ t P c) (hP : P.Span cfg κ wakes c₀ c) : P'.Span cfg κ wakes c₀ c' := by
  have hpr := hp.proper
  cases h <;> cases hb
  case disconnectAlready | disconnectedAlready =>
    have hκ : κ = .disconnect := hpr
    exact .inl ⟨Same.congr (c := c) hP rfl rfl id, fun hs => by rw [hκ] at hs; cases hs⟩
  case disconnectAcquire | disconnectQueue | disconnectClose | disconnectNone =>
    exact Same.congr (c := c) hP rfl rfl id
  case disconnectWoken => exact absurd rfl hp.free.notWaiting
  case disconnectClosed | disconnectCloseRaised =>
    obtain ⟨rfl, -⟩ := hP
    exact ⟨rfl, rfl, id⟩
  case disconnectLockCancelled | disconnectCloseCancelled => exact absurd rfl hp.calm
  case disconnected =>
    have hκ : κ = .disconnect := hpr.1
    exact .inl ⟨Same.congr (c := c) hP rfl rfl nofun, fun hs => by rw [hκ] at hs; cases hs⟩
  case disconnectInvalid hv =>
    exact absurd ((ConnectionState.isValidTransition_disconnected _).2 hpr.2) (by rw [hv]; decide)

/-- Inside `stream_market_data()`. -/
theorem Edge.span_stream (h : Edge cfg isDone t P c P' c') (hb : P.part = .stream)
    (hp : Place cfg κ t P c) (hP : P.Span cfg κ wakes c₀ c) : P'.Span cfg κ wakes c₀ c' := by
  cases h <;> cases hb
  case loopConnected | recv | yields => exact hP
  case loopConnect hs =>
    rcases hP with hP | hP
    · exact ⟨hP, nofun⟩
    · exact absurd hP.state hs
  case recvNone hw =>
    rcases hP with hP | hP
    · exact hP
    · exact absurd hw hP.websocket
  case frameSkipped | frameInvalid | convertInvalid | recvInvalid =>
    obtain ⟨rfl, -⟩ := hP
    exact .inl ⟨rfl, rfl, id⟩
  case frameRaised | convertRaised | converted | recvRaised =>
    obtain ⟨rfl, -⟩ := hP
    exact ⟨rfl, rfl, id⟩
  case yieldedAll => exact .inl hP
  case recvCancelled => exact absurd rfl hp.calm

/-- Inside `_handle_connection_closed()`. -/
theorem Edge.span_lost (h : Edge cfg isDone t P c P' c') (hb : P.part = .lost)
    (hp : Place cfg κ t P c) (hP : P.Span cfg κ wakes c₀ c) : P'.Span cfg κ wakes c₀ c' := by
  have hT := hp.tidy
  cases h <;> cases hb
  case lostConnected | lostFailed => exact Same.congr (c := c) hP rfl rfl nofun
  case lostOther | lostNone => exact hP
  case lostClose => exact Same.congr (c := c) hP rfl rfl id
  case lostClosed | lostCloseRaised =>
    obtain ⟨rfl, -⟩ := hP
    exact ⟨rfl, rfl, id⟩
  case lostCancelled | backoffCancelled => exact absurd rfl hp.calm
  case backoff hsh =>
    refine ⟨congrArg (· + 1) (Same.attempts hP), Same.dials (c := c) hP,
      Same.connected (c := c) hP, ?_⟩
    exact (shouldAttemptReconnect_congr (Same.attempts hP)).symm.trans hsh
  case giveUpFailed hsh _ =>
    exact .inl ⟨Same.congr (c := c) hP rfl rfl nofun, fun _ =>
      (shouldAttemptReconnect_congr (Same.attempts hP)).symm.trans hsh⟩
  case giveUp hsh _ =>
    exact .inl ⟨hP, fun _ => (shouldAttemptReconnect_congr (Same.attempts hP)).symm.trans hsh⟩
  case woken =>
    obtain ⟨rfl, hw⟩ := hP
    exact ⟨⟨rfl, rfl, nofun⟩, fun _ => hw _ rfl⟩
  case wokenInvalid hv =>
    exact absurd ((ConnectionState.isValidTransition_disconnected _).2 hT.1.1) (by rw [hv]; decide)

/-- Inside the subclass's own coroutines. -/
theorem Edge.span_own (h : Edge cfg isDone t P c P' c') (hb : P.part = .own)
    (hp : Place cfg κ t P c) (hP : P.Span cfg κ wakes c₀ c) : P'.Span cfg κ wakes c₀ c' := by
  cases h <;> cases hb
  case ownSend => exact hP
  case ownReturned | ownRaised =>
    have hκ : κ = .own := hp.proper
    exact .inl ⟨hP, fun hs => by rw [hκ] at hs; cases hs⟩
  case ownSent | ownSendRaised =>
    obtain ⟨rfl, -⟩ := hP
    exact ⟨rfl, rfl, id⟩
  case ownCancelled => exact absurd rfl hp.calm

/-- **An edge carries what the segment has done so far to the next place.** -/
theorem Edge.span (h : Edge cfg isDone t P c P' c') (hp : Place cfg κ t P c)
    (hP : P.Span cfg κ wakes c₀ c) : P'.Span cfg κ wakes c₀ c' := by
  cases hb : P.part with
  | connect => exact h.span_connect hb hp hP
  | caller => exact h.span_caller hb hp hP
  | disconnect => exact h.span_disconnect hb hp hP
  | stream => exact h.span_stream hb hp hP
  | lost => exact h.span_lost hb hp hP
  | own => exact h.span_own hb hp hP

end

/-- What a segment of the only task has done when it ends. -/
theorem Path.span {κ : Kind} {wakes : Bool} {isDone : TaskId → Bool} {t : TaskId}
    {c₀ : Conn S} {x y : Point S × Conn S} (h : Path cfg isDone t x y) (hx : Place cfg κ t x.1 x.2)
    (hs : x.1.Span cfg κ wakes c₀ x.2) :
    Place cfg κ t y.1 y.2 ∧ y.1.Span cfg κ wakes c₀ y.2 :=
  h.sole (B := fun P c => P.Span cfg κ wakes c₀ c) (fun he hp hb => he.span hp hb) hx hs

/-! ## A dial that fails, and a loop that wakes -/

/-- The places behind a dial that has failed: there is no socket to close. -/
def Point.AfterFailure : Point S → Conn S → Prop
  | .resumed (.connect _ .dialing) (.raised _), _ => True
  | .failed _, c => c.websocket = none
  | .ended _ (.raised _), _ => True
  | .lost, c => c.websocket = none
  | .lostCleanup, c => c.websocket = none
  | .retry, _ => True
  | .finished _, _ => True
  | .suspended (.backoff _), _ => True
  | _, _ => False

theorem Edge.afterFailure {κ : Kind} {isDone : TaskId → Bool} {t : TaskId} {P P' : Point S}
    {c c' : Conn S} (h : Edge cfg isDone t P c P' c') (hp : Place cfg κ t P c)
    (hP : P.AfterFailure c) : P'.AfterFailure c' := by
  have hT := hp.tidy
  cases h
  case dialRaised => exact hT.1.2
  case failClose hw => rw [show _ = _ from hP] at hw; cases hw
  case endedStreamRaised => exact hT.2
  case lostClose hw => rw [show _ = _ from hP] at hw; cases hw
  case lostConnected | lostFailed | lostOther => exact hP
  case endedTask | failNone | failInvalid | endedReconnectFailed | endedReconnectInvalid |
      endedReconnectRaised | lostNone | backoff | giveUpFailed | giveUp => trivial
  all_goals exact hP.elim

/-- The only task finds no attempt of its own in progress either, outside the `try`. -/
theorem Place.connectingTask {κ : Kind} {t : TaskId} {P : Point S} {c : Conn S}
    (h : Place cfg κ t P c) (hP : P.attempting = false) : c.connectingTask = none := by
  have hin := h.inFlight hP fun _ => false
  unfold Connector.inFlight at hin
  split at hin
  · cases hin
  · assumption

/-- **Every iteration dials when it wakes.** -/
theorem Place.advance_woken {κ : Kind} {t : TaskId} {n : Nat} {c : Conn S}
    (h : Place cfg κ t (.resumed (.backoff n) .done) c) (isDone : TaskId → Bool) :
    advance cfg isDone c t (.backoff n) .done =
      some (dialing { c with state := .disconnected } t, .suspend (.connect .reconnect .dialing)) := by
  have hs : c.state ≠ .connecting := h.tidy.1.1
  have hd : connect cfg isDone { c with state := .disconnected } t = _ :=
    connect_dials isDone t (h.free.lock rfl) (h.connectingTask rfl) (.inl rfl)
  simp only [advance, reconnect, transitionState_valid (s := .disconnected)
    ((ConnectionState.isValidTransition_disconnected _).2 hs), hd]
  rfl

/-! ## The notes of a segment -/

def Act.arrival : Act S → List Note
  | .suspend (.backoff _) => [.iteration]
  | .suspend (.connect j .dialing) => [.dial j]
  | _ => []

def Act.ending (κ : Kind) (c : Conn S) : Act S → List Note
  | .finish r => if κ = .stream then [.ended r c.reconnectAttempts] else []
  | _ => []

/-- What is noted when a segment has led from `c₀` to `r`. -/
def segmentNotes (κ : Kind) (c₀ : Conn S) (r : Conn S × Act S) : List Note :=
  r.2.ending κ r.1 ++ (if c₀.state ≠ .connected ∧ r.1.state = .connected then [.connected] else []) ++
    r.2.arrival

theorem arrival_settle (s : Sys S) (t : TaskId) (k : Task S) (r : Conn S × Act S) :
    arrival ((s.settle t k r).tasks t) = r.2.arrival := by
  obtain ⟨c, a⟩ := r
  cases a with
  | suspend pc =>
    simp only [arrival, Sys.settle, Sys.setTask, update_self, Act.arrival]
    cases pc with
    | connect k pc => cases pc <;> rfl
    | _ => rfl
  | _ => simp [arrival, Sys.settle, Sys.setTask, Act.arrival]

theorem ending_settle {s : Sys S} {l : Label S} {κ : Kind} (hκ : s.kindOf l = some κ) (k : Task S)
    (r : Conn S × Act S) : ending s l (s.settle l.task k r) = r.2.ending κ r.1 := by
  obtain ⟨c, a⟩ := r
  unfold ending
  rw [hκ]
  cases a with
  | suspend pc => simp [Sys.settle, Sys.setTask, Act.ending]
  | finish o => simp [Sys.settle, Sys.setTask, Act.ending]
  | yields m rest => simp [Sys.settle, Sys.setTask, Act.ending]

/-- The five things a segment may come to, with what is noted. -/
inductive Episode (cfg : ExchangeConfig U) (κ : Kind) (wakes : Bool) (c₀ : Conn S) :
    Conn S × Act S → List Note → Prop
  | sleeps {c n} : c.reconnectAttempts = c₀.reconnectAttempts + 1 →
      shouldAttemptReconnect cfg c₀ = true → c.dials = c₀.dials →
      Episode cfg κ wakes c₀ (c, .suspend (.backoff n)) [.iteration]
  | dials {c j} : c.reconnectAttempts = c₀.reconnectAttempts → (j = .reconnect → wakes = true) →
      c.dials = c₀.dials + 1 → Episode cfg κ wakes c₀ (c, .suspend (.connect j .dialing)) [.dial j]
  | connects {c a} : c.reconnectAttempts = 0 → a.arrival = [] →
      (∀ e, a = .finish e → κ ≠ .stream) → c.dials = c₀.dials →
      Episode cfg κ wakes c₀ (c, a) [.connected]
  | ends {c e} : c.reconnectAttempts = c₀.reconnectAttempts →
      shouldAttemptReconnect cfg c₀ = false → κ.MayEnd e → κ = .stream → c.dials = c₀.dials →
      Episode cfg κ wakes c₀ (c, .finish e) [.ended e c.reconnectAttempts]
  | other {c a} : c.reconnectAttempts = c₀.reconnectAttempts → a.arrival = [] →
      (∀ e, a = .finish e → κ ≠ .stream) → c.dials = c₀.dials →
      Episode cfg κ wakes c₀ (c, a) []

theorem episode_of_span {κ : Kind} {wakes : Bool} {c₀ : Conn S} {r : Conn S × Act S}
    (h : r.2.point.Span cfg κ wakes c₀ r.1) (hp : r.2.point.Proper cfg κ r.1) :
    Episode cfg κ wakes c₀ r (segmentNotes κ c₀ r) := by
  obtain ⟨c, a⟩ := r
  have same : Same c₀ c → ¬(c₀.state ≠ .connected ∧ c.state = .connected) :=
    fun h hc => hc.1 (h.connected hc.2)
  have goesOn : ∀ {a : Act S}, a.ending κ c = [] → ∀ e, a = .finish e → κ ≠ .stream := by
    rintro a ha e rfl hκ
    rw [Act.ending, if_pos hκ] at ha
    cases ha
  have nothing : ∀ {a : Act S}, a.arrival = [] → a.ending κ c = [] → Same c₀ c →
      Episode cfg κ wakes c₀ (c, a) (segmentNotes κ c₀ (c, a)) := by
    intro a ha he hs
    simp only [segmentNotes, ha, he, if_neg (same hs), List.append_nil]
    exact .other hs.attempts ha (goesOn he) hs.dials
  have success : ∀ {a : Act S}, a.arrival = [] → a.ending κ c = [] → Fresh c₀ c →
      Episode cfg κ wakes c₀ (c, a) (segmentNotes κ c₀ (c, a)) := by
    intro a ha he hs
    simp only [segmentNotes, ha, he, if_pos (And.intro hs.before hs.state), List.append_nil,
      List.nil_append]
    exact .connects hs.attempts ha (goesOn he) hs.dials
  cases a with
  | suspend pc =>
    cases pc with
    | connect j pc =>
      cases pc with
      | dialing =>
        obtain ⟨ha, hd, hs, hwk⟩ := h
        have hc : ¬(c₀.state ≠ .connected ∧ c.state = .connected) := fun hc => hs hc.2
        simp only [segmentNotes, Act.ending, Act.arrival, if_neg hc, List.nil_append]
        exact .dials ha hwk hd
      | _ => exact nothing rfl rfl h
    | backoff n =>
      obtain ⟨ha, hd, hs, hsh⟩ := h
      have hc : ¬(c₀.state ≠ .connected ∧ c.state = .connected) := fun hc => hc.1 (hs hc.2)
      simp only [segmentNotes, Act.ending, Act.arrival, if_neg hc, List.nil_append]
      exact .sleeps ha hsh hd
    | recv w =>
      rcases h with h | h
      · exact nothing rfl rfl h
      · exact success rfl rfl h
    | _ => exact nothing rfl rfl h
  | finish e =>
    by_cases hκ : κ = .stream
    · rcases h with ⟨h, hsh⟩ | ⟨hne, -⟩
      · simp only [segmentNotes, Act.ending, Act.arrival, if_neg (same h), if_pos hκ,
          List.append_nil]
        exact .ends h.attempts (hsh hκ) hp hκ h.dials
      · exact absurd hκ hne
    · have he : (Act.finish e : Act S).ending κ c = [] := if_neg hκ
      rcases h with ⟨h, -⟩ | ⟨-, h⟩
      · exact nothing rfl he h
      · exact success rfl he h
  | yields m rest => exact nothing rfl rfl h

/-! ## What the notes say of an episode -/

/-- The counter is the number of iterations since the last success. -/
theorem Episode.iterationsSince {κ : Kind} {wakes : Bool} {c₀ : Conn S} {r : Conn S × Act S}
    {es ns : List Note} (h : Episode cfg κ wakes c₀ r es)
    (hn : iterationsSince ns = c₀.reconnectAttempts) :
    iterationsSince (es ++ ns) = r.1.reconnectAttempts := by
  cases h with
  | sleeps ha => exact (congrArg (· + 1) hn).trans ha.symm
  | dials ha => exact hn.trans ha.symm
  | connects ha => exact ha.symm
  | ends ha => exact hn.trans ha.symm
  | other ha => exact hn.trans ha.symm

/-- Every dial is noted. -/
theorem Episode.dialed {κ : Kind} {wakes : Bool} {c₀ : Conn S} {r : Conn S × Act S}
    {es ns : List Note} (h : Episode cfg κ wakes c₀ r es)
    (hn : ns.countP Note.isDial = c₀.dials) : (es ++ ns).countP Note.isDial = r.1.dials := by
  cases h with
  | sleeps _ _ hd => exact hn.trans hd.symm
  | dials _ _ hd =>
    exact (List.countP_cons_of_pos rfl).trans ((congrArg (· + 1) hn).trans hd.symm)
  | connects _ _ _ hd => exact hn.trans hd.symm
  | ends _ _ _ _ hd => exact hn.trans hd.symm
  | other _ _ _ hd => exact hn.trans hd.symm

theorem Episode.bounded {κ : Kind} {wakes : Bool} {c₀ : Conn S} {r : Conn S × Act S}
    {es : List Note} (h : Episode cfg κ wakes c₀ r es) (hm : cfg.maxReconnectAttempts ≠ 0)
    (hb : c₀.reconnectAttempts ≤ cfg.maxReconnectAttempts) :
    r.1.reconnectAttempts ≤ cfg.maxReconnectAttempts := by
  cases h with
  | sleeps ha hsh =>
    unfold shouldAttemptReconnect at hsh
    rw [if_neg hm, decide_eq_true_eq] at hsh
    rw [ha]
    exact hsh
  | dials ha => rwa [ha]
  | connects ha =>
    rw [ha]
    omega
  | ends ha => rwa [ha]
  | other ha => rwa [ha]

/-- A stream ends only when the budget is used up. -/
theorem Episode.ended {κ : Kind} {wakes : Bool} {c₀ : Conn S} {r : Conn S × Act S}
    {es : List Note} (h : Episode cfg κ wakes c₀ r es)
    (hb : cfg.maxReconnectAttempts ≠ 0 → c₀.reconnectAttempts ≤ cfg.maxReconnectAttempts)
    {o : Outcome} {n : Nat} (he : .ended o n ∈ es) :
    (∃ message, o = .raised (.connectionClosedError message)) ∧ n = cfg.maxReconnectAttempts ∧
      0 < cfg.maxReconnectAttempts := by
  cases h with
  | ends ha hsh hend hκ =>
    rcases List.mem_singleton.1 he with he
    cases he
    subst hκ
    unfold shouldAttemptReconnect at hsh
    split at hsh
    · cases hsh
    · rename_i hm
      rw [decide_eq_false_iff_not] at hsh
      have hle := hb hm
      refine ⟨hend, ?_, Nat.pos_of_ne_zero hm⟩
      omega
  | _ => simp at he

/-- The loop takes turns: it dials in the step that wakes it, and only there. -/
theorem Episode.takeTurns {κ : Kind} {c₀ : Conn S} {r : Conn S × Act S}
    {es ns : List Note} (h : Episode cfg κ false c₀ r es) (hn : TakeTurns false ns) :
    ((∃ n, r.2 = .suspend (.backoff n)) ∧ TakeTurns true (es ++ ns)) ∨
      ((∀ n, r.2 ≠ .suspend (.backoff n)) ∧ TakeTurns false (es ++ ns)) := by
  cases h with
  | sleeps => exact .inl ⟨⟨_, rfl⟩, .iteration hn⟩
  | dials _ hj => exact .inr ⟨nofun, .other (fun h => Bool.noConfusion (hj h)) hn⟩
  | connects _ ha =>
    refine .inr ⟨?_, .connected hn⟩
    rintro n rfl
    cases ha
  | ends => exact .inr ⟨nofun, .ended hn⟩
  | other _ ha =>
    refine .inr ⟨?_, hn⟩
    rintro n rfl
    cases ha

/-- Nothing of an episode is a failed dial. -/
theorem Episode.failuresInRow {κ : Kind} {wakes : Bool} {c₀ : Conn S} {r : Conn S × Act S}
    {es : List Note} (h : Episode cfg κ wakes c₀ r es) (ns : List Note) :
    failuresInRow (es ++ ns) ≤ failuresInRow ns ∧
      ∀ ms, ms <:+ es ++ ns → ms = es ++ ns ∨ ms <:+ ns := by
  have one : ∀ n : Note, ∀ ms, ms <:+ [n] ++ ns → ms = [n] ++ ns ∨ ms <:+ ns :=
    fun _ _ hm => List.suffix_cons_iff.1 hm
  cases h with
  | sleeps => exact ⟨Nat.le_refl _, one _⟩
  | dials => exact ⟨Nat.le_refl _, one _⟩
  | connects => exact ⟨Nat.le_refl _, one _⟩
  | ends => exact ⟨Nat.zero_le _, one _⟩
  | other => exact ⟨Nat.le_refl _, fun _ hm => .inr hm⟩

/-! ## One step -/

/-- How many dials in a row may have failed: in the reconnect loop as many as it has begun
iterations, and elsewhere none. -/
def Act.allowance (c : Conn S) : Act S → Nat
  | .suspend (.backoff _) => c.reconnectAttempts
  | .suspend (.connect .reconnect .dialing) => c.reconnectAttempts
  | _ => 0

def allowance (k : Task S) (c : Conn S) : Nat :=
  match k.call with
  | some (.backoff _) => c.reconnectAttempts
  | some (.connect .reconnect .dialing) => c.reconnectAttempts
  | _ => 0

theorem allowance_settle (s : Sys S) (t : TaskId) (k : Task S) (r : Conn S × Act S) :
    allowance ((s.settle t k r).tasks t) (s.settle t k r).conn = r.2.allowance r.1 := by
  rw [Sys.settle_conn]
  obtain ⟨c, a⟩ := r
  cases a with
  | suspend pc =>
    simp only [allowance, Sys.settle, Sys.setTask, update_self, Act.allowance]
    cases pc with
    | connect k pc => cases pc <;> cases k <;> rfl
    | _ => rfl
  | _ => simp [allowance, Sys.settle, Sys.setTask, Act.allowance]

/-- The invariant of the system under observation. -/
structure Sys.Paced (cfg : ExchangeConfig U) (t : TaskId) (x : Sys S × List Note) : Prop where
  within : Sys.WithinBudget cfg t x
  pace : failuresInRow x.2 ≤ allowance (x.1.tasks t) x.1.conn

/-- The beginning of a stream and the answer to a dial, noted before the rest of the step. -/
theorem Sys.WithinBudget.note {t : TaskId} {s : Sys S} {ns : List Note} {n : Note}
    (h : Sys.WithinBudget cfg t (s, ns)) (hn : n = .stream ∨ ∃ k ok, n = .answered k ok)
    (hf : cfg.maxReconnectAttempts ≠ 0 → failuresInRow (n :: ns) ≤ cfg.maxReconnectAttempts + 1) :
    Sys.WithinBudget cfg t (s, n :: ns) := by
  have turns : ∀ {b}, TakeTurns b ns → TakeTurns b (n :: ns) := by
    intro b hb
    rcases hn with rfl | ⟨k, ok, rfl⟩
    · exact .stream hb
    · exact .answered hb
  refine ⟨h.attempts.trans ?_, h.bounded, h.dials.trans ?_, ?_, fun r m hr => ?_,
    fun hm ms hms => ?_⟩
  · rcases hn with rfl | ⟨k, ok, rfl⟩ <;> rfl
  · rcases hn with rfl | ⟨k, ok, rfl⟩ <;> rfl
  · exact h.oneDial.imp (And.imp_right turns) (And.imp_right turns)
  · rcases List.mem_cons.1 hr with rfl | hr
    · rcases hn with hn | ⟨k, ok, hn⟩ <;> cases hn
    · exact h.ended r m hr
  · rcases List.suffix_cons_iff.1 hms with rfl | hms
    · exact hf hm
    · exact h.failures hm ms hms

/-- A segment that does not begin in the sleep of the loop. -/
theorem Sys.WithinBudget.episode {κ : Kind} {t : TaskId} {s : Sys S} {k : Task S}
    {r : Conn S × Act S} {es ns : List Note} (h : Sys.WithinBudget cfg t (s, ns))
    (he : Episode cfg κ false s.conn r es) (ha : ¬s.Asleep t) :
    Sys.WithinBudget cfg t (s.settle t k r, es ++ ns) := by
  have hconn : (s.settle t k r).conn = r.1 := Sys.settle_conn s t k r
  have hasleep : (s.settle t k r).Asleep t ↔ ∃ n, r.2 = .suspend (.backoff n) := by
    obtain ⟨c, a⟩ := r
    cases a <;> simp [Sys.Asleep, Sys.settle, Sys.setTask]
  refine ⟨?_, fun hm => ?_, ?_, ?_, fun o n hn => ?_, fun hm ms hms => ?_⟩
  · rw [hconn]
    exact (he.iterationsSince h.attempts.symm).symm
  · rw [hconn]
    exact he.bounded hm (h.bounded hm)
  · rw [hconn]
    exact (he.dialed h.dials.symm).symm
  · have hturns : TakeTurns false ns := by
      rcases h.oneDial with ⟨ha', -⟩ | ⟨-, ht⟩
      · exact absurd ha' ha
      · exact ht
    rcases he.takeTurns hturns with ⟨hb, ht⟩ | ⟨hb, ht⟩
    · exact .inl ⟨hasleep.2 hb, ht⟩
    · refine .inr ⟨fun hx => ?_, ht⟩
      obtain ⟨n, hn⟩ := hasleep.1 hx
      exact hb n hn
  · rcases List.mem_append.1 hn with hn | hn
    · exact he.ended h.bounded hn
    · exact h.ended o n hn
  · obtain ⟨hle, hsuf⟩ := he.failuresInRow ns
    rcases hsuf ms hms with rfl | hms
    · exact Nat.le_trans hle (h.failures hm ns (List.suffix_refl ns))
    · exact h.failures hm ms hms

/-- With no failed dial behind it, an episode keeps the pace. -/
theorem Sys.Paced.episode {κ : Kind} {t : TaskId} {s : Sys S} {k : Task S}
    {r : Conn S × Act S} {es ns : List Note} (h : Sys.WithinBudget cfg t (s, ns))
    (he : Episode cfg κ false s.conn r es) (ha : ¬s.Asleep t) (hf : failuresInRow ns = 0) :
    Sys.Paced cfg t (s.settle t k r, es ++ ns) := by
  refine ⟨h.episode he ha, ?_⟩
  have hle := (he.failuresInRow ns).1
  rw [hf] at hle
  exact Nat.le_trans hle (Nat.zero_le _)

/-- After a failed dial, the stream begins its next iteration or ends. -/
theorem Sys.Paced.afterFailure {κ : Kind} {t : TaskId} {s : Sys S} {k : Task S}
    {r : Conn S × Act S} {es ns : List Note} (h : Sys.WithinBudget cfg t (s, ns))
    (he : Episode cfg κ false s.conn r es) (ha : ¬s.Asleep t) (hκ : κ = .stream)
    (hr : r.2.point.AfterFailure r.1) (hf : failuresInRow ns ≤ s.conn.reconnectAttempts + 1) :
    Sys.Paced cfg t (s.settle t k r, es ++ ns) := by
  refine ⟨h.episode he ha, ?_⟩
  show failuresInRow (es ++ ns) ≤ allowance ((s.settle t k r).tasks t) (s.settle t k r).conn
  rw [allowance_settle]
  have out : ∀ {c : Conn S} {a : Act S}, a.point.AfterFailure c → a.arrival = [] →
      ∃ e, a = .finish e := by
    intro c a hp hn
    cases a with
    | suspend pc =>
      cases pc with
      | backoff n => cases hn
      | _ => exact hp.elim
    | finish e => exact ⟨e, rfl⟩
    | yields m rest => exact hp.elim
  cases he with
  | sleeps hs => exact Nat.le_trans hf (Nat.le_of_eq hs.symm)
  | dials => exact hr.elim
  | connects _ hn hne =>
    obtain ⟨e, rfl⟩ := out hr hn
    exact absurd hκ (hne e rfl)
  | ends => exact Nat.zero_le _
  | other _ hn hne =>
    obtain ⟨e, rfl⟩ := out hr hn
    exact absurd hκ (hne e rfl)

/-- A step notes what its segment notes, after what it begins with. -/
theorem notes_settle {s : Sys S} {l : Label S} {t : TaskId} {κ : Kind} (hκ : s.kindOf l = some κ)
    (ht : l.task = t) (k : Task S) (r : Conn S × Act S) (base : List Note)
    (hb : notes s l (s.settle t k r) = ending s l (s.settle t k r) ++
      (if s.conn.state ≠ .connected ∧ (s.settle t k r).conn.state = .connected
        then [.connected] else []) ++ (arrival ((s.settle t k r).tasks t) ++ base)) :
    notes s l (s.settle t k r) = segmentNotes κ s.conn r ++ base := by
  subst ht
  rw [hb, ending_settle hκ, arrival_settle, Sys.settle_conn]
  simp only [segmentNotes, List.append_assoc]

theorem not_asleep_of_call {s : Sys S} {t : TaskId} (h : (s.tasks t).call = none) :
    ¬s.Asleep t := by
  rintro ⟨n, hn⟩
  rw [h] at hn
  cases hn

theorem answer_of_ne {k : Task S} {pc : Pc S} {w : Wake S} (hc : k.call = some pc)
    (h : ∀ j, pc ≠ .connect j .dialing) : answer k w = [] := by
  unfold answer
  rw [hc]
  cases pc with
  | connect j pc =>
    cases pc with
    | dialing => exact absurd rfl (h j)
    | _ => cases w <;> rfl
  | _ => cases w <;> rfl

theorem allowance_of_ne {k : Task S} {pc : Pc S} {c : Conn S} (hc : k.call = some pc)
    (hb : ∀ n, pc ≠ .backoff n) (hd : ∀ j, pc ≠ .connect j .dialing) : allowance k c = 0 := by
  unfold allowance
  rw [hc]
  cases pc with
  | connect j pc =>
    cases pc with
    | dialing => exact absurd rfl (hd j)
    | _ => cases j <;> rfl
  | backoff n => exact absurd rfl (hb n)
  | _ => rfl

theorem allowance_of_call {k : Task S} (h : k.call = none) (c : Conn S) : allowance k c = 0 := by
  unfold allowance
  rw [h]

/-- The only task makes a call, or asks its generator for the next message. -/
theorem Sys.Paced.begins {κ : Kind} {t : TaskId} {s s' : Sys S} {l : Label S} {k : Task S}
    {P : Point S} {r : Conn S × Act S} {base ns : List Note} (hp : Sys.Paced cfg t (s, ns))
    (hκ : s.kindOf l = some κ) (ht : l.task = t) (hc : (s.tasks t).call = none)
    (hplace : Place cfg κ t P s.conn) (hP : P.Span cfg κ false s.conn s.conn)
    (hpath : Path cfg s.isDone t (P, s.conn) (r.2.point, r.1)) (hs : s' = s.settle t k r)
    (hbase : base = [] ∨ base = [.stream])
    (hb : notes s l s' = ending s l s' ++ (if s.conn.state ≠ .connected ∧
      s'.conn.state = .connected then [.connected] else []) ++ (arrival (s'.tasks t) ++ base)) :
    Sys.Paced cfg t (s', notes s l s' ++ ns) := by
  subst ht hs
  obtain ⟨hend, hspan⟩ := hpath.span hplace hP
  have hE := episode_of_span hspan hend.proper
  have hf : failuresInRow ns = 0 :=
    Nat.eq_zero_of_le_zero (Nat.le_trans hp.pace (Nat.le_of_eq (allowance_of_call hc _)))
  rw [notes_settle hκ rfl k r base hb, List.append_assoc]
  rcases hbase with rfl | rfl
  · exact .episode hp.within hE (not_asleep_of_call hc) hf
  · exact .episode (hp.within.note (.inl rfl) fun _ => Nat.zero_le _) hE (not_asleep_of_call hc) rfl

/-- The loop wakes and dials. -/
theorem Sys.Paced.wakes {t : TaskId} {s : Sys S} {k : Task S} {n : Nat} {ns : List Note}
    (hp : Sys.Paced cfg t (s, ns)) (hc : (s.tasks t).call = some (.backoff n)) :
    Sys.Paced cfg t (s.settle t k (dialing { s.conn with state := .disconnected } t,
      .suspend (.connect .reconnect .dialing)), .dial .reconnect :: ns) := by
  obtain ⟨hw, hpace⟩ := hp
  refine ⟨⟨hw.attempts, hw.bounded, ?_, .inr ⟨?_, ?_⟩, fun r m hr => ?_, fun hm ms hms => ?_⟩, ?_⟩
  · exact (congrArg (· + 1) hw.dials).trans (List.countP_cons_of_pos rfl).symm
  · rintro ⟨m, hm⟩
    simp [Sys.settle, Sys.setTask] at hm
  · rcases hw.oneDial with ⟨-, ht⟩ | ⟨ha, -⟩
    · exact .dial ht
    · exact absurd ⟨n, hc⟩ ha
  · rcases List.mem_cons.1 hr with hr | hr
    · cases hr
    · exact hw.ended r m hr
  · rcases List.suffix_cons_iff.1 hms with rfl | hms
    · exact hw.failures hm ns (List.suffix_refl ns)
    · exact hw.failures hm ms hms
  · show failuresInRow ns ≤ _
    rw [allowance_settle]
    have hp' : failuresInRow ns ≤ allowance (s.tasks t) s.conn := hpace
    rwa [allowance, hc] at hp'

/-- After a segment that does not begin in the sleep of the loop. -/
theorem Sys.Paced.resumes {t : TaskId} {s : Sys S} {k : Task S} {pc : Pc S} {w : Wake S}
    {r : Conn S × Act S} {ns : List Note} (hs : s.Sole t) (hp : Sys.Paced cfg t (s, ns))
    (hc : (s.tasks t).call = some pc) (hw : w ≠ .cancelled)
    (hr : advance cfg s.isDone s.conn t pc w = some r) (hpc : ∀ n, pc ≠ .backoff n) :
    Sys.Paced cfg t (s.settle t k r,
      segmentNotes pc.kind s.conn r ++ (answer (s.tasks t) w ++ ns)) := by
  have hplace : Place cfg pc.kind t (.resumed pc w) s.conn := hs.resume hc hw
  have hstart : (Point.resumed pc w).Span cfg pc.kind false s.conn s.conn :=
    ⟨rfl, fun n hn => absurd hn (hpc n)⟩
  obtain ⟨hend, hspan⟩ := (advance_path hr).span hplace hstart
  have hE := episode_of_span hspan hend.proper
  have hawake : ¬s.Asleep t := by
    rintro ⟨n, hn⟩
    rw [hc] at hn
    exact hpc n (Option.some.inj hn)
  obtain ⟨hwithin, hpace⟩ := hp
  -- only the answer to a dial is noted before the segment
  by_cases hdial : ∃ j, pc = .connect j .dialing
  · obtain ⟨j, rfl⟩ := hdial
    cases w with
    | done =>
      have hf : failuresInRow (.answered j true :: ns) = 0 := by
        cases j with
        | task => exact Nat.eq_zero_of_le_zero (by rwa [allowance, hc] at hpace)
        | _ => rfl
      simp only [answer, hc]
      exact .episode (hwithin.note (.inr ⟨j, true, rfl⟩) fun _ => by rw [hf]; exact Nat.zero_le _)
        hE hawake hf
    | raised e =>
      simp only [answer, hc]
      cases j with
      | task =>
        have hf : failuresInRow (.answered .task false :: ns) = 0 :=
          Nat.eq_zero_of_le_zero (by rwa [allowance, hc] at hpace)
        exact .episode (hwithin.note (.inr ⟨_, _, rfl⟩) fun _ => by rw [hf]; exact Nat.zero_le _)
          hE hawake hf
      | stream | reconnect =>
        have hle : failuresInRow ns ≤ s.conn.reconnectAttempts := by
          rw [allowance, hc] at hpace
          exact Nat.le_trans hpace (by first | exact Nat.le_refl _ | exact Nat.zero_le _)
        have hafter := ((advance_path hr).sole (B := Point.AfterFailure)
          (fun he hp hb => he.afterFailure hp hb) hplace trivial).2
        exact .afterFailure (hwithin.note (.inr ⟨_, _, rfl⟩) fun hm => Nat.succ_le_succ
          (Nat.le_trans hle (hwithin.bounded hm))) hE hawake rfl hafter (Nat.succ_le_succ hle)
    | cancelled => exact absurd rfl hw
    | frame f => cases hr
  · have hdial' : ∀ j, pc ≠ .connect j .dialing := fun j hj => hdial ⟨j, hj⟩
    rw [answer_of_ne hc hdial', List.nil_append]
    rw [allowance_of_ne hc hpc hdial'] at hpace
    exact .episode hwithin hE hawake (Nat.eq_zero_of_le_zero hpace)

theorem notes_exit (s : Sys S) (t : TaskId) (o : Outcome) :
    notes s (.exit t o) (s.setTask t { s.tasks t with generator := none, outcome := some o }) =
      [] := by
  have hc : ¬(s.conn.state ≠ .connected ∧ s.conn.state = .connected) := fun h => h.1 h.2
  show ending s (.exit t o) _ ++ (if s.conn.state ≠ .connected ∧ s.conn.state = .connected
    then [.connected] else []) ++ [] = []
  rw [if_neg hc, List.append_nil, List.append_nil]
  exact if_neg fun h => by cases h.1

/-- The task ends. -/
theorem Sys.Paced.exits {t : TaskId} {s : Sys S} {k : Task S} {ns : List Note}
    (hp : Sys.Paced cfg t (s, ns)) (hc : (s.tasks t).call = none) (hk : k.call = none) :
    Sys.Paced cfg t (s.setTask t k, ns) := by
  obtain ⟨⟨ha, hb, hn, hd, he, hf⟩, hpace⟩ := hp
  refine ⟨⟨ha, hb, hn, .inr ⟨not_asleep_of_call (by rwa [Sys.setTask_self]), ?_⟩, he, hf⟩, ?_⟩
  · rcases hd with ⟨hs, -⟩ | ⟨-, ht⟩
    · exact absurd hs (not_asleep_of_call hc)
    · exact ht
  · exact Nat.le_trans hpace (Nat.le_trans (Nat.le_of_eq (allowance_of_call hc _)) (Nat.zero_le _))

/-- **One step of the only task keeps the budget.** -/
theorem step_paced {t : TaskId} {s s' : Sys S} {l : Label S} {ns : List Note} (hs : s.Sole t)
    (hp : Sys.Paced cfg t (s, ns)) (hl : l.Of t) (hstep : step cfg s l = some s') :
    Sys.Paced cfg t (s', notes s l s' ++ ns) := by
  have hcalm := hs.steady.calm hstep
  cases step_move hstep with
  | @call u op ho hc =>
    cases hl
    have hpath := @enter_path U S cfg s.isDone t s.conn op
    cases op with
    | stream => exact hp.begins rfl rfl hc (hs.call hc) ⟨rfl, rfl, id⟩ hpath rfl (.inr rfl) rfl
    | _ =>
      exact hp.begins rfl rfl hc (hs.call hc) ⟨rfl, rfl, id⟩ hpath rfl (.inl rfl)
        (by rw [List.append_nil]; rfl)
  | @next u ms ho hc hm =>
    cases hl
    exact hp.begins rfl rfl hc (hs.next hc hm) ⟨rfl, rfl, id⟩ (yieldMessages_path s.conn ms) rfl
      (.inl rfl) (by rw [List.append_nil]; rfl)
  | @resume u pc w r hc _ hr =>
    cases hl
    have hκ : s.kindOf (.resume t w) = some pc.kind := congrArg (Option.map Pc.kind) hc
    rw [notes_settle hκ (show (Label.resume t w).task = t from rfl)
      { s.tasks t with cancelling := false } r (answer (s.tasks t) w) rfl, List.append_assoc]
    by_cases hpc : ∃ n, pc = .backoff n
    · obtain ⟨n, rfl⟩ := hpc
      cases w with
      | done =>
        have hplace : Place cfg .stream t (.resumed (.backoff n) .done) s.conn := hs.resume hc hcalm
        rw [hplace.advance_woken s.isDone] at hr
        cases hr
        rw [answer_of_ne hc nofun, segmentNotes, if_neg (fun h => (by cases h.2))]
        exact hp.wakes hc
      | cancelled => exact absurd rfl hcalm
      | _ => cases hr
    · exact hp.resumes hs hc hcalm hr fun n hn => hpc ⟨n, hn⟩
  | cancel => exact hl.elim
  | @exit u o _ hc _ =>
    cases hl
    have hn : notes s (.exit t o) _ = [] := notes_exit s t o
    rw [hn, List.nil_append]
    exact hp.exits hc hc

theorem observe_paced {t : TaskId} {x x' : Sys S × List Note} {l : Label S}
    (hx : x.1.Sole t ∧ Sys.Paced cfg t x) (hl : l.Of t) (h : observe cfg x l = some x') :
    x'.1.Sole t ∧ Sys.Paced cfg t x' := by
  obtain ⟨s', hstep, rfl⟩ := Option.map_eq_some_iff.1 h
  exact ⟨step_sole hx.1 hl hstep, step_paced hx.1 hx.2 hl hstep⟩

/-! ## Runs -/

/-- **The reconnect budget.**  In every run of a single task that connects, disconnects, streams, or
calls coroutines of the subclass, without cancellation and whatever the network answers, the budget
is kept in every state. -/
theorem withinBudget {t : TaskId} {inst : S.Inst} {ls : List (Label S)} {x : Sys S × List Note}
    (hl : ∀ l ∈ ls, l.Of t) (hr : run (observe cfg) (Sys.init S inst, []) ls = some x) :
    Sys.WithinBudget cfg t x := by
  have h₀ : (Sys.init S inst).Sole t ∧ Sys.Paced cfg t (Sys.init S inst, []) := by
    refine ⟨sole_init inst t, ⟨⟨rfl, fun _ => Nat.zero_le _, rfl, .inr ⟨nofun, .nil⟩, nofun, ?_⟩,
      Nat.le_refl _⟩⟩
    rintro hm ns hns
    rw [List.suffix_nil.1 hns]
    exact Nat.zero_le _
  have h := run_guarded_invariant (P := fun x => x.1.Sole t ∧ Sys.Paced cfg t x)
    (G := fun _ l => l.Of t) (fun _ _ _ hx hl hs => observe_paced hx hl hs) h₀ (.of_mem hl) hr
  exact h.2.within

/-- No dial of a stream succeeds. -/
def exhausted : List (Label concurrencyTestConnector) :=
  [.call 0 .stream, .resume 0 (.raised .osError), .resume 0 .done, .resume 0 (.raised .osError),
    .resume 0 .done, .resume 0 (.raised .osError), .resume 0 .done, .resume 0 (.raised .osError)]

/-- `withinBudget` of that run: the stream raises after its fourth dial. -/
theorem withinBudget_exhausted : ∃ x, (∀ l ∈ exhausted, l.Of 0) ∧
    run (observe testConfig) (Sys.init concurrencyTestConnector (), []) exhausted = some x ∧
    Sys.WithinBudget testConfig 0 x ∧ failuresInRow x.2.tail = 4 ∧
    (x.1.tasks 0).last =
      some (.raised (.connectionClosedError "Failed to reconnect after 3 attempts")) := by
  have hl : ∀ l ∈ exhausted, l.Of 0 := by simp [exhausted, Label.Of]
  have hr : run (observe testConfig) (Sys.init concurrencyTestConnector (), []) exhausted =
    some ((run (observe testConfig) (Sys.init concurrencyTestConnector (), []) exhausted).get rfl) :=
    (Option.some_get _).symm
  exact ⟨_, hl, hr, withinBudget hl hr, rfl, rfl⟩

end FlinkPractices.Connector
