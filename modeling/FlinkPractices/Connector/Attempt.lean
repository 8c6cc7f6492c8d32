import FlinkPractices.Connector.Invariants

/-!
# One attempt to connect

What `connect()` of `connectors/base_websocket.py` does when nothing else is in progress: the lock
is free and no attempt is in flight.  It is the part of the connector that the service meets in
`start()`, and the use case in its first connection.

* `connect_dials`, `connect_refuses` — it dials from `DISCONNECTED` and `CONNECTING` only.  From any
  other state the transition to `CONNECTING` is illegal, and the attempt fails before it has dialed.
* `Subscribes` — the assumption on a subclass that its `_send_subscription_message` comes to an end
  when all sends succeed; it does not say how many there are.

The attempt as a whole is a predicate on the places of the control-flow graph:

* `Fails` — the assertion at a place of the attempt: where it ends by raising, whatever failed
  in it (the dial, a send, the subclass's own code), the state is `FAILED`
* `edge_fails` — kept along every edge
* `path_attempt` — hence of whole segments, so that `Attempt`, a task alone in its attempt, is kept
  from one suspension point to the next until it has ended (`Attempt.ended`).

Nothing here excludes that the dial or the sends never answer; who needs an end assumes it.
-/

set_option autoImplicit false

namespace FlinkPractices.Connector

open Lib

variable {U : UpperTable} {S : Subclass} {cfg : ExchangeConfig U}

/-- With sends that succeed, a sending coroutine returns after `n` of them. -/
inductive SendsThrough (S : Subclass) (ws : Option Ws) :
    Nat → S.Inst × SendStep S.Coro S.Payload → Prop
  | returned {i} : SendsThrough S ws 0 (i, .returned)
  | send {n i w p q} : SendsThrough S ws n (S.resumeSend i ws q none) →
      SendsThrough S ws (n + 1) (i, .send w p q)

/-- `_send_subscription_message` of the subclass comes to an end when all sends succeed. -/
def Subscribes (S : Subclass) : Prop :=
  ∀ i w, ∃ n, SendsThrough S (some w) n (S.sendSubscriptionMessage i (some w))

/-! ## `connect()` when nothing is in progress -/

/-- `connect()` when nothing is in progress. -/
theorem connect_atRest (done : TaskId → Bool) {c : Conn S} (t : TaskId)
    (hl : c.connectLock = AsyncLock.free) (ht : c.connectingTask = none) :
    connect cfg done c t =
      if c.state = .connected then (c, .finish .returned)
      else connectAttempt cfg { c with connectLock := ⟨some t, []⟩ } t := by
  unfold connect
  split
  · rfl
  · rename_i hs
    simp [inFlight, ht, connectAcquire, hl, AsyncLock.tryAcquire_free,
      connectLocked, hs]

/-- The connector of an attempt of `t` that dials. -/
def dialing (c : Conn S) (t : TaskId) : Conn S :=
  { c with
    connectLock := ⟨some t, []⟩
    connectingTask := some t
    state := .connecting
    dials := c.dials + 1 }

theorem connect_dials (done : TaskId → Bool) {c : Conn S} (t : TaskId)
    (hl : c.connectLock = AsyncLock.free) (ht : c.connectingTask = none)
    (hs : c.state = .disconnected ∨ c.state = .connecting) :
    connect cfg done c t = (dialing c t, .suspend .dialing) := by
  rw [connect_atRest done t hl ht, if_neg (by rcases hs with hs | hs <;> (rw [hs]; decide))]
  unfold connectAttempt
  dsimp only
  rw [transitionState_valid (c := { c with
    connectLock := ⟨some t, []⟩, connectingTask := some t })
    ((ConnectionState.isValidTransition_connecting _).2 hs)]
  rfl

/-- From the other states there is no way to `CONNECTING`: the attempt fails at once. -/
theorem connect_refuses (done : TaskId → Bool) {c : Conn S} (t : TaskId)
    (hl : c.connectLock = AsyncLock.free) (ht : c.connectingTask = none)
    (hc : c.state ≠ .connected) (hs : ¬(c.state = .disconnected ∨ c.state = .connecting)) :
    connect cfg done c t = connectFailed cfg
      { c with connectLock := ⟨some t, []⟩, connectingTask := some t } t := by
  rw [connect_atRest done t hl ht, if_neg hc]
  unfold connectAttempt
  dsimp only
  rw [transitionState_invalid (c := { c with
    connectLock := ⟨some t, []⟩, connectingTask := some t })
    (Bool.eq_false_iff.2 fun h => hs ((ConnectionState.isValidTransition_connecting _).1 h))]

theorem connectFailed_cases (cfg : ExchangeConfig U) (c : Conn S) (t : TaskId) :
    (∃ c' e, connectFailed cfg c t = (c', .finish (.raised e))) ∨
      ∃ c' w, connectFailed cfg c t = (c', .suspend (.closing w)) := by
  unfold connectFailed
  split
  · exact .inl ⟨_, _, rfl⟩
  · split
    · exact .inr ⟨_, _, rfl⟩
    · exact .inl ⟨_, _, rfl⟩

theorem connectSubscribed_connecting {c : Conn S} (t : TaskId) (h : c.state = .connecting) :
    connectSubscribed cfg c t =
      (connectFinally { c with state := .connected, reconnectAttempts := 0 } t,
        .finish .returned) := by
  unfold connectSubscribed
  rw [transitionState_valid ((ConnectionState.isValidTransition_connected _).2 (.inl h))]

/-! ## The only attempt -/

/-- What holds at a suspension point of the only attempt, as long as nobody is cancelled. -/
def Held : ConnectPc S → Conn S → Prop
  | .awaitTask _, _ => False
  | .awaitTaskLocked _, _ => False
  | .lock, _ => True
  | .dialing, c => c.state = .connecting
  | .sending _ _ _, c => c.state = .connecting
  | .closing _, c => c.state = .failed

/-- What holds at a place of the only attempt: where it ends by raising, the state is `FAILED`. -/
def Fails : Point S → Conn S → Prop
  | .suspended (.connect _ pc), c => Held pc c
  | .resumed (.connect _ pc) w, c => Held pc c ∧ w ≠ .cancelled
  | .sent _ _, c => c.state = .connecting
  | .failed _, c => c.state ≠ .disconnected
  | .ended _ (.raised _), c => c.state = .failed
  | .ended _ .cancelled, _ => False
  | _, _ => True

theorem edge_fails {done : TaskId → Bool} {t : TaskId} {p p' : Point S}
    {c c' : Conn S} (h : Edge cfg done t p c p' c')
    (hin : p.attempting = false → inFlight done c = none) (hp : Fails p c) :
    Fails p' c' := by
  cases h
  case connectAwait ho => rw [hin rfl] at ho; cases ho
  case lockedAwait ho => rw [hin rfl] at ho; cases ho
  case taskCancelled | lockCancelled | lockedCancelled | dialCancelled | sendCancelled |
      closeCancelled => exact absurd rfl hp.2
  case dialInvalid hv => exact fun hs => by rw [hs] at hv; cases hv
  case dialReturned => exact hp.1
  case dialRaised => exact fun hs => by rw [hp.1] at hs; cases hs
  case sendReturned | sendRaised => exact hp.1
  case connectedInvalid | subscribeRaised =>
    exact fun hs => by rw [show c.state = .connecting from hp] at hs; cases hs
  case failInvalid hv =>
    exact absurd ((ConnectionState.isValidTransition_failed _).2 hp) (by rw [hv]; decide)
  case closeReturned | closeRaised => exact hp.1
  case send => exact hp
  all_goals first | exact trivial | exact rfl

/-- The task `t` is alone on the connector, at a place of its attempt. -/
def Attempt (t : TaskId) (x : Point S × Conn S) : Prop :=
  Disciplined (Function.update (fun _ => Point.idle) t x.1) x.2 ∧ Fails x.1 x.2

theorem path_attempt {done : TaskId → Bool} {t : TaskId} {x y : Point S × Conn S}
    (h : Path cfg done t x y) (hx : Attempt t x) : Attempt t y := by
  induction h with
  | refl => exact hx
  | @tail y z _ he ih =>
    refine ⟨he.disciplined ih.1, edge_fails he (fun ha => ?_) ih.2⟩
    unfold inFlight
    split
    · rename_i o ho
      have hatt := (ih.1.connecting o).1 ho
      by_cases hot : o = t
      · subst hot; rw [Function.update_self, ha] at hatt; cases hatt
      · rw [Function.update_of_ne hot] at hatt; cases hatt
    · rfl

/-- An attempt that has ended leaves the connector at rest. -/
theorem Attempt.ended {t : TaskId} {k : Caller} {r : Outcome} {c : Conn S}
    (h : Attempt t (.ended k r, c)) :
    c.connectLock = AsyncLock.free ∧ c.connectingTask = none := by
  have hidle : ∀ u, (Function.update (fun _ => Point.idle (S := S)) t (.ended k r)
      u).lockStatus = .idle ∧ (Function.update (fun _ => Point.idle (S := S)) t
      (.ended k r) u).attempting = false := by
    intro u
    by_cases hu : u = t
    · subst hu; rw [Function.update_self]; exact ⟨rfl, rfl⟩
    · rw [Function.update_of_ne hu]; exact ⟨rfl, rfl⟩
  refine ⟨h.1.lock.eq_free fun u => (hidle u).1, ?_⟩
  rw [Option.eq_none_iff_forall_ne_some]
  intro u hu
  have := (h.1.connecting u).1 hu
  rw [(hidle u).2] at this
  cases this

theorem attempt_atRest {c : Conn S} (t : TaskId) (hl : c.connectLock = AsyncLock.free)
    (ht : c.connectingTask = none) : Attempt t (.connect .task, c) := by
  have hidle : ∀ u, (Function.update (fun _ => Point.idle (S := S)) t
      (.connect .task) u).lockStatus = .idle ∧
      (Function.update (fun _ => Point.idle (S := S)) t
        (.connect .task) u).attempting = false ∧
      (Function.update (fun _ => Point.idle (S := S)) t
        (.connect .task) u).awaitsUnderLock = false := by
    intro u
    by_cases hu : u = t
    · subst hu; rw [Function.update_self]; exact ⟨rfl, rfl, rfl⟩
    · rw [Function.update_of_ne hu]; exact ⟨rfl, rfl, rfl⟩
  refine ⟨⟨?_, fun u => ?_, fun u => (hidle u).2.2⟩, trivial⟩
  · rw [hl, show (fun u => (Function.update (fun _ => Point.idle (S := S)) t
      (.connect .task) u).lockStatus) = fun _ => .idle from funext fun u => (hidle u).1]
    exact AsyncLock.coherent_free
  · rw [ht, (hidle u).2.1]
    exact ⟨nofun, nofun⟩

end FlinkPractices.Connector
