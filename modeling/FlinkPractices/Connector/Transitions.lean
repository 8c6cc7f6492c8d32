import FlinkPractices.Connector.Cancel

/-!
# Transitions that are not allowed

Any number of tasks that connect, disconnect and stream, with any answers of the network and
without cancellation.  `Kind.MayEnd` is how each public operation is documented to end;
`InvalidTransitionError` is nowhere among it.

While the state is `CONNECTING` some task is inside the `try` of `connect()`, under the lock.  So
`disconnect()` always has a legal transition, and so has the reconnect loop after a failed
`connect()`.  Two places are left (`Sys.Undisturbed`): a stream that wakes from its back-off while
another task is connecting, and an attempt that fails when a stream has meanwhile set the state to
`DISCONNECTED`.  Principal result: `endsProperly_iff`.

## Proof

* `Occupied` — the invariant about `CONNECTING`: only a dial leads there (`Edge.connecting_of`), and
  who leaves the `try` leaves it (`Edge.leaves`)
* `Point.Proper`, `Edge.proper` — the places of an operation of some kind, and what keeps it on its
  documented ways; with `Path.proper` an operation at a proper place ends as it may
* `completes_disconnected`, `advance_woken_connecting` — at the two places that are left it does end
  with `InvalidTransitionError`
* `Sys.Steady` — the invariant of the system: nobody gets a `CancelledError`
* `step_endsProperly_iff` — so one step ends its operation as documented iff it is undisturbed
-/

set_option autoImplicit false

namespace FlinkPractices.Connector

open Lib Function

variable {U : UpperTable} {S : Subclass} (cfg : ExchangeConfig U)

/-! ## How operations are documented to end -/

/-- The public operations. -/
inductive Kind where
  | connect
  | disconnect
  | stream
  | own
  deriving DecidableEq, Repr

def Op.kind : Op S → Kind
  | .connect => .connect
  | .disconnect => .disconnect
  | .stream => .stream
  | .own _ => .own

def Caller.kind : Caller → Kind
  | .task => .connect
  | .stream => .stream
  | .reconnect => .stream

def Pc.kind : Pc S → Kind
  | .connect k _ => k.kind
  | .disconnectLock => .disconnect
  | .disconnectClosing _ => .disconnect
  | .recv _ => .stream
  | .lostClosing _ => .stream
  | .backoff _ => .stream
  | .own _ _ _ => .own

/-- How an operation may end. -/
def Kind.MayEnd : Kind → Outcome → Prop
  | .connect, r => r = .returned ∨ ∃ message, r = .raised (.connectionFailedError message)
  | .disconnect, r => r = .returned
  | .stream, r => ∃ message, r = .raised (.connectionClosedError message)
  | .own, _ => True

/-- If the step ends an operation, it ends as it may. -/
def Sys.EndsProperly (s : Sys S) : Label S → Prop
  | .call t op => ∀ r, (enter cfg s.isDone s.conn t op).2 = .finish r → op.kind.MayEnd r
  | .next t => ∀ ms r, (s.tasks t).generator = some ms →
      (yieldMessages cfg s.isDone s.conn t ms).2 = .finish r → Kind.stream.MayEnd r
  | .resume t w => ∀ pc c r, (s.tasks t).call = some pc →
      advance cfg s.isDone s.conn t pc w = some (c, .finish r) → pc.kind.MayEnd r
  | _ => True

def Label.Uncancelled : Label S → Prop
  | .cancel _ _ => False
  | _ => True

/-- The coroutine goes on to another send. -/
def SendStep.sends {Coro Payload : Type} : SendStep Coro Payload → Bool
  | .send _ _ _ => true
  | _ => false

/-- Resumed with `w`, the attempt suspended at `pc` comes to the end of its `try`. -/
def ConnectPc.completes (c : Conn S) : ConnectPc S → Wake S → Bool
  | .dialing, .done => !(S.sendSubscriptionMessage c.inst (some c.opened)).2.sends
  | .dialing, .raised _ => true
  | .sending _ _ q, .done => !(S.resumeSend c.inst c.websocket q none).2.sends
  | .sending _ _ q, .raised e => !(S.resumeSend c.inst c.websocket q (some e)).2.sends
  | _, _ => false

/-- No stream wakes from its back-off while the state is `CONNECTING`, and no attempt, except one at
the top of a stream loop, completes while it is `DISCONNECTED`. -/
def Sys.Undisturbed (s : Sys S) : Label S → Prop
  | .resume t w =>
    (∀ n, (s.tasks t).call = some (.backoff n) → w = .done → s.conn.state ≠ .connecting) ∧
    ∀ k pc, (s.tasks t).call = some (.connect k pc) → k ≠ .stream →
      pc.completes s.conn w = true → s.conn.state ≠ .disconnected
  | _ => True

variable {cfg}

/-! ## Who is connecting -/

def Pc.cleansUp : Pc S → Bool
  | .connect _ (.closing _) => true
  | _ => false

def Point.cleansUp : Point S → Bool
  | .suspended pc => pc.cleansUp
  | .resumed pc _ => pc.cleansUp
  | _ => false

/-- While the state is `CONNECTING`, a task is inside the `try` of `connect()`, and it is not in its
clean-up. -/
structure Occupied (p : TaskId → Point S) (c : Conn S) : Prop where
  disciplined : Disciplined p c
  busy : c.state = .connecting → ∃ t, (p t).attempting = true
  cleansUp : ∀ t, (p t).cleansUp = true → c.state ≠ .connecting
  calm : ∀ t, (p t).calm

theorem Point.attempting_of_cleansUp {P : Point S} (h : P.cleansUp = true) :
    P.attempting = true := by
  cases P with
  | suspended pc => cases pc with
    | connect k pc => cases pc <;> first | rfl | cases h
    | _ => cases h
  | resumed pc w => cases pc with
    | connect k pc => cases pc <;> first | rfl | cases h
    | _ => cases h
  | _ => cases h

/-- Only a dial leads to `CONNECTING`. -/
theorem Edge.connecting_of {isDone : TaskId → Bool} {t : TaskId} {P P' : Point S} {c c' : Conn S}
    (h : Edge cfg isDone t P c P' c') (hs : c'.state = .connecting) :
    (P.lockStatus = .holding ∧ P.cleansUp = false ∧ P'.attempting = true ∧ P'.cleansUp = false) ∨
      c.state = .connecting := by
  cases h
  case dial => exact .inl ⟨rfl, rfl, rfl, rfl⟩
  case connected | failClose | failNone | endedReconnectFailed | disconnected | lostConnected |
      lostFailed | giveUpFailed | woken => cases hs
  all_goals exact .inr hs

/-- Who leaves the `try` leaves `CONNECTING`. -/
theorem Edge.leaves {isDone : TaskId → Bool} {t : TaskId} {P P' : Point S} {c c' : Conn S}
    (h : Edge cfg isDone t P c P' c') (hc : P.calm)
    (hcl : P.cleansUp = true → c.state ≠ .connecting) (hP : P.attempting = true)
    (hP' : P'.attempting = false) : c'.state ≠ .connecting := by
  cases h
  case connected | failNone => exact nofun
  case failInvalid hv =>
    intro hs
    rw [show c.state = .connecting from hs] at hv
    cases hv
  case closeReturned | closeRaised => exact hcl rfl
  case dialCancelled | sendCancelled | closeCancelled => exact absurd rfl hc
  -- the other edges start outside the `try`, or stay inside it
  all_goals first | (cases hP; done) | cases hP'

theorem Edge.cleansUp_of {isDone : TaskId → Bool} {t : TaskId} {P P' : Point S} {c c' : Conn S}
    (h : Edge cfg isDone t P c P' c') (hP' : P'.cleansUp = true) : c'.state ≠ .connecting := by
  cases h
  case failClose => exact nofun
  all_goals cases hP'

theorem Edge.occupied {isDone : TaskId → Bool} {t : TaskId} {p : TaskId → Point S}
    {P P' : Point S} {c c' : Conn S} (h : Edge cfg isDone t P c P' c')
    (ho : Occupied (update p t P) c) : Occupied (update p t P') c' := by
  have hcalm : P.calm := by have := ho.calm t; rwa [update_self] at this
  have hcl : P.cleansUp = true → c.state ≠ .connecting := by
    have := ho.cleansUp t
    rwa [update_self] at this
  refine ⟨h.disciplined ho.disciplined, fun hs => ?_, fun u hu hs => ?_, fun u => ?_⟩
  · rcases h.connecting_of hs with ⟨-, -, ha, -⟩ | hs₀
    · exact ⟨t, by rwa [update_self]⟩
    · obtain ⟨u, hu⟩ := ho.busy hs₀
      by_cases hut : u = t
      · subst hut
        rw [update_self] at hu
        refine ⟨u, ?_⟩
        rw [update_self, ← Bool.not_eq_false]
        exact fun ha => h.leaves hcalm hcl hu ha hs
      · exact ⟨u, by rwa [update_of_ne hut] at hu ⊢⟩
  · by_cases hut : u = t
    · subst hut
      rw [update_self] at hu
      exact h.cleansUp_of hu hs
    · rw [update_of_ne hut] at hu
      rcases h.connecting_of hs with ⟨hl, -, -, -⟩ | hs₀
      · refine hut (ho.disciplined.mutex ?_ (by rwa [update_self]))
        rw [update_of_ne hut]
        exact Point.attempting_holding (Point.attempting_of_cleansUp hu)
      · exact ho.cleansUp u (by rwa [update_of_ne hut]) hs₀
  · by_cases hut : u = t
    · subst hut
      rw [update_self]
      exact h.calm hcalm
    · have := ho.calm u
      rwa [update_of_ne hut] at this ⊢

/-- The step delivers no cancellation. -/
def Sys.Calm (_ : Sys S) : Label S → Prop
  | .resume _ w => w ≠ .cancelled
  | _ => True

theorem Occupied.update {p : TaskId → Point S} {c : Conn S} {t : TaskId} {P : Point S}
    (h : Occupied p c) (hd : Disciplined (update p t P) c) (hc : P.calm)
    (ha : (p t).attempting = true → P.attempting = true)
    (hcl : P.cleansUp = true → (p t).cleansUp = true) : Occupied (Function.update p t P) c := by
  refine ⟨hd, fun hs => ?_, fun u hu => ?_, fun u => ?_⟩
  · obtain ⟨u, hu⟩ := h.busy hs
    refine ⟨u, ?_⟩
    by_cases hut : u = t
    · subst hut
      rw [update_self]
      exact ha hu
    · rwa [update_of_ne hut]
  · by_cases hut : u = t
    · subst hut
      rw [update_self] at hu
      exact h.cleansUp u (hcl hu)
    · rw [update_of_ne hut] at hu
      exact h.cleansUp u hu
  · by_cases hut : u = t
    · subst hut
      rwa [update_self]
    · rw [update_of_ne hut]
      exact h.calm u

theorem keeps_occupied (cfg : ExchangeConfig U) : Keeps cfg Sys.Calm (Occupied (S := S)) where
  edge he ho := he.occupied ho
  call _ hi ho := ho.update ((keeps_disciplined cfg).call trivial hi ho.disciplined) trivial
    (fun ha => by rw [hi] at ha; cases ha) (fun hc => by cases hc)
  next _ hi hm ho := ho.update ((keeps_disciplined cfg).next trivial hi hm ho.disciplined) trivial
    (fun ha => by rw [hi] at ha; cases ha) (fun hc => by cases hc)
  resume hg hp ho := ho.update ((keeps_disciplined cfg).resume trivial hp ho.disciplined) hg
    (fun ha => by rw [hp] at ha; exact ha) (fun hc => by rw [hp]; exact hc)
  rest {p t c P} ho := by
    have hc := ho.calm t
    have hu := ho.update (t := t) (P := P.rest)
      (by simpa using (keeps_disciplined cfg).rest ho.disciplined)
      (by rw [update_self] at hc; cases P <;> first | exact hc | trivial)
      (by rw [update_self]; cases P <;> exact id)
      (by rw [update_self]; cases P <;> exact id)
    simpa using hu

/-! ## What an operation ends with -/

/-- The places of an operation of kind `κ`, and what keeps it on its documented ways. -/
def Point.Proper (cfg : ExchangeConfig U) (κ : Kind) : Point S → Conn S → Prop
  | .enter op, _ => op.kind = κ
  | .resumed pc w, c => pc.kind = κ ∧
      (∀ n, pc = .backoff n → w = .done → c.state ≠ .connecting) ∧
      ∀ k q, pc = .connect k q → k ≠ .stream → q.completes c w = true → c.state ≠ .disconnected
  | .connect k, _ => k.kind = κ
  | .acquire k, _ => k.kind = κ
  | .locked k, _ => k.kind = κ
  | .attempt k, _ => k.kind = κ
  | .sent k r, c => k.kind = κ ∧ (k ≠ .stream → r.sends = false → c.state ≠ .disconnected)
  | .failed k, c => k.kind = κ ∧ (k ≠ .stream → c.state ≠ .disconnected)
  | .ended k r, c => k.kind = κ ∧ (r = .returned ∨ ∃ e, r = .raised e ∧
      (k ≠ .stream → e = connectFailure cfg ∧ c.state ≠ .connecting))
  | .disconnect, _ => κ = .disconnect
  | .disconnectLocked, _ => κ = .disconnect
  | .disconnectFinish, c => κ = .disconnect ∧ c.state ≠ .connecting
  | .generator _, _ => κ = .stream
  | .loop, _ => κ = .stream
  | .receive, _ => κ = .stream
  | .lost, _ => κ = .stream
  | .lostCleanup, _ => κ = .stream
  | .retry, _ => κ = .stream
  | .own _, _ => κ = .own
  | .finished r, _ => κ.MayEnd r
  | .idle, _ => True
  | .suspended _, _ => True
  | .yielded _ _, _ => True

theorem Edge.proper {κ : Kind} {isDone : TaskId → Bool} {t : TaskId} {P P' : Point S}
    {c c' : Conn S} (h : Edge cfg isDone t P c P' c') (hcalm : P.calm)
    (hfree : P.lockStatus = .holding → P.attempting = false → c.state ≠ .connecting)
    (hcl : P.cleansUp = true → c.state ≠ .connecting) (hP : P.Proper cfg κ c) :
    P'.Proper cfg κ c' := by
  cases h
  case taskCancelled | lockCancelled | lockedCancelled | dialCancelled | sendCancelled |
      closeCancelled | endedStreamCancelled | endedReconnectCancelled | disconnectLockCancelled |
      disconnectCloseCancelled | recvCancelled | lostCancelled | backoffCancelled |
      ownCancelled => exact absurd rfl hcalm
  case connectAlready | lockedAlready => exact ⟨hP, .inl rfl⟩
  case taskReturned | lockedReturned => exact ⟨hP.1, .inl rfl⟩
  case connectAcquire | acquire | lockedAttempt => exact hP
  case taskRaised | lockWoken | lockedRaised => exact hP.1
  case dialInvalid hv => exact ⟨hP, fun _ hs => by rw [hs] at hv; cases hv⟩
  case dialReturned hr =>
    refine ⟨hP.1, fun hk hn => hP.2.2 _ _ rfl hk ?_⟩
    simp [ConnectPc.completes, hr, hn]
  case dialRaised => exact ⟨hP.1, fun hk => hP.2.2 _ _ rfl hk rfl⟩
  case sendReturned hr =>
    refine ⟨hP.1, fun hk hn => hP.2.2 _ _ rfl hk ?_⟩
    simp [ConnectPc.completes, hr, hn]
  case sendRaised hr =>
    refine ⟨hP.1, fun hk hn => hP.2.2 _ _ rfl hk ?_⟩
    simp [ConnectPc.completes, hr, hn]
  case connected => exact ⟨hP.1, .inl rfl⟩
  case connectedInvalid | subscribeRaised => exact ⟨hP.1, fun hk => hP.2 hk rfl⟩
  case failNone => exact ⟨hP.1, .inr ⟨_, rfl, fun _ => ⟨rfl, nofun⟩⟩⟩
  case failInvalid hv =>
    refine ⟨hP.1, .inr ⟨_, rfl, fun hk => ?_⟩⟩
    exact absurd ((ConnectionState.isValidTransition_failed _).2 (hP.2 hk)) (by rw [hv]; decide)
  case closeReturned | closeRaised =>
    exact ⟨hP.1, .inr ⟨_, rfl, fun _ => ⟨rfl, hcl rfl⟩⟩⟩
  -- after `connect()`
  case endedTask r =>
    obtain ⟨rfl, rfl | ⟨e, rfl, he⟩⟩ := hP
    · exact .inl rfl
    · exact .inr ⟨_, by rw [(he nofun).1]; rfl⟩
  case endedStreamReturned | endedStreamRaised | endedReconnectReturned | endedReconnectFailed =>
    exact hP.1.symm
  case endedReconnectInvalid hv =>
    obtain ⟨-, hr | ⟨_, hr, he⟩⟩ := hP
    · cases hr
    · exact absurd ((ConnectionState.isValidTransition_disconnected _).2 (he nofun).2)
        (by rw [hv]; decide)
  case endedReconnectRaised he =>
    obtain ⟨-, hr | ⟨_, hr, hf⟩⟩ := hP
    · cases hr
    · cases hr
      rw [(hf nofun).1] at he
      cases he
  -- `disconnect()`
  case disconnectAlready | disconnectedAlready => exact hP ▸ rfl
  case disconnectAcquire => exact hP
  case disconnectWoken => exact hP.1.symm
  case disconnectNone => exact ⟨hP, hfree rfl rfl⟩
  case disconnectClosed | disconnectCloseRaised => exact ⟨hP.1.symm, hfree rfl rfl⟩
  case disconnected => exact hP.1 ▸ rfl
  case disconnectInvalid hv =>
    exact absurd ((ConnectionState.isValidTransition_disconnected _).2 hP.2) (by rw [hv]; decide)
  -- the stream and its reconnect loop
  case loopConnected | recvNone | yieldedAll | lostConnected | lostFailed | lostOther | lostNone =>
    exact hP
  case loopConnect => exact hP.symm
  case frameSkipped | frameInvalid | frameRaised | convertInvalid | convertRaised | converted |
      recvInvalid | recvRaised | lostClosed | lostCloseRaised => exact hP.1.symm
  case giveUpFailed | giveUp => exact hP ▸ ⟨_, rfl⟩
  case woken => exact hP.1
  case wokenInvalid hv =>
    exact absurd ((ConnectionState.isValidTransition_disconnected _).2 (hP.2.1 _ rfl rfl))
      (by rw [hv]; decide)
  -- the subclass's own coroutines
  case ownStart => exact hP.symm
  case ownReturned | ownRaised => exact hP ▸ trivial
  case ownSent | ownSendRaised => exact hP.1.symm
  -- calls
  case enterConnect => exact hP
  case enterDisconnect | enterStream => exact hP.symm
  all_goals trivial

/-- An operation that is at a proper place ends as it may. -/
theorem Path.proper {κ : Kind} {isDone : TaskId → Bool} {t : TaskId} {p : TaskId → Point S}
    {x y : Point S × Conn S} (h : Path cfg isDone t x y) (ho : Occupied (update p t x.1) x.2)
    (hx : x.1.Proper cfg κ x.2) : y.1.Proper cfg κ y.2 := by
  have both : Occupied (update p t y.1) y.2 ∧ y.1.Proper cfg κ y.2 := by
    induction h with
    | refl => exact ⟨ho, hx⟩
    | @tail y z _ he ih =>
      obtain ⟨ho, hy⟩ := ih
      have hcalm := ho.calm t
      have hcl := ho.cleansUp t
      rw [update_self] at hcalm hcl
      refine ⟨he.occupied ho, he.proper hcalm (fun hl ha hs => ?_) hcl hy⟩
      obtain ⟨u, hu⟩ := ho.busy hs
      have hut : u = t := ho.disciplined.mutex (Point.attempting_holding hu) (by rwa [update_self])
      rw [hut, update_self, ha] at hu
      cases hu
  exact both.2

/-! ## Where it fails -/

theorem connectFailed_disconnected {c : Conn S} (hs : c.state = .disconnected) (t : TaskId) :
    connectFailed cfg c t = (connectFinally c t, .finish (.raised (c.invalid .failed))) := by
  unfold connectFailed
  rw [transitionState_invalid (by rw [hs]; decide)]

theorem connectSending_disconnected (cfg : ExchangeConfig U) {c : Conn S}
    (hs : c.state = .disconnected) (t : TaskId) :
    ∀ {i : S.Inst} {r : SendStep S.Coro S.Payload}, r.sends = false →
      ∃ c' m, connectSending cfg c t (i, r) = (c', .finish (.raised (.invalidTransitionError m)))
  | i, .returned, _ => by
    have hc : connectSubscribed cfg { c with inst := i } t = connectFailed cfg { c with inst := i } t := by
      unfold connectSubscribed
      rw [transitionState_invalid (by rw [show ({ c with inst := i } : Conn S).state = _ from hs]; decide)]
    exact ⟨_, _, hc.trans (connectFailed_disconnected (c := { c with inst := i }) hs t)⟩
  | i, .raised _, _ => ⟨_, _, connectFailed_disconnected (c := { c with inst := i }) hs t⟩
  | _, .send _ _ _, h => by cases h

/-- An attempt that completes in `DISCONNECTED` ends with `InvalidTransitionError`. -/
theorem completes_disconnected (cfg : ExchangeConfig U) (isDone : TaskId → Bool) {c : Conn S}
    {pc : ConnectPc S} {w : Wake S} (hs : c.state = .disconnected) (h : pc.completes c w = true)
    (t : TaskId) :
    ∃ c' m, resumeConnect cfg isDone c t pc w =
      some (c', .finish (.raised (.invalidTransitionError m))) := by
  cases pc with
  | dialing =>
    cases w with
    | done =>
      obtain ⟨c', m, he⟩ := connectSending_disconnected cfg
        (c := { c with websocket := some c.opened, opened := c.opened + 1 }) hs t
        (i := (S.sendSubscriptionMessage c.inst (some c.opened)).1)
        (r := (S.sendSubscriptionMessage c.inst (some c.opened)).2) (by simpa [ConnectPc.completes] using h)
      exact ⟨c', m, congrArg some he⟩
    | raised e => exact ⟨_, _, congrArg some (connectFailed_disconnected hs t)⟩
    | _ => cases h
  | sending v p q =>
    cases w with
    | done =>
      obtain ⟨c', m, he⟩ := connectSending_disconnected cfg
        (c := { c with sent := c.sent ++ [(v, p)] }) hs t
        (i := (S.resumeSend c.inst c.websocket q none).1)
        (r := (S.resumeSend c.inst c.websocket q none).2) (by simpa [ConnectPc.completes] using h)
      exact ⟨c', m, congrArg some he⟩
    | raised e =>
      obtain ⟨c', m, he⟩ := connectSending_disconnected cfg (c := c) hs t
        (i := (S.resumeSend c.inst c.websocket q (some e)).1)
        (r := (S.resumeSend c.inst c.websocket q (some e)).2) (by simpa [ConnectPc.completes] using h)
      exact ⟨c', m, congrArg some he⟩
    | _ => cases h
  | _ => cases w <;> cases h

/-- A stream that wakes in `CONNECTING` ends with `InvalidTransitionError`. -/
theorem advance_woken_connecting {isDone : TaskId → Bool} {c : Conn S} {n : Nat}
    (hs : c.state = .connecting) (t : TaskId) :
    advance cfg isDone c t (.backoff n) .done =
      some (c, .finish (.raised (c.invalid .disconnected))) := by
  simp only [advance, reconnect, transitionState_invalid (s := .disconnected)
    (show c.state.isValidTransition .disconnected = false by rw [hs]; decide)]

theorem afterConnect_invalid {isDone : TaskId → Bool} {t : TaskId} {k : Caller} {c : Conn S}
    {m : String} (hk : k ≠ .stream) :
    afterConnect cfg isDone t k (c, .finish (.raised (.invalidTransitionError m))) =
      (c, .finish (.raised (.invalidTransitionError m))) := by
  cases k with
  | stream => exact absurd rfl hk
  | _ => rfl

theorem Kind.not_mayEnd_invalid {κ : Kind} (hκ : κ ≠ .own) (m : String) :
    ¬κ.MayEnd (.raised (.invalidTransitionError m)) := by
  cases κ with
  | connect =>
    rintro (h | ⟨_, h⟩) <;> cases h
  | disconnect => exact nofun
  | stream =>
    rintro ⟨_, h⟩
    cases h
  | own => exact absurd rfl hκ

/-! ## Exactly when operations end as documented -/

/-- The invariant of the system. -/
structure Sys.Steady (s : Sys S) : Prop where
  occupied : Occupied s.point s.conn
  doneIdle : s.DoneIdle
  cancelling : ∀ t, (s.tasks t).cancelling = false
  last : ∀ t, (s.tasks t).last ≠ some .cancelled
  outcome : ∀ t, (s.tasks t).outcome ≠ some .cancelled

/-- Nobody gets a `CancelledError`. -/
theorem Sys.Steady.calm {s s' : Sys S} {l : Label S} (h : s.Steady)
    (hs : step cfg s l = some s') : s.Calm l := by
  cases step_move hs with
  | @resume t pc w r hc ha hr =>
    rintro rfl
    unfold Sys.admits at ha
    cases hp : pc.awaited with
    | none =>
      rw [hp] at ha
      simp [h.cancelling t] at ha
    | some o =>
      rw [hp] at ha
      simp only [h.cancelling t, Bool.or_false, beq_iff_eq] at ha
      exact h.outcome o ha
  | _ => trivial

/-- A segment that nobody cancels keeps all tasks as they are. -/
theorem Sys.Steady.settle {s : Sys S} {t : TaskId} {k : Task S} {P : Point S}
    {r : Conn S × Act S} (h : s.Steady) (hidle : (s.settle t k r).DoneIdle)
    (hocc : Occupied (s.settle t k r).point (s.settle t k r).conn)
    (hp : Path cfg s.isDone t (P, s.conn) (r.2.point, r.1)) (hP : P.calm)
    (hc : k.cancelling = false) (hl : k.last = (s.tasks t).last)
    (ho : k.outcome = (s.tasks t).outcome) : (s.settle t k r).Steady := by
  refine ⟨hocc, hidle, fun u => ?_, fun u => ?_, fun u => ?_⟩
  all_goals by_cases hut : u = t
  · subst hut
    rw [Sys.settle_cancelling, hc]
  · rw [Sys.settle_tasks_ne s hut]
    exact h.cancelling u
  · subst hut
    rcases s.settle_last u k r with he | ⟨o, hro, he⟩
    · rw [he, hl]
      exact h.last u
    · have hcalm := hp.calm hP
      simp only [hro] at hcalm
      rw [he]
      rintro ho
      cases ho
      exact hcalm rfl
  · rw [Sys.settle_tasks_ne s hut]
    exact h.last u
  · subst hut
    rw [Sys.settle_outcome, ho]
    exact h.outcome u
  · rw [Sys.settle_tasks_ne s hut]
    exact h.outcome u

theorem step_steady {s s' : Sys S} {l : Label S} (h : s.Steady) (hl : l.Uncancelled)
    (hs : step cfg s l = some s') : s'.Steady := by
  have hcalm := h.calm hs
  have hocc := (keeps_occupied cfg).step hcalm h.occupied hs
  have hidle := step_doneIdle h.doneIdle hs
  cases step_move hs with
  | @call t op => exact h.settle hidle hocc (enter_path _ op) trivial (h.cancelling t) rfl rfl
  | @next t ms => exact h.settle hidle hocc (yieldMessages_path _ ms) trivial (h.cancelling t) rfl rfl
  | resume _ _ hr => exact h.settle hidle hocc (advance_path hr) hcalm rfl rfl rfl
  | cancel => exact hl.elim
  | @exit t o _ _ hm =>
    refine ⟨hocc, hidle, fun u => ?_, fun u => ?_, fun u => ?_⟩
    all_goals by_cases hut : u = t
    · subst hut
      rw [Sys.setTask_self]
      exact h.cancelling u
    · rw [Sys.setTask_ne s hut]
      exact h.cancelling u
    · subst hut
      rw [Sys.setTask_self]
      exact h.last u
    · rw [Sys.setTask_ne s hut]
      exact h.last u
    · subst hut
      rw [Sys.setTask_self]
      rintro ho
      cases ho
      simp only [Task.mayExit, h.cancelling u, Bool.false_or, beq_iff_eq] at hm
      exact h.last u hm
    · rw [Sys.setTask_ne s hut]
      exact h.outcome u

theorem steady_init (inst : S.Inst) : (Sys.init S inst).Steady where
  occupied := ⟨disciplined_init inst, nofun, nofun, fun _ => trivial⟩
  doneIdle := doneIdle_init inst
  cancelling _ := rfl
  last _ h := by cases h
  outcome _ h := by cases h

/-- **A step ends an operation as documented iff it is undisturbed.** -/
theorem step_endsProperly_iff {s s' : Sys S} {l : Label S} (h : s.Steady)
    (hs : step cfg s l = some s') : s.EndsProperly cfg l ↔ s.Undisturbed l := by
  have hcalm := h.calm hs
  cases step_move hs with
  | @call t op _ hc =>
    refine iff_of_true (fun r hr => ?_) trivial
    have hocc := (keeps_occupied cfg).call hcalm (Sys.point_idle.2 hc) h.occupied
    have hpath := @enter_path U S cfg s.isDone t s.conn op
    have hend := hpath.proper hocc (κ := op.kind) rfl
    rw [hr] at hend
    exact hend
  | @next t ms _ hc hm =>
    refine iff_of_true (fun ms' r hm' hr => ?_) trivial
    rw [hm] at hm'
    cases hm'
    have hocc := (keeps_occupied cfg).next hcalm (Sys.point_idle.2 hc) hm h.occupied
    have hpath := @yieldMessages_path U S cfg s.isDone t s.conn ms
    have hend := hpath.proper hocc (κ := .stream) rfl
    rw [hr] at hend
    exact hend
  | @resume t pc w r hc _ hr =>
    constructor
    · intro hend
      refine ⟨fun n hn hw hst => ?_, fun k q hq hk hcomp hst => ?_⟩
      · rw [hc] at hn
        cases hn
        subst hw
        exact Kind.not_mayEnd_invalid (κ := .stream) nofun _
          (hend _ _ _ hc (advance_woken_connecting hst t))
      · rw [hc] at hq
        cases hq
        obtain ⟨c', m, he⟩ := completes_disconnected cfg s.isDone hst hcomp t
        have ha : advance cfg s.isDone s.conn t (.connect k q) w =
            some (c', .finish (.raised (.invalidTransitionError m))) := by
          simp only [advance, he, Option.map_some, afterConnect_invalid hk]
        refine Kind.not_mayEnd_invalid (κ := k.kind) ?_ m (hend _ _ _ hc ha)
        cases k <;> decide
    · rintro ⟨hback, hdone⟩ pc' c o hc' hr'
      rw [hc] at hc'
      cases hc'
      rw [hr] at hr'
      cases hr'
      have hocc := (keeps_occupied cfg).resume hcalm (Sys.point_suspended.2 hc) h.occupied
      exact (advance_path hr).proper hocc (κ := pc.kind)
        ⟨rfl, fun n hn hw => hback n (hn ▸ hc) hw, fun k q hq => hdone k q (hq ▸ hc)⟩
  | cancel | exit => exact iff_of_true trivial trivial

/-- **When operations end as documented.**  In every run without cancellation of any number of
tasks that connect, disconnect, stream, or call coroutines of the subclass, whatever the network
answers: every operation that ends does so as documented iff every step is undisturbed. -/
theorem endsProperly_iff {inst : S.Inst} {ls : List (Label S)} {s : Sys S}
    (hl : ∀ l ∈ ls, l.Uncancelled) (hr : run (step cfg) (Sys.init S inst) ls = some s) :
    Guarded (step cfg) (fun s l => s.EndsProperly cfg l) (Sys.init S inst) ls ↔
      Guarded (step cfg) (fun s l => s.Undisturbed l) (Sys.init S inst) ls :=
  guarded_iff (I := Sys.Steady) (H := fun _ l => l.Uncancelled)
    (fun _ _ _ h hl hs => step_steady h hl hs) (fun _ _ _ h _ hs => step_endsProperly_iff h hs)
    (steady_init inst) (.of_mem hl) hr

/-! ## A stream wakes while another task connects -/

/-- The dial of a stream fails; while it sleeps another task dials. -/
def wokenStream : List (Label concurrencyTestConnector) :=
  [.call 0 .stream, .resume 0 (.raised .osError), .call 1 .connect, .resume 0 .done]

/-- **A stream that wakes while another task dials ends with `InvalidTransitionError`.** -/
theorem wokenStream_invalid : ∃ s, (∀ l ∈ wokenStream, l.Uncancelled) ∧
    run (step testConfig) (Sys.init concurrencyTestConnector ()) wokenStream = some s ∧
    ¬Guarded (step testConfig) (fun s l => s.EndsProperly testConfig l)
      (Sys.init concurrencyTestConnector ()) wokenStream ∧
    (s.tasks 0).last = some (.raised (.invalidTransitionError
      (ConnectionState.invalidTransitionMessage .connecting .disconnected))) := by
  refine ⟨_, by simp [wokenStream, Label.Uncancelled], rfl, fun hg => ?_, rfl⟩
  have hend := (((hg.2 _ rfl).2 _ rfl).2 _ rfl).1
  exact Kind.not_mayEnd_invalid (κ := .stream) nofun _ (hend _ _ _ rfl rfl)

/-- `endsProperly_iff` of that run. -/
theorem endsProperly_iff_wokenStream :
    Guarded (step testConfig) (fun s l => s.EndsProperly testConfig l)
        (Sys.init concurrencyTestConnector ()) wokenStream ↔
      Guarded (step testConfig) (fun s l => s.Undisturbed l)
        (Sys.init concurrencyTestConnector ()) wokenStream := by
  have hr : run (step testConfig) (Sys.init concurrencyTestConnector ()) wokenStream =
    some ((run (step testConfig) (Sys.init concurrencyTestConnector ()) wokenStream).get rfl) :=
    (Option.some_get _).symm
  exact endsProperly_iff (by simp [wokenStream, Label.Uncancelled]) hr

end FlinkPractices.Connector
