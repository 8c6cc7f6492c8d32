import FlinkPractices.Connector.Invariants

/-!
# Is `disconnect()` final for a running stream?

One task `s` iterates `stream_market_data()`, another task `d` calls `disconnect()`
(`Label.Race`).  `Sys.Final` is what one would expect once `disconnect()` has returned: whatever
happens next, short of a new `connect()` or `stream_market_data()`, nothing dials and the state
does not become `CONNECTED`.

The stream keeps no note of having been disconnected: it takes the closed socket, or the state
`DISCONNECTED`, for a lost connection and reconnects.  Principal result: `disconnect_final_iff` —
a `disconnect()` that returns is final iff the stream was already over, that is neither suspended
in a call nor at a `yield`, wherever else it may have been.

## Proof

* `Point.Streaming`, `Point.Disconnecting` — the assertions at the places of the two tasks;
  `Racing` puts them together with what the connector is like, and `keeps_racing` is the invariant
* `DisconnectEffect` — what `disconnect()` may do to the connector under the stream's feet, which
  leaves the stream's own assertion standing (`Point.Streaming.congr`)
* `final_of_streamOver` — with the stream over, only a further `disconnect()` can come
* `Sys.CanDial` — some continuation dials; one lemma for each suspension point of the stream
  (`canDial_recv`, `canDial_backoff`, `canDial_generator`, …), collected in
  `canDial_of_not_streamOver`

`disconnect_not_final` is such a continuation, run to the end.
-/

set_option autoImplicit false

namespace FlinkPractices.Connector

open Lib Function

variable {U : UpperTable} {S : Subclass} (cfg : ExchangeConfig U)

/-! ## The race -/

/-- What the two tasks do: `s` iterates streams, `d` calls `disconnect()`; nobody is cancelled. -/
def Label.Race (s d : TaskId) : Label S → Prop
  | .call t .stream => t = s
  | .call t .disconnect => t = d
  | .call _ _ => False
  | .next t => t = s
  | .resume t _ => t = s ∨ t = d
  | .cancel _ _ => False
  | .exit _ _ => True

/-- The same, without a new stream. -/
def Label.Continues (s d : TaskId) : Label S → Prop
  | .call t .disconnect => t = d
  | .call _ _ => False
  | .next t => t = s
  | .resume t _ => t = s ∨ t = d
  | .cancel _ _ => False
  | .exit _ _ => True

/-- However the tasks go on, nothing dials and the state does not become `CONNECTED`. -/
def Sys.Final (y : Sys S) (s d : TaskId) : Prop :=
  ∀ ls y', (∀ l ∈ ls, Label.Continues s d l) → run (step cfg) y ls = some y' →
    y'.conn.dials = y.conn.dials ∧ y'.conn.state ≠ .connected

/-- The stream is neither suspended in a call nor at a `yield`. -/
def Sys.StreamOver (y : Sys S) (s : TaskId) : Prop :=
  (y.tasks s).call = none ∧ (y.tasks s).generator = none

/-! ## Where the two tasks can be -/

/-- What holds at a suspension point of the stream. -/
def Pc.Streaming : Pc S → Conn S → Prop
  | .connect .task _, _ => False
  | .connect _ (.awaitTask _), _ => False
  | .connect _ (.awaitTaskLocked _), _ => False
  | .connect _ .lock, _ => True
  | .connect _ .dialing, c => c.state = .connecting
  | .connect _ (.sending _ _ _), c => c.state = .connecting
  | .connect _ (.closing _), c => c.state = .failed
  | .recv _, c => c.reconnectAttempts = 0
  | .lostClosing _, c => c.reconnectAttempts = 0 ∧ c.state ≠ .connected
  | .backoff _, _ => True
  | _, _ => False

/-- What holds at a place of the stream.  The attempts are counted from 0 whenever a connection
that once stood is lost. -/
def Point.Streaming : Point S → Conn S → Prop
  | .idle, _ => True
  | .enter .stream, _ => True
  | .generator _, _ => True
  | .suspended pc, c => pc.Streaming c
  | .resumed pc _, c => pc.Streaming c
  | .connect k, _ => k ≠ .task
  | .acquire k, _ => k ≠ .task
  | .locked k, _ => k ≠ .task
  | .attempt k, _ => k ≠ .task
  | .sent k _, c => k ≠ .task ∧ c.state = .connecting
  | .failed k, c => k ≠ .task ∧ c.state ≠ .disconnected
  | .ended k .returned, c => k ≠ .task ∧ c.reconnectAttempts = 0
  | .ended k (.raised _), c => k ≠ .task ∧ c.websocket = none
  | .ended k .cancelled, _ => k ≠ .task
  | .loop, _ => True
  | .receive, c => c.reconnectAttempts = 0
  | .lost, c => c.reconnectAttempts = 0 ∨ c.websocket = none
  | .lostCleanup, c => (c.reconnectAttempts = 0 ∨ c.websocket = none) ∧ c.state ≠ .connected
  | .retry, c => c.state ≠ .connected
  | .finished _, _ => True
  | .yielded _ _, _ => True
  | _, _ => False

/-- The places of the disconnecting task. -/
def Point.Disconnecting : Point S → Prop
  | .idle => True
  | .enter .disconnect => True
  | .suspended .disconnectLock => True
  | .suspended (.disconnectClosing _) => True
  | .resumed .disconnectLock _ => True
  | .resumed (.disconnectClosing _) _ => True
  | .disconnect => True
  | .disconnectLocked => True
  | .disconnectFinish => True
  | .finished _ => True
  | _ => False

/-- A standing connection has reset the attempts. -/
def Conn.Reset (c : Conn S) : Prop := c.state = .connected → c.reconnectAttempts = 0

variable {cfg}

theorem Pc.Streaming.caller {k : Caller} {pc : ConnectPc S} {c : Conn S}
    (h : (Pc.connect k pc).Streaming c) : k ≠ .task := by
  rintro rfl; exact h

/-- The stream's own edges. -/
theorem Edge.streaming {isDone : TaskId → Bool} {t : TaskId} {P P' : Point S} {c c' : Conn S}
    (h : Edge cfg isDone t P c P' c') (hin : P.attempting = false → inFlight isDone c = none)
    (hP : P.Streaming c) (hr : c.Reset) : P'.Streaming c' ∧ c'.Reset := by
  cases h
  case connectAwait ho => rw [hin rfl] at ho; cases ho
  case lockedAwait ho => rw [hin rfl] at ho; cases ho
  case taskReturned k o | taskRaised k o _ | taskCancelled k o | lockedReturned k o |
      lockedRaised k o _ | lockedCancelled k o => cases k <;> exact hP.elim
  case connectAlready hs => exact ⟨⟨hP, hr hs⟩, hr⟩
  case lockedAlready hs => exact ⟨⟨hP, hr hs⟩, hr⟩
  case queue k _ => cases k <;> first | exact absurd rfl hP | exact ⟨trivial, hr⟩
  case lockWoken | lockCancelled => exact ⟨Pc.Streaming.caller hP, hr⟩
  case dial k _ => cases k <;> first | exact absurd rfl hP | exact ⟨rfl, fun hs => by cases hs⟩
  case dialInvalid hv => exact ⟨⟨hP, fun hs => by rw [hs] at hv; cases hv⟩, hr⟩
  case dialReturned k i r _ => cases k <;> first | exact hP.elim | exact ⟨⟨nofun, hP⟩, hr⟩
  case dialRaised k e =>
    cases k <;> first
      | exact hP.elim
      | exact ⟨⟨nofun, by rw [show c.state = .connecting from hP]; decide⟩, hr⟩
  case dialCancelled | sendCancelled | closeCancelled => exact ⟨Pc.Streaming.caller hP, hr⟩
  case send k w p q => cases k <;> first | exact absurd rfl hP.1 | exact ⟨hP.2, hr⟩
  case sendReturned k w p q i r _ => cases k <;> first | exact hP.elim | exact ⟨⟨nofun, hP⟩, hr⟩
  case sendRaised k w p q e i r _ => cases k <;> first | exact hP.elim | exact ⟨⟨nofun, hP⟩, hr⟩
  case connected => exact ⟨⟨hP.1, rfl⟩, fun _ => rfl⟩
  case connectedInvalid | subscribeRaised =>
    exact ⟨⟨hP.1, by rw [hP.2]; decide⟩, hr⟩
  case failClose k w _ _ =>
    cases k <;> first | exact absurd rfl hP.1 | exact ⟨rfl, fun hs => by cases hs⟩
  case failNone hw => exact ⟨⟨hP.1, hw⟩, fun hs => by cases hs⟩
  case failInvalid hv =>
    exact absurd ((ConnectionState.isValidTransition_failed _).2 hP.2) (by rw [hv]; decide)
  case closeReturned | closeRaised =>
    exact ⟨⟨Pc.Streaming.caller hP, rfl⟩, hr⟩
  case endedTask r => cases r <;> first | exact absurd rfl hP.1 | exact absurd rfl hP
  case endedStreamReturned => exact ⟨hP.2, hr⟩
  case endedStreamRaised => exact ⟨.inr hP.2, hr⟩
  case endedReconnectFailed => exact ⟨nofun, fun hs => by cases hs⟩
  case loopConnected hs => exact ⟨hr hs, hr⟩
  case loopConnect => exact ⟨nofun, hr⟩
  case recv => exact ⟨hP, hr⟩
  case recvNone => exact ⟨.inl hP, hr⟩
  case frameSkipped | frameInvalid | convertInvalid | converted => exact ⟨trivial, hr⟩
  case frameRaised | convertRaised | recvRaised => exact ⟨.inl hP, hr⟩
  case lostConnected => exact ⟨⟨hP, nofun⟩, fun hs => by cases hs⟩
  case lostFailed => exact ⟨⟨hP, nofun⟩, fun hs => by cases hs⟩
  case lostOther hs _ => exact ⟨⟨hP, hs⟩, hr⟩
  case lostClose w hw =>
    refine ⟨⟨hP.1.resolve_right (by rw [hw]; nofun), hP.2⟩, hr⟩
  case lostNone => exact ⟨hP.2, hr⟩
  case lostClosed | lostCloseRaised => exact ⟨hP.2, hr⟩
  case backoff => exact ⟨trivial, fun hs => absurd hs hP⟩
  case giveUpFailed => exact ⟨trivial, fun hs => by cases hs⟩
  case woken => exact ⟨nofun, fun hs => by cases hs⟩
  case enterConnect | enterDisconnect | ownStart => exact hP.elim
  case disconnectAlready | disconnectAcquire | disconnectQueue | disconnectWoken |
      disconnectLockCancelled | disconnectedAlready | disconnectClose | disconnectNone |
      disconnectClosed | disconnectCloseRaised | disconnectCloseCancelled | disconnected |
      disconnectInvalid | ownSend | ownReturned | ownRaised | ownSent | ownSendRaised |
      ownCancelled => exact hP.elim
  case acquire | connectAcquire | lockedAttempt => exact ⟨hP, hr⟩
  all_goals exact ⟨trivial, hr⟩

/-- What the other task does to the connector. -/
structure DisconnectEffect (P : Point S) (c c' : Conn S) : Prop where
  attempts : c'.reconnectAttempts = c.reconnectAttempts
  dials : c'.dials = c.dials
  state : c'.state = c.state ∨ (c'.state = .disconnected ∧ P.lockStatus = .holding)
  websocket : c'.websocket = c.websocket ∨ c'.websocket = none

/-- The edges of `disconnect()`. -/
theorem Edge.disconnecting {isDone : TaskId → Bool} {t : TaskId} {P P' : Point S} {c c' : Conn S}
    (h : Edge cfg isDone t P c P' c') (hP : P.Disconnecting) :
    P'.Disconnecting ∧ DisconnectEffect P c c' := by
  cases h
  case enterDisconnect | disconnectAlready | disconnectedAlready | disconnectAcquire |
      disconnectQueue | disconnectWoken | disconnectLockCancelled | disconnectClose |
      disconnectNone | disconnectCloseCancelled | disconnectInvalid =>
    exact ⟨trivial, rfl, rfl, .inl rfl, .inl rfl⟩
  case disconnectClosed | disconnectCloseRaised => exact ⟨trivial, rfl, rfl, .inl rfl, .inr rfl⟩
  case disconnected => exact ⟨trivial, rfl, rfl, .inr ⟨rfl, rfl⟩, .inl rfl⟩
  all_goals exact hP.elim

/-- `disconnect()` returns in the state `DISCONNECTED`. -/
theorem Edge.disconnect_returns {isDone : TaskId → Bool} {t : TaskId} {P : Point S}
    {c c' : Conn S} (h : Edge cfg isDone t P c (.finished .returned) c')
    (hP : P.Disconnecting) : c'.state = .disconnected := by
  cases h
  case disconnectAlready hs => exact hs
  case disconnectedAlready hs => exact hs
  case disconnected => rfl
  all_goals exact hP.elim

/-- What the other task does leaves the stream's assertion alone. -/
theorem Point.Streaming.congr {P Q : Point S} {c c' : Conn S} (h : P.Streaming c)
    (he : DisconnectEffect Q c c') (hm : Q.lockStatus = .holding → P.lockStatus ≠ .holding) :
    P.Streaming c' := by
  have st : P.lockStatus = .holding → c'.state = c.state := fun hP =>
    he.state.resolve_right fun hs => hm hs.2 hP
  have ne : c.state ≠ .connected → c'.state ≠ .connected := fun hs => by
    rcases he.state with h₁ | ⟨h₁, _⟩ <;> rw [h₁]
    · exact hs
    · decide
  have ws : c.websocket = none → c'.websocket = none := fun hw => by
    rcases he.websocket with h₁ | h₁
    · rw [h₁]; exact hw
    · exact h₁
  have pcs : ∀ {pc : Pc S}, (pc.lockStatus = .holding → c'.state = c.state) →
      pc.Streaming c → pc.Streaming c' := fun {pc} hst hpc => by
    cases pc with
    | connect k pc =>
      cases k with
      | task => exact hpc
      | _ =>
        cases pc with
        | dialing | sending | closing => exact (hst rfl).trans hpc
        | _ => exact hpc
    | recv => exact he.attempts.trans hpc
    | lostClosing => exact ⟨he.attempts.trans hpc.1, ne hpc.2⟩
    | _ => exact hpc
  cases P with
  | suspended pc => exact pcs st h
  | resumed pc w => exact pcs st h
  | sent k r => exact ⟨h.1, (st rfl).trans h.2⟩
  | failed k => exact ⟨h.1, by rw [st rfl]; exact h.2⟩
  | ended k r =>
    cases r with
    | returned => exact ⟨h.1, he.attempts.trans h.2⟩
    | raised e => exact ⟨h.1, ws h.2⟩
    | cancelled => exact h
  | receive => exact he.attempts.trans h
  | lost => exact h.imp he.attempts.trans ws
  | lostCleanup => exact ⟨h.1.imp he.attempts.trans ws, ne h.2⟩
  | retry => exact ne h
  | enter op => cases op <;> exact h
  | _ => exact h

/-! ## The invariant of the race -/

/-- Only `s` and `d` are in calls, each where it belongs. -/
structure Racing (s d : TaskId) (p : TaskId → Point S) (c : Conn S) : Prop where
  disciplined : Disciplined p c
  stream : (p s).Streaming c
  disconnect : (p d).Disconnecting
  others : ∀ u, u ≠ s → u ≠ d → p u = .idle
  reset : c.Reset

theorem Point.Disconnecting.attempting {P : Point S} (h : P.Disconnecting) :
    P.attempting = false := by
  cases P with
  | suspended pc => cases pc <;> first | rfl | exact h.elim
  | resumed pc w => cases pc <;> first | rfl | exact h.elim
  | _ => first | rfl | exact h.elim

/-- With the stream outside the `try` of `connect()`, nobody is inside. -/
theorem Racing.connectingTask {s d : TaskId} {p : TaskId → Point S} {c : Conn S}
    (h : Racing s d p c) (hs : (p s).attempting = false) : c.connectingTask = none := by
  refine Option.eq_none_iff_forall_ne_some.2 fun o ho => ?_
  have hoa := (h.disciplined.connecting o).1 ho
  by_cases hos : o = s
  · rw [hos, hs] at hoa; cases hoa
  · by_cases hod : o = d
    · rw [hod, h.disconnect.attempting] at hoa; cases hoa
    · rw [h.others o hos hod] at hoa; cases hoa

theorem inFlight_none {isDone : TaskId → Bool} {c : Conn S} (h : c.connectingTask = none) :
    inFlight isDone c = none := by
  simp only [inFlight, h]

theorem Edge.racing {s d : TaskId} (hsd : s ≠ d) {isDone : TaskId → Bool} {t : TaskId}
    {p : TaskId → Point S} {P P' : Point S} {c c' : Conn S} (h : Edge cfg isDone t P c P' c')
    (hr : Racing s d (update p t P) c) : Racing s d (update p t P') c' := by
  have hd := h.disciplined hr.disciplined
  by_cases hts : t = s
  · subst hts
    have hP := hr.stream
    have hD := hr.disconnect
    rw [update_self] at hP
    rw [update_of_ne hsd.symm] at hD
    obtain ⟨h₁, h₂⟩ := h.streaming
      (fun ha => inFlight_none (hr.connectingTask (by rw [update_self]; exact ha))) hP hr.reset
    refine ⟨hd, by rw [update_self]; exact h₁, by rw [update_of_ne hsd.symm]; exact hD,
      fun u hus hud => ?_, h₂⟩
    have := hr.others u hus hud
    rwa [update_of_ne hus] at this ⊢
  · by_cases htd : t = d
    · subst htd
      have hP := hr.disconnect
      have hS := hr.stream
      rw [update_self] at hP
      rw [update_of_ne hsd] at hS
      obtain ⟨h₁, he⟩ := h.disconnecting hP
      refine ⟨hd, ?_, by rw [update_self]; exact h₁, fun u hus hud => ?_, fun hs => ?_⟩
      · rw [update_of_ne hsd]
        refine hS.congr he fun hh hh' => hsd ?_
        exact hr.disciplined.mutex (by rw [update_of_ne hsd]; exact hh')
          (by rw [update_self]; exact hh)
      · have := hr.others u hus hud
        rwa [update_of_ne hud] at this ⊢
      · rcases he.state with h' | ⟨h', _⟩
        · rw [he.attempts]; exact hr.reset (h'.symm.trans hs)
        · rw [h'] at hs; cases hs
    · have := hr.others t hts htd
      rw [update_self] at this
      exact absurd this (by rintro rfl; cases h)

theorem Racing.update_of {s d : TaskId} {p : TaskId → Point S} {c : Conn S} {t : TaskId}
    {P : Point S} (h : Racing s d p c) (hd : Disciplined (update p t P) c)
    (hs : t = s → P.Streaming c) (hD : t = d → P.Disconnecting)
    (ho : t ≠ s → t ≠ d → P = .idle) : Racing s d (update p t P) c := by
  have at_ : ∀ u, u = t ∨ (update p t P) u = p u := fun u => by
    by_cases hut : u = t
    · exact .inl hut
    · exact .inr (update_of_ne hut _ _)
  refine ⟨hd, ?_, ?_, fun u hus hud => ?_, h.reset⟩
  · rcases at_ s with rfl | he
    · rw [update_self]; exact hs rfl
    · rw [he]; exact h.stream
  · rcases at_ d with rfl | he
    · rw [update_self]; exact hD rfl
    · rw [he]; exact h.disconnect
  · rcases at_ u with rfl | he
    · rw [update_self]; exact ho hus hud
    · rw [he]; exact h.others u hus hud

theorem keeps_racing (cfg : ExchangeConfig U) {s d : TaskId} (hsd : s ≠ d) :
    Keeps cfg (fun _ l => l.Race s d) (Racing (S := S) s d) where
  edge he hr := he.racing hsd hr
  call {x t op} hg hi hr := by
    refine hr.update_of ((keeps_disciplined cfg).call trivial hi hr.disciplined) ?_ ?_ ?_
    · rintro rfl
      cases op with
      | stream => trivial
      | disconnect => exact absurd hg hsd
      | _ => exact hg.elim
    · rintro rfl
      cases op with
      | stream => exact absurd hg.symm hsd
      | disconnect => trivial
      | _ => exact hg.elim
    · intro hts htd
      cases op with
      | stream => exact absurd hg hts
      | disconnect => exact absurd hg htd
      | _ => exact hg.elim
  next {x t ms} hg hi hm hr := by
    obtain rfl : t = s := hg
    exact hr.update_of ((keeps_disciplined cfg).next trivial hi hm hr.disciplined)
      (fun _ => trivial) (fun h => absurd h hsd) (fun h => absurd rfl h)
  resume {x t pc w} hg hp hr := by
    refine hr.update_of ((keeps_disciplined cfg).resume trivial hp hr.disciplined) ?_ ?_ ?_
    · rintro rfl
      have := hr.stream
      rwa [hp] at this
    · rintro rfl
      have := hr.disconnect
      rw [hp] at this
      cases pc <;> exact this
    · intro hts htd
      rcases hg with h | h
      · exact absurd h hts
      · exact absurd h htd
  rest {p t c P} hr := by
    have hrest := hr.update_of (t := t) (P := P.rest)
      (by simpa using (keeps_disciplined cfg).rest hr.disciplined)
      (by
        rintro rfl
        have := hr.stream
        rw [update_self] at this
        cases P <;> exact this)
      (by
        rintro rfl
        have := hr.disconnect
        rw [update_self] at this
        cases P <;> first | exact this | exact this.elim)
      (fun hts htd => by
        have := hr.others t hts htd
        rw [update_self] at this
        rw [this]; rfl)
    simpa using hrest

theorem racing_init (inst : S.Inst) (s d : TaskId) :
    Racing s d (Sys.init S inst).point (Sys.init S inst).conn where
  disciplined := disciplined_init inst
  stream := trivial
  disconnect := trivial
  others _ _ _ := rfl
  reset h := by cases h

/-! ## After `disconnect()` has returned -/

/-- `disconnect()` has just returned to `d`. -/
structure Sys.Disconnected (y : Sys S) (s d : TaskId) : Prop where
  racing : Racing s d y.point y.conn
  doneIdle : y.DoneIdle
  state : y.conn.state = .disconnected
  call : (y.tasks d).call = none

theorem Path.disconnecting {isDone : TaskId → Bool} {t : TaskId} {x y : Point S × Conn S}
    (h : Path cfg isDone t x y) (hx : x.1.Disconnecting) : y.1.Disconnecting := by
  induction h with
  | refl => exact hx
  | tail _ he ih => exact (he.disconnecting ih).1

theorem Path.disconnect_returns {isDone : TaskId → Bool} {t : TaskId} {P : Point S} {c : Conn S}
    {y : Point S × Conn S} (h : Path cfg isDone t (P, c) y) (hP : P.Disconnecting)
    (hne : P ≠ .finished .returned) (hy : y.1 = .finished .returned) :
    y.2.state = .disconnected := by
  rcases Relation.ReflTransGen.cases_tail h with rfl | ⟨z, hz, he⟩
  · exact absurd hy hne
  · obtain ⟨yp, yc⟩ := y
    cases hy
    exact he.disconnect_returns (Path.disconnecting hz hP)

theorem step_disconnected {s d : TaskId} (hsd : s ≠ d) {x y : Sys S} {l : Label S}
    (hr : Racing s d x.point x.conn) (hd : x.DoneIdle)
    (hl : l = .call d .disconnect ∨ ∃ w, l = .resume d w) (hs : step cfg x l = some y)
    (hc : (y.tasks d).call = none) (hlast : (y.tasks d).last = some .returned) :
    y.Disconnected s d := by
  have hrace : l.Race s d := by
    rcases hl with rfl | ⟨w, rfl⟩
    · exact rfl
    · exact .inr rfl
  refine ⟨(keeps_racing cfg hsd).step hrace hr hs, step_doneIdle hd hs, ?_, hc⟩
  -- a segment of `d` that leaves no call has ended it
  have fin : ∀ {P : Point S} {k : Task S} {r : Conn S × Act S}, P.Disconnecting →
      P ≠ .finished .returned → y = x.settle d k r →
      Path cfg x.isDone d (P, x.conn) (r.2.point, r.1) → y.conn.state = .disconnected := by
    rintro P k ⟨c, a⟩ hP hne rfl hp
    cases a with
    | suspend pc => simp [Sys.settle, Sys.setTask] at hc
    | finish o =>
      have ho : o = .returned := by simpa [Sys.settle, Sys.setTask] using hlast
      rw [Sys.settle_conn]
      exact hp.disconnect_returns hP hne (by rw [ho]; rfl)
    | yields m rest => exact (hp.disconnecting hP).elim
  rcases hl with rfl | ⟨w, rfl⟩
  · cases step_move hs with
    | call => exact fin (P := .enter .disconnect) trivial (by simp) rfl (enter_path _ _)
  · cases step_move hs with
    | @resume _ pc _ r hpc _ hr' =>
      have hD := hr.disconnect
      rw [Sys.point_suspended.2 hpc] at hD
      refine fin (P := .resumed pc w) ?_ (by simp) rfl (advance_path hr')
      cases pc <;> exact hD

/-- With the stream over, only a further `disconnect()` can come, and it does nothing. -/
theorem final_of_streamOver {s d : TaskId} {y : Sys S} (hy : y.Disconnected s d)
    (ho : y.StreamOver s) : y.Final cfg s d := by
  intro ls y' hls hrun
  let inv : Sys S → Prop := fun z => z.conn = y.conn ∧ z.StreamOver s ∧ (z.tasks d).call = none
  suffices hstep : ∀ z l z', inv z → l.Continues s d → step cfg z l = some z' → inv z' by
    have hinv : inv y' := run_guarded_invariant hstep ⟨rfl, ho, hy.call⟩ (.of_mem hls) hrun
    rw [hinv.1]; exact ⟨rfl, by rw [hy.state]; decide⟩
  rintro z l z' ⟨hz, hzs, hzd⟩ hl hs
  cases step_move hs with
  | @call t op _ _ =>
    cases op with
    | disconnect =>
      obtain rfl : t = d := hl
      rw [show enter cfg z.isDone z.conn t .disconnect = (z.conn, .finish .returned) by
        simp [enter, disconnect, hz, hy.state]]
      refine ⟨hz, ?_, by simp [Sys.settle, Sys.setTask]⟩
      by_cases hts : s = t
      · subst hts
        exact ⟨by simp [Sys.settle, Sys.setTask], by simpa [Sys.settle, Sys.setTask] using hzs.2⟩
      · unfold Sys.StreamOver
        rw [Sys.settle_tasks_ne z hts]; exact hzs
    | _ => exact hl.elim
  | next _ _ hm =>
    obtain rfl : _ = s := hl
    rw [hzs.2] at hm; cases hm
  | resume hc _ _ =>
    rcases hl with rfl | rfl
    · rw [hzs.1] at hc; cases hc
    · rw [hzd] at hc; cases hc
  | cancel => exact hl.elim
  | @exit t o _ hc _ =>
    refine ⟨hz, ?_, ?_⟩
    · unfold Sys.StreamOver
      by_cases hts : s = t
      · subst hts; rw [Sys.setTask_self]; exact ⟨hc, rfl⟩
      · rw [Sys.setTask_ne z hts]; exact hzs
    · by_cases hdt : d = t
      · subst hdt; rw [Sys.setTask_self]; exact hc
      · rw [Sys.setTask_ne z hdt]; exact hzd

/-! ## A stream that is not over dials again -/

/-- Some continuation dials. -/
def Sys.CanDial (cfg : ExchangeConfig U) (y : Sys S) (s d : TaskId) : Prop :=
  ∃ ls y', (∀ l ∈ ls, Label.Continues s d l) ∧ run (step cfg) y ls = some y' ∧
    y'.conn.dials = y.conn.dials + 1

/-- Nothing keeps a new attempt from dialling. -/
structure Conn.Ready (c : Conn S) : Prop where
  state : c.state = .disconnected
  lock : c.connectLock = AsyncLock.free
  connectingTask : c.connectingTask = none

variable {s d : TaskId} {y : Sys S}

theorem Sys.CanDial.head {y₁ : Sys S} {l : Label S} (hl : l.Continues s d)
    (hs : step cfg y l = some y₁) (hd : y₁.conn.dials = y.conn.dials)
    (h : y₁.CanDial cfg s d) : y.CanDial cfg s d := by
  obtain ⟨ls, y', hls, hr, hy⟩ := h
  refine ⟨l :: ls, y', fun m hm => ?_, by rw [run_cons_of_step hs]; exact hr, by rw [hy, hd]⟩
  rcases List.mem_cons.1 hm with rfl | hm
  · exact hl
  · exact hls m hm

theorem Sys.CanDial.last {y₁ : Sys S} {l : Label S} (hl : l.Continues s d)
    (hs : step cfg y l = some y₁) (hd : y₁.conn.dials = y.conn.dials + 1) :
    y.CanDial cfg s d :=
  ⟨[l], y₁, fun m hm => by rw [List.mem_singleton.1 hm]; exact hl,
    by rw [run_cons_of_step hs]; rfl, hd⟩

theorem connectAttempt_dials {c : Conn S} (h : c.state = .disconnected) (t : TaskId) :
    connectAttempt cfg c t = ({ c with
      connectingTask := some t, state := .connecting, dials := c.dials + 1 },
      .suspend .dialing) := by
  have hv : ({ c with connectingTask := some t } : Conn S).state.isValidTransition .connecting =
      true := by
    rw [show ({ c with connectingTask := some t } : Conn S).state = .disconnected from h]; rfl
  simp only [connectAttempt, transitionState_valid hv]

theorem connectLocked_dials {isDone : TaskId → Bool} {c : Conn S} (hs : c.state = .disconnected)
    (ht : c.connectingTask = none) (t : TaskId) :
    connectLocked cfg isDone c t = ({ c with
      connectingTask := some t, state := .connecting, dials := c.dials + 1 },
      .suspend .dialing) := by
  have hne : ¬c.state = .connected := by rw [hs]; decide
  simp only [connectLocked, if_neg hne, inFlight_none ht, connectAttempt_dials hs]

theorem connect_ready {isDone : TaskId → Bool} {c : Conn S} (h : c.Ready) (t : TaskId) :
    connect cfg isDone c t = ({ c with
      connectLock := ⟨some t, []⟩, connectingTask := some t, state := .connecting,
      dials := c.dials + 1 }, .suspend .dialing) := by
  have hs : ¬c.state = .connected := by rw [h.state]; decide
  simp only [connect, if_neg hs, inFlight_none h.connectingTask, connectAcquire, h.lock,
    AsyncLock.tryAcquire_free]
  exact connectLocked_dials (c := { c with connectLock := ⟨some t, []⟩ }) h.state
    h.connectingTask t

/-- A suspended call of the stream can be resumed with whatever its `await` gives. -/
theorem step_resume {t : TaskId} {pc : Pc S} {w : Wake S} {r : Conn S × Act S}
    (hc : (y.tasks t).call = some pc) (ha : pc.awaited = none) (hw : w ≠ .cancelled)
    (hr : advance cfg y.isDone y.conn t pc w = some r) :
    step cfg y (.resume t w) =
      some (y.settle t { y.tasks t with cancelling := false } r) := by
  have had : y.admits (y.tasks t) pc w = true := by
    unfold Sys.admits
    rw [ha]
    cases w <;> first | rfl | exact absurd rfl hw
  simp only [step, hc, had, if_true, hr]

theorem canDial_backoff {n : Nat} (hc : (y.tasks s).call = some (.backoff n))
    (hr : y.conn.Ready) : y.CanDial cfg s d := by
  have hv : y.conn.state.isValidTransition .disconnected = true := by rw [hr.state]; rfl
  have hready : ({ y.conn with state := .disconnected } : Conn S).Ready :=
    ⟨rfl, hr.lock, hr.connectingTask⟩
  refine .last (l := .resume s .done) (.inl rfl) (step_resume hc rfl nofun rfl) ?_
  rw [Sys.settle_conn]
  simp only [reconnect, transitionState_valid hv, connect_ready hready, afterReconnect]

/-- From the head of the reconnect loop, with no attempt counted yet. -/
theorem canDial_retry {pc : Pc S} {w : Wake S} {c : Conn S} (hc : (y.tasks s).call = some pc)
    (ha : pc.awaited = none) (hw : w ≠ .cancelled)
    (hadv : advance cfg y.isDone y.conn s pc w = some (reconnectLoop cfg c))
    (hr : c.Ready) (h₀ : c.reconnectAttempts = 0) (hd : c.dials = y.conn.dials) :
    y.CanDial cfg s d := by
  have hs : shouldAttemptReconnect cfg c = true := by
    simp only [shouldAttemptReconnect, h₀]
    split
    · rfl
    · exact decide_eq_true (by omega)
  have hloop : ∃ n, reconnectLoop cfg c =
      ({ c with reconnectAttempts := c.reconnectAttempts + 1 }, .suspend (.backoff n)) :=
    ⟨_, by simp only [reconnectLoop, hs, if_true]; rfl⟩
  obtain ⟨n, hn⟩ := hloop
  rw [hn] at hadv
  refine .head (l := .resume s w) (.inl rfl) (step_resume hc ha hw hadv) hd ?_
  exact canDial_backoff (n := n) (by simp [Sys.settle, Sys.setTask])
    ⟨hr.state, hr.lock, hr.connectingTask⟩

theorem canDial_lostClosing {w : Ws} (hc : (y.tasks s).call = some (.lostClosing w))
    (hr : y.conn.Ready) (h₀ : y.conn.reconnectAttempts = 0) : y.CanDial cfg s d :=
  canDial_retry (w := .done) (c := cleanupDone y.conn) hc rfl nofun rfl
    ⟨hr.state, hr.lock, hr.connectingTask⟩ h₀ rfl

/-- The closed socket wakes the stream, which takes it for a lost connection. -/
theorem canDial_recv {w : Ws} (hc : (y.tasks s).call = some (.recv w)) (hr : y.conn.Ready)
    (h₀ : y.conn.reconnectAttempts = 0) : y.CanDial cfg s d := by
  have hadv : advance cfg y.isDone y.conn s (.recv w) (.raised .connectionClosed) =
      some (handleCleanup cfg y.conn) := by
    simp [advance, streamExcept, PyExn.isParsingError, handleConnectionClosed, hr.state]
  unfold handleCleanup at hadv
  rcases cleanup_cases y.conn with ⟨_, he⟩ | ⟨v, _, he⟩ <;> simp only [he] at hadv
  · exact canDial_retry (w := .raised .connectionClosed) hc rfl (by simp) hadv hr h₀ rfl
  · refine .head (l := .resume s (.raised .connectionClosed)) (.inl rfl)
      (step_resume hc rfl (by simp) hadv) rfl ?_
    exact canDial_lostClosing (w := v) (by simp [Sys.settle, Sys.setTask])
      ⟨hr.state, hr.lock, hr.connectingTask⟩ h₀

theorem canDial_lock {k : Caller} (hk : k ≠ .task)
    (hc : (y.tasks s).call = some (.connect k .lock)) (hs : y.conn.state = .disconnected)
    (hl : y.conn.connectLock = ⟨none, [s]⟩) (ht : y.conn.connectingTask = none) :
    y.CanDial cfg s d := by
  have hdial : connectLocked cfg y.isDone { y.conn with connectLock := ⟨some s, []⟩ } s = _ :=
    connectLocked_dials (c := { y.conn with connectLock := ⟨some s, []⟩ }) hs ht s
  have hadv : advance cfg y.isDone y.conn s (.connect k .lock) .done =
      some ({ y.conn with
        connectLock := ⟨some s, []⟩, connectingTask := some s, state := .connecting,
        dials := y.conn.dials + 1 }, .suspend (.connect k .dialing)) := by
    simp only [advance, resumeConnect, hl, AsyncLock.wake, if_true, hdial, Option.map_some]
    cases k with
    | task => exact absurd rfl hk
    | _ => rfl
  exact .last (l := .resume s .done) (.inl rfl) (step_resume hc rfl (by simp) hadv) rfl

theorem step_next {t : TaskId} {ms : List S.Msg} (ho : (y.tasks t).outcome = none)
    (hc : (y.tasks t).call = none) (hm : (y.tasks t).generator = some ms) :
    step cfg y (.next t) = some (y.settle t { y.tasks t with generator := none }
      (yieldMessages cfg y.isDone y.conn t ms)) := by
  simp [step, ho, hc, hm]

/-- A generator at its `yield` yields what it has, and then connects. -/
theorem canDial_generator : ∀ (ms : List S.Msg) {y : Sys S}, (y.tasks s).outcome = none →
    (y.tasks s).call = none → (y.tasks s).generator = some ms → y.conn.Ready →
    y.CanDial cfg s d
  | [], y, ho, hc, hm, hr => by
    have hs : ¬y.conn.state = .connected := by rw [hr.state]; decide
    refine .last (l := .next s) rfl (step_next ho hc hm) ?_
    rw [Sys.settle_conn]
    simp only [yieldMessages, streamLoop, if_neg hs, connect_ready hr, afterStreamConnect]
  | m :: ms, y, ho, hc, hm, hr => by
    refine .head (l := .next s) rfl (step_next ho hc hm) rfl ?_
    exact canDial_generator ms (by simpa [yieldMessages, Sys.settle, Sys.setTask] using ho)
      (by simp [yieldMessages, Sys.settle, Sys.setTask])
      (by simp [yieldMessages, Sys.settle, Sys.setTask]) hr

/-- **Wherever the stream is, it dials again.** -/
theorem canDial_of_not_streamOver (hy : y.Disconnected s d) (ho : ¬y.StreamOver s) :
    y.CanDial cfg s d := by
  have hst := hy.racing.stream
  have hdi : ∀ u, u ≠ s → y.point u = .idle := fun u hu => by
    by_cases hud : u = d
    · subst hud; exact Sys.point_idle.2 hy.call
    · exact hy.racing.others u hu hud
  have ready : (y.point s).lockStatus = .idle → (y.point s).attempting = false →
      y.conn.Ready := fun hl ha =>
    ⟨hy.state, hy.racing.disciplined.lock.eq_free fun u => by
      by_cases hu : u = s
      · rw [hu]; exact hl
      · rw [hdi u hu]; rfl, hy.racing.connectingTask ha⟩
  cases hc : (y.tasks s).call with
  | none =>
    have hi := Sys.point_idle.2 hc
    cases hm : (y.tasks s).generator with
    | none => exact absurd ⟨hc, hm⟩ ho
    | some ms =>
      exact canDial_generator ms (hy.doneIdle.outcome (.inr (by rw [hm]; nofun))) hc hm
        (ready (by rw [hi]; rfl) (by rw [hi]; rfl))
  | some pc =>
    have hp := Sys.point_suspended.2 hc
    rw [hp] at hst ready
    cases pc with
    | connect k pc =>
      have hk : k ≠ .task := Pc.Streaming.caller hst
      cases pc with
      | lock =>
        have hlock := hy.racing.disciplined.lock
        have hown : y.conn.connectLock.owner = none :=
          Option.eq_none_iff_forall_ne_some.2 fun u hu => by
            have := (hlock.owner u).1 hu
            by_cases hus : u = s
            · rw [hus, hp] at this; cases this
            · rw [hdi u hus] at this; cases this
        have hwait : y.conn.connectLock.waiters = [s] := by
          refine List.perm_singleton.1 ((List.perm_ext_iff_of_nodup hlock.nodup
            (List.nodup_singleton s)).2 fun u => ?_)
          rw [hlock.waiters u, List.mem_singleton]
          by_cases hus : u = s
          · rw [hus, hp]; exact iff_of_true rfl rfl
          · rw [hdi u hus]; exact iff_of_false nofun hus
        refine canDial_lock hk hc hy.state ?_ (hy.racing.connectingTask (by rw [hp]; rfl))
        rw [← hown, ← hwait]
      | dialing | sending =>
        have : y.conn.state = .connecting := by cases k <;> first | exact hst | exact absurd rfl hk
        rw [hy.state] at this; cases this
      | closing =>
        have : y.conn.state = .failed := by cases k <;> first | exact hst | exact absurd rfl hk
        rw [hy.state] at this; cases this
      | _ => cases k <;> exact hst.elim
    | recv => exact canDial_recv hc (ready rfl rfl) hst
    | lostClosing => exact canDial_lostClosing hc (ready rfl rfl) hst.1
    | backoff => exact canDial_backoff hc (ready rfl rfl)
    | _ => exact hst.elim

/-! ## Exactly when `disconnect()` is final -/

/-- **A `disconnect()` that returns is final iff the stream was already over** when it did. -/
theorem disconnect_final_iff {inst : S.Inst} {ls : List (Label S)} {x : Sys S} {l : Label S}
    (hsd : s ≠ d) (hls : ∀ m ∈ ls, m.Race s d)
    (hx : run (step cfg) (Sys.init S inst) ls = some x)
    (hl : l = .call d .disconnect ∨ ∃ w, l = .resume d w) (hy : step cfg x l = some y)
    (hc : (y.tasks d).call = none) (hlast : (y.tasks d).last = some .returned) :
    y.Final cfg s d ↔ x.StreamOver s := by
  have hr : Racing s d x.point x.conn :=
    run_guarded_invariant (P := fun z => Racing s d z.point z.conn)
      (fun _ _ _ h hg hs => (keeps_racing cfg hsd).step hg h hs) (racing_init inst s d)
      (.of_mem hls) hx
  have hd : x.DoneIdle :=
    run_invariant (fun _ _ _ h hs => step_doneIdle h hs) (doneIdle_init inst) hx
  have hdis := step_disconnected hsd hr hd hl hy hc hlast
  have hsame : y.tasks s = x.tasks s := by
    rcases hl with rfl | ⟨w, rfl⟩ <;> cases step_move hy <;> exact Sys.settle_tasks_ne x hsd _ _
  have hover : y.StreamOver s ↔ x.StreamOver s := by rw [Sys.StreamOver, hsame]; rfl
  rw [← hover]
  refine ⟨fun hf => ?_, final_of_streamOver hdis⟩
  by_contra ho
  have hcan : y.CanDial cfg s d := canDial_of_not_streamOver hdis ho
  obtain ⟨ls', y', hls', hrun, hdial⟩ := hcan
  rw [(hf ls' y' hls' hrun).1] at hdial
  omega

/-! ## A stream that survives `disconnect()` -/

/-- Task 0 streams; task 1 disconnects while it waits in `recv()`. -/
def disconnectRun : List (Label concurrencyTestConnector) :=
  [.call 0 .stream, .resume 0 .done, .call 1 .disconnect]

/-- The stream goes on: `recv()` raises, and after the back-off it connects again. -/
def survivingStream : List (Label concurrencyTestConnector) :=
  [.resume 0 (.raised .connectionClosed), .resume 0 .done, .resume 0 .done]

/-- **The stream survives**: `disconnect()` has returned, and the connector is `CONNECTED`
again. -/
theorem disconnect_not_final : ∃ x y y',
    (∀ l ∈ disconnectRun, l.Race 0 1) ∧
    run (step testConfig) (Sys.init concurrencyTestConnector ()) disconnectRun = some x ∧
    step testConfig x (.resume 1 .done) = some y ∧
    (y.tasks 1).call = none ∧ (y.tasks 1).last = some .returned ∧
    (∀ l ∈ survivingStream, l.Continues 0 1) ∧
    run (step testConfig) y survivingStream = some y' ∧
    y'.conn.dials = y.conn.dials + 1 ∧ y'.conn.state = .connected :=
  ⟨_, _, _, by simp [disconnectRun, Label.Race], rfl, rfl, rfl, rfl,
    by simp [survivingStream, Label.Continues], rfl, rfl, rfl⟩

/-- `disconnect_final_iff` at that run. -/
theorem disconnect_final_iff_disconnectRun : ∃ x y : Sys concurrencyTestConnector,
    run (step testConfig) (Sys.init concurrencyTestConnector ()) disconnectRun = some x ∧
    step testConfig x (.resume 1 .done) = some y ∧
    (y.Final testConfig 0 1 ↔ x.StreamOver 0) := by
  have hls : ∀ l ∈ disconnectRun, l.Race 0 1 := by simp [disconnectRun, Label.Race]
  exact ⟨_, _, rfl, rfl,
    disconnect_final_iff (by decide) hls rfl (.inr ⟨.done, rfl⟩) rfl rfl rfl⟩

end FlinkPractices.Connector
