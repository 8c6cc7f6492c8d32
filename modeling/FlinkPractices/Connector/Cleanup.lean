import FlinkPractices.Connector.Leak

/-!
# `disconnect()` after any sequence of calls

The connector used one call at a time (`Sys.Sequential`), where every call may be cancelled at
any of its suspension points.  `Sys.DisconnectTotal` says that a `disconnect()` made now returns,
whatever `close()` answers, and leaves the state `DISCONNECTED`, no stored socket and no open one.

A cancelled `connect()` runs none of its error handling, so what it leaves depends on where it was
suspended: before its dial returned the state stays `CONNECTING`, from which there is no way to
`DISCONNECTED`.  `Pc.strandsConnecting` are these points.  Principal result:
`disconnectTotal_iff` — `disconnect()` is total in all quiet states of a run iff no step of the run
delivers a cancellation there.

## Proof

* `Conn.Tidy` — between two calls: the state has a legal transition to `DISCONNECTED`, or is it, and
  no stored socket is hidden behind it
* `Point.Tidy` — the assertion at each place of the only call in progress
* `Edge.tidy` — carried along every edge, as long as no other attempt is in flight; a cancellation
  at a stranding point is the only edge where it breaks
* `keeps_aloneWith` — what the edges keep for the only call, every step keeps; other modules use
  this rule with assertions of their own
* `disconnectTotal_of_alone`, `not_disconnectTotal_connecting` — the two directions
-/

set_option autoImplicit false

namespace FlinkPractices.Connector

open Lib Function

variable {U : UpperTable} {S : Subclass} (cfg : ExchangeConfig U)

/-! ## Totality of `disconnect()` -/

/-- No operation is in progress. -/
def Sys.Quiet (s : Sys S) : Prop := ∀ t, (s.tasks t).call = none

/-- Calls are made one after the other. -/
def Sys.Sequential (s : Sys S) : Label S → Prop
  | .call _ _ => s.Quiet
  | .next _ => s.Quiet
  | _ => True

/-- The call of `t` has returned, and everything is closed. -/
structure Sys.DisconnectedBy (s : Sys S) (t : TaskId) : Prop where
  call : (s.tasks t).call = none
  last : (s.tasks t).last = some .returned
  state : s.conn.state = .disconnected
  websocket : s.conn.websocket = none
  closed : ∀ w < s.conn.opened, w ∈ s.conn.closed

/-- A `disconnect()` of any task ends so: at once, or after its `close()` has returned or
raised. -/
def Sys.DisconnectTotal (s : Sys S) : Prop :=
  ∀ t, (s.tasks t).outcome = none → ∃ s₁, step cfg s (.call t .disconnect) = some s₁ ∧
    (s₁.DisconnectedBy t ∨ ∃ w, (s₁.tasks t).call = some (.disconnectClosing w) ∧
      (∃ s₂, step cfg s₁ (.resume t .done) = some s₂ ∧ s₂.DisconnectedBy t) ∧
      ∀ e, ∃ s₂, step cfg s₁ (.resume t (.raised e)) = some s₂ ∧ s₂.DisconnectedBy t)

/-- The suspension points of `connect()` at which a cancellation leaves the state `CONNECTING`. -/
def Pc.strandsConnecting : Pc S → Bool
  | .connect _ .dialing => true
  | .connect _ (.sending _ _ _) => true
  | _ => false

/-- The step delivers a cancellation at one of them. -/
def Sys.Strands (s : Sys S) : Label S → Prop
  | .resume t .cancelled => ∃ pc, (s.tasks t).call = some pc ∧ pc.strandsConnecting = true
  | _ => False

/-! ## What holds between and during the calls -/

/-- `disconnect()` has a legal transition, and no stored socket is hidden behind
`DISCONNECTED`. -/
structure Conn.Tidy (c : Conn S) : Prop where
  state : c.state ≠ .connecting
  websocket : c.state = .disconnected → c.websocket = none

/-- The assertion at a suspension point of the only call in progress. -/
def Pc.Tidy : Pc S → Conn S → Prop
  | .connect _ (.awaitTask _), _ => False
  | .connect _ (.awaitTaskLocked _), _ => False
  | .connect _ .lock, c => c.Tidy
  | .connect _ .dialing, c => c.state = .connecting ∧ c.websocket = none
  | .connect _ (.sending _ _ _), c => c.state = .connecting
  | .connect _ (.closing _), c => c.state = .failed
  | .disconnectLock, c => c.Tidy
  | .disconnectClosing _, c => c.state ≠ .connecting ∧ c.state ≠ .disconnected
  | .recv _, c => c.state = .connected
  | .lostClosing w, c => c.Tidy ∧ c.websocket = some w ∧ w ∈ c.closed
  | .backoff _, c => c.state ≠ .connecting ∧ c.websocket = none
  | .own _ _ _, c => c.Tidy

/-- The assertion at a place of the only call in progress. -/
def Point.Tidy : Point S → Conn S → Prop
  | .suspended pc, c => pc.Tidy c
  | .resumed pc w, c => pc.Tidy c ∧ (pc.strandsConnecting = true → w ≠ .cancelled)
  | .sent _ _, c => c.state = .connecting
  | .failed _, c => c.state ≠ .disconnected
  | .ended _ .returned, c => c.state = .connected
  | .ended _ (.raised _), c => c.state = .failed ∧ c.websocket = none
  | .receive, c => c.state = .connected
  | .lost, c => c.state ≠ .connecting ∧
      (c.state = .failed ∨ c.state = .disconnected → c.websocket = none)
  | .retry, c => c.state ≠ .connecting ∧ c.websocket = none
  | .disconnectFinish, c => c.state ≠ .connecting ∧ c.websocket = none
  | _, c => c.Tidy

theorem Conn.Tidy.of_connected {c : Conn S} (h : c.state = .connected) : c.Tidy :=
  ⟨by rw [h]; decide, fun hd => by rw [h] at hd; cases hd⟩

theorem Conn.Tidy.of_none {c : Conn S} (h : c.state ≠ .connecting) (hw : c.websocket = none) :
    c.Tidy := ⟨h, fun _ => hw⟩

theorem Conn.Tidy.congr {c c' : Conn S} (h : c.Tidy) (hs : c'.state = c.state)
    (hw : c'.websocket = c.websocket) : c'.Tidy := ⟨hs ▸ h.state, fun hd => hw ▸ h.websocket (hs ▸ hd)⟩

variable {cfg}

/-- The assertions are carried along every edge, as long as no other attempt is in flight. -/
theorem Edge.tidy {isDone : TaskId → Bool} {t : TaskId} {P P' : Point S} {c c' : Conn S}
    (h : Edge cfg isDone t P c P' c') (hin : P.attempting = false → inFlight isDone c = none)
    (hP : P.Tidy c) : P'.Tidy c' := by
  cases h
  case connectAwait ho => rw [hin rfl] at ho; cases ho
  case lockedAwait ho => rw [hin rfl] at ho; cases ho
  case taskReturned | taskRaised | taskCancelled | lockedReturned | lockedRaised |
      lockedCancelled => exact hP.1.elim
  case connectAlready hs => exact hs
  case lockedAlready hs => exact hs
  case dial hv =>
    rcases (ConnectionState.isValidTransition_connecting _).1 hv with hs | hs
    · exact ⟨rfl, hP.websocket hs⟩
    · exact absurd hs hP.state
  case dialInvalid hv => exact fun hs => by rw [hs] at hv; cases hv
  case dialReturned => exact hP.1.1
  case dialRaised => exact fun hs => by rw [hP.1.1] at hs; cases hs
  case dialCancelled | sendCancelled => exact absurd rfl (hP.2 rfl)
  case sendReturned | sendRaised => exact hP.1
  case connected => exact rfl
  case connectedInvalid => exact fun hs => by rw [show c.state = .connecting from hP] at hs; cases hs
  case subscribeRaised => exact fun hs => by rw [show c.state = .connecting from hP] at hs; cases hs
  case failClose => exact rfl
  case failNone hw => exact ⟨rfl, hw⟩
  case failInvalid hv =>
    exact absurd ((ConnectionState.isValidTransition_failed _).2 hP) (by rw [hv]; decide)
  case closeReturned | closeRaised => exact ⟨hP.1, rfl⟩
  case closeCancelled =>
    refine ⟨?_, fun hs => ?_⟩
    · rw [show (connectFinally c t).state = .failed from hP.1]; decide
    · rw [show (connectFinally c t).state = .failed from hP.1] at hs; cases hs
  case endedTask r =>
    cases r with
    | returned => exact .of_connected hP
    | raised e => exact ⟨by rw [hP.1]; decide, fun _ => hP.2⟩
    | cancelled => exact hP
  case endedStreamRaised => exact ⟨by rw [hP.1]; decide, fun _ => hP.2⟩
  case endedReconnectReturned => exact .of_connected hP
  case endedReconnectFailed => exact ⟨nofun, hP.2⟩
  case endedReconnectInvalid | endedReconnectRaised =>
    exact .of_none (by rw [hP.1]; decide) hP.2
  case disconnectClose w hs hw =>
    exact ⟨Conn.Tidy.state (c := c) hP, hs⟩
  case disconnectNone hs hw => exact ⟨Conn.Tidy.state hP, hw⟩
  case disconnectClosed | disconnectCloseRaised => exact ⟨hP.1.1, rfl⟩
  case disconnectCloseCancelled => exact ⟨hP.1.1, fun hs => absurd hs hP.1.2⟩
  case disconnected => exact .of_none nofun hP.2
  case disconnectInvalid => exact .of_none hP.1 hP.2
  case loopConnected hs => exact hs
  case send | endedStreamReturned | recv => exact hP
  case recvNone hw => exact ⟨by rw [show c.state = .connected from hP]; decide, fun _ => hw⟩
  case frameSkipped | frameInvalid | convertInvalid | converted => exact .of_connected hP.1
  case frameRaised | convertRaised =>
    refine ⟨by rw [show c.state = .connected from hP.1]; decide, fun hs => ?_⟩
    rw [show c.state = .connected from hP.1] at hs; rcases hs with hs | hs <;> cases hs
  case recvInvalid => exact .of_connected hP.1
  case recvRaised =>
    refine ⟨by rw [show c.state = .connected from hP.1]; decide, fun hs => ?_⟩
    rw [show c.state = .connected from hP.1] at hs; rcases hs with hs | hs <;> cases hs
  case recvCancelled => exact .of_connected hP.1
  case lostConnected => exact ⟨nofun, fun hs => by cases hs⟩
  case lostFailed hs => exact ⟨nofun, fun _ => hP.2 (.inl hs)⟩
  case lostOther => exact ⟨hP.1, fun hs => hP.2 (.inr hs)⟩
  case lostClose hw => exact ⟨Conn.Tidy.congr (c := c) hP rfl rfl, hw, List.mem_cons_self⟩
  case lostNone hw => exact ⟨Conn.Tidy.state hP, hw⟩
  case lostClosed | lostCloseRaised => exact ⟨hP.1.1.state, rfl⟩
  case lostCancelled => exact hP.1.1
  case backoff => exact hP
  case giveUpFailed => exact .of_none nofun hP.2
  case giveUp => exact .of_none hP.1 hP.2
  case woken => exact .of_none nofun hP.1.2
  case wokenInvalid | backoffCancelled => exact .of_none hP.1.1 hP.1.2
  -- the other edges go between places with the same assertion
  case ownSent | ownSendRaised | ownCancelled | lockWoken | lockCancelled | disconnectWoken |
      disconnectLockCancelled =>
    exact Conn.Tidy.congr (c := c) hP.1 rfl rfl
  all_goals exact Conn.Tidy.congr (c := c) hP rfl rfl

/-- Nothing is written over an open socket. -/
theorem Point.Tidy.not_holdsOpen {P : Point S} {c : Conn S} (h : P.Tidy c)
    (hP : P.writesBlindly = true) : ¬c.HoldsOpen := by
  rintro ⟨w, hw, hc⟩
  cases P with
  | resumed pc wk =>
    cases pc with
    | connect k pc =>
      cases pc with
      | dialing =>
        have hn : c.websocket = none := h.1.2
        rw [hn] at hw; cases hw
      | _ => cases hP
    | lostClosing v =>
      have hv : c.websocket = some v ∧ v ∈ c.closed := h.1.2
      rw [hv.1] at hw; cases hw; exact hc hv.2
    | _ => cases hP
  | _ => cases hP

/-! ## One call at a time -/

/-- At most one call is in progress, and its assertion holds. -/
structure Alone (p : TaskId → Point S) (c : Conn S) : Prop where
  sockets : SocketsKept p c
  noLeak : c.NoLeak
  tidy : ∃ t, (∀ u, u ≠ t → p u = .idle) ∧ (p t).Tidy c

theorem Alone.tidy_of_ne {p : TaskId → Point S} {c : Conn S} (h : Alone p c) {t : TaskId}
    (ht : p t ≠ .idle) : (∀ u, u ≠ t → p u = .idle) ∧ (p t).Tidy c := by
  obtain ⟨t₀, ho, hT⟩ := h.tidy
  by_cases he : t = t₀
  · subst he; exact ⟨ho, hT⟩
  · exact absurd (ho t he) ht

theorem Alone.tidy_of_idle {p : TaskId → Point S} {c : Conn S} (h : Alone p c)
    (hq : ∀ t, p t = .idle) : c.Tidy := by
  obtain ⟨t, _, hT⟩ := h.tidy
  rwa [hq t] at hT

theorem Edge.source_ne_idle {isDone : TaskId → Bool} {t : TaskId} {P P' : Point S}
    {c c' : Conn S} (h : Edge cfg isDone t P c P' c') : P ≠ .idle := by
  rintro rfl; cases h

theorem Edge.alone {isDone : TaskId → Bool} {t : TaskId} {p : TaskId → Point S}
    {P P' : Point S} {c c' : Conn S} (h : Edge cfg isDone t P c P' c')
    (ha : Alone (update p t P) c) : Alone (update p t P') c' := by
  obtain ⟨ho, hT⟩ := ha.tidy_of_ne (t := t) (by rw [update_self]; exact h.source_ne_idle)
  rw [update_self] at hT
  have hin : P.attempting = false → inFlight isDone c = none := fun hP => by
    unfold inFlight
    split
    · rename_i o hc
      have hoa := (ha.sockets.disciplined.connecting o).1 hc
      by_cases hot : o = t
      · subst hot; rw [update_self, hP] at hoa; cases hoa
      · rw [ho o hot] at hoa; cases hoa
    · rfl
  refine ⟨h.socketsKept ha.sockets,
    h.noLeak ha.sockets ha.noLeak (fun hw => hT.not_holdsOpen hw.1 hw.2),
    t, fun u hu => ?_, by rw [update_self]; exact h.tidy hin hT⟩
  have := ho u hu
  rwa [update_of_ne hu] at this ⊢

theorem keeps_alone (cfg : ExchangeConfig U) :
    Keeps cfg (fun s l => s.Sequential l ∧ ¬s.Strands l) (Alone (S := S)) where
  edge he ha := he.alone ha
  call {s t op} hg hi ha := by
    have hq : ∀ u, s.point u = .idle := fun u => Sys.point_idle.2 (hg.1 u)
    refine ⟨(keeps_socketsKept cfg).call trivial hi ha.sockets, ha.noLeak, t,
      fun u hu => by rw [update_of_ne hu]; exact hq u, ?_⟩
    rw [update_self]; exact ha.tidy_of_idle hq
  next {s t ms} hg hi hm ha := by
    have hq : ∀ u, s.point u = .idle := fun u => Sys.point_idle.2 (hg.1 u)
    refine ⟨(keeps_socketsKept cfg).next trivial hi hm ha.sockets, ha.noLeak, t,
      fun u hu => by rw [update_of_ne hu]; exact hq u, ?_⟩
    rw [update_self]; exact ha.tidy_of_idle hq
  resume {s t pc w} hg hp ha := by
    obtain ⟨ho, hT⟩ := ha.tidy_of_ne (t := t) (by rw [hp]; nofun)
    rw [hp] at hT
    refine ⟨(keeps_socketsKept cfg).resume trivial hp ha.sockets, ha.noLeak, t,
      fun u hu => by rw [update_of_ne hu]; exact ho u hu, ?_⟩
    rw [update_self]
    refine ⟨hT, fun hs hw => hg.2 ?_⟩
    subst hw; exact ⟨pc, Sys.point_suspended.1 hp, hs⟩
  rest {p t c P} ha := by
    have hs : SocketsKept (update p t P.rest) c := by
      simpa using (keeps_socketsKept cfg).rest ha.sockets
    obtain ⟨t₀, ho, hT⟩ := ha.tidy
    refine ⟨hs, ha.noLeak, t₀, fun u hu => ?_, ?_⟩
    · by_cases hut : u = t
      · subst hut
        have := ho u hu
        rw [update_self] at this ⊢
        rw [this]; rfl
      · have := ho u hu
        rwa [update_of_ne hut] at this ⊢
    · by_cases htt : t₀ = t
      · subst htt
        rw [update_self] at hT ⊢
        cases P <;> exact hT
      · rwa [update_of_ne htt] at hT ⊢

/-- One call at a time, with a further assertion at the place of the one in progress. -/
def AloneWith (A : Point S → Conn S → Prop) (p : TaskId → Point S) (c : Conn S) : Prop :=
  Alone p c ∧ ∃ t, (∀ u, u ≠ t → p u = .idle) ∧ A (p t) c

theorem AloneWith.of_ne {A : Point S → Conn S → Prop} {p : TaskId → Point S} {c : Conn S}
    (h : AloneWith A p c) {t : TaskId} (ht : p t ≠ .idle) :
    (∀ u, u ≠ t → p u = .idle) ∧ A (p t) c := by
  obtain ⟨t₀, ho, hA⟩ := h.2
  by_cases he : t = t₀
  · subst he; exact ⟨ho, hA⟩
  · exact absurd (ho t he) ht

theorem AloneWith.of_idle {A : Point S → Conn S → Prop} {p : TaskId → Point S} {c : Conn S}
    (h : AloneWith A p c) (hq : ∀ t, p t = .idle) : A .idle c := by
  obtain ⟨t, _, hA⟩ := h.2
  rwa [hq t] at hA

/-- What each edge keeps for the only call in progress is kept by every step. -/
theorem keeps_aloneWith {A : Point S → Conn S → Prop} {G : Sys S → Label S → Prop}
    (hG : ∀ s l, G s l → s.Sequential l ∧ ¬s.Strands l)
    (edge : ∀ {isDone t P P' c c'}, Edge cfg isDone t P c P' c' → P.Tidy c → A P c → A P' c')
    (call : ∀ {s t op}, G s (.call t op) → A .idle s.conn → A (.enter op) s.conn)
    (next : ∀ {c ms}, A .idle c → A (.generator ms) c)
    (resume : ∀ {s t pc w}, G s (.resume t w) → (s.tasks t).call = some pc →
      A (.suspended pc) s.conn → A (.resumed pc w) s.conn)
    (rest : ∀ {P : Point S} {c}, A P c → A P.rest c) : Keeps cfg G (AloneWith (S := S) A) where
  edge {isDone t p P c P' c'} he ha := by
    obtain ⟨ho, hA⟩ := ha.of_ne (t := t) (by rw [update_self]; exact he.source_ne_idle)
    obtain ⟨_, hT⟩ := ha.1.tidy_of_ne (t := t) (by rw [update_self]; exact he.source_ne_idle)
    rw [update_self] at hA hT
    refine ⟨he.alone ha.1, t, fun u hu => ?_, by rw [update_self]; exact edge he hT hA⟩
    have := ho u hu
    rwa [update_of_ne hu] at this ⊢
  call {s t op} hg hi ha := by
    have hq : ∀ u, s.point u = .idle := fun u => Sys.point_idle.2 ((hG _ _ hg).1 u)
    refine ⟨(keeps_alone cfg).call (hG _ _ hg) hi ha.1, t,
      fun u hu => by rw [update_of_ne hu]; exact hq u, ?_⟩
    rw [update_self]; exact call hg (ha.of_idle hq)
  next {s t ms} hg hi hm ha := by
    have hq : ∀ u, s.point u = .idle := fun u => Sys.point_idle.2 ((hG _ _ hg).1 u)
    refine ⟨(keeps_alone cfg).next (hG _ _ hg) hi hm ha.1, t,
      fun u hu => by rw [update_of_ne hu]; exact hq u, ?_⟩
    rw [update_self]; exact next (ha.of_idle hq)
  resume {s t pc w} hg hp ha := by
    obtain ⟨ho, hA⟩ := ha.of_ne (t := t) (by rw [hp]; nofun)
    rw [hp] at hA
    refine ⟨(keeps_alone cfg).resume (hG _ _ hg) hp ha.1, t,
      fun u hu => by rw [update_of_ne hu]; exact ho u hu, ?_⟩
    rw [update_self]; exact resume hg (Sys.point_suspended.1 hp) hA
  rest {p t c P} ha := by
    refine ⟨(keeps_alone cfg).rest ha.1, ?_⟩
    obtain ⟨t₀, ho, hA⟩ := ha.2
    refine ⟨t₀, fun u hu => ?_, ?_⟩
    · by_cases hut : u = t
      · subst hut
        have := ho u hu
        rw [update_self] at this ⊢
        rw [this]; rfl
      · have := ho u hu
        rwa [update_of_ne hut] at this ⊢
    · by_cases htt : t₀ = t
      · subst htt
        rw [update_self] at hA ⊢
        exact rest hA
      · rwa [update_of_ne htt] at hA ⊢

/-! ## `disconnect()` from a quiet state -/

theorem step_disconnect {s : Sys S} {t : TaskId} (ho : (s.tasks t).outcome = none)
    (hc : (s.tasks t).call = none) :
    step cfg s (.call t .disconnect) = some (s.settle t (s.tasks t) (disconnect s.conn t)) := by
  simp only [step, ho, hc, Option.isNone_none, and_self, if_true]
  rfl

theorem step_disconnectClosed {s : Sys S} {t : TaskId} {w : Ws} {wk : Wake S}
    (hc : (s.tasks t).call = some (.disconnectClosing w)) (hw : wk = .done ∨ ∃ e, wk = .raised e) :
    step cfg s (.resume t wk) = some (s.settle t { s.tasks t with cancelling := false }
      (disconnectFinish (cleanupDone s.conn))) := by
  rcases hw with rfl | ⟨e, rfl⟩ <;>
    simp only [step, hc, Sys.admits, Pc.awaited, advance, if_true]

/-- In a quiet state the lock is free. -/
theorem disconnect_quiet {s : Sys S} (hq : s.Quiet) (hd : Disciplined s.point s.conn) (t : TaskId)
    (hs : s.conn.state ≠ .disconnected) :
    disconnect s.conn t = disconnectLocked { s.conn with connectLock := ⟨some t, []⟩ } := by
  have hl : s.conn.connectLock = AsyncLock.free :=
    hd.lock.eq_free fun u => by rw [Sys.point_idle.2 (hq u)]; rfl
  simp only [disconnect, if_neg hs, hl, AsyncLock.tryAcquire_free]

theorem disconnectFinish_ok {c : Conn S} (hs : c.state ≠ .connecting) :
    disconnectFinish c =
      ({ c with state := .disconnected, connectLock := c.connectLock.release },
        .finish .returned) := by
  unfold disconnectFinish
  rw [transitionState_valid ((ConnectionState.isValidTransition_disconnected _).2 hs)]

theorem disconnectFinish_connecting {c : Conn S} (hs : c.state = .connecting) :
    disconnectFinish c = ({ c with connectLock := c.connectLock.release },
      .finish (.raised (c.invalid .disconnected))) := by
  unfold disconnectFinish
  rw [transitionState_invalid (by rw [hs]; rfl)]

theorem Sys.disconnectedBy_settle {s : Sys S} {t : TaskId} {k : Task S} {c : Conn S}
    (hs : c.state = .disconnected) (hw : c.websocket = none) (hn : c.NoLeak) :
    (s.settle t k (c, .finish .returned)).DisconnectedBy t where
  call := by simp [Sys.settle, Sys.setTask]
  last := by simp [Sys.settle, Sys.setTask]
  state := hs
  websocket := hw
  closed w hlt := by
    by_contra hc
    have := hn w hlt hc
    rw [hw] at this; cases this

theorem Sys.disconnectedBy_finish {s : Sys S} {t : TaskId} {k : Task S} {c : Conn S}
    (hs : c.state ≠ .connecting) (hw : c.websocket = none) (hn : c.NoLeak) :
    (s.settle t k (disconnectFinish c)).DisconnectedBy t := by
  rw [disconnectFinish_ok hs]
  exact Sys.disconnectedBy_settle rfl hw hn

/-- **From a tidy quiet state `disconnect()` is total.** -/
theorem disconnectTotal_of_alone {s : Sys S} (hq : s.Quiet) (ha : Alone s.point s.conn) :
    s.DisconnectTotal cfg := by
  have ht := ha.tidy_of_idle fun t => Sys.point_idle.2 (hq t)
  intro t ho
  refine ⟨_, step_disconnect ho (hq t), ?_⟩
  by_cases hs : s.conn.state = .disconnected
  · left
    rw [show disconnect s.conn t = (s.conn, .finish .returned) by simp [disconnect, hs]]
    exact Sys.disconnectedBy_settle hs (ht.websocket hs) ha.noLeak
  · rw [disconnect_quiet hq ha.sockets.disciplined t hs, disconnectLocked, if_neg hs]
    rcases cleanup_cases { s.conn with connectLock := ⟨some t, []⟩ } with
      ⟨hw, hc⟩ | ⟨w, hw, hc⟩ <;> simp only [hc]
    · left
      exact Sys.disconnectedBy_finish ht.state hw ha.noLeak
    · right
      have hclosing : ∀ k : Task S, ∀ c : Conn S,
          ((s.settle t k (c, .suspend (.disconnectClosing w))).tasks t).call =
            some (.disconnectClosing w) := fun k c => by simp [Sys.settle, Sys.setTask]
      -- `close()` was attempted on the stored socket, so clearing it leaves none open
      have hn : ({ s.conn with
          websocket := none, connectLock := ⟨some t, []⟩, closed := w :: s.conn.closed } :
            Conn S).NoLeak := fun v hv hc => by
        simp only [List.mem_cons, not_or] at hc
        have := ha.noLeak v hv hc.2
        rw [show s.conn.websocket = some w from hw] at this
        exact absurd (Option.some.inj this).symm hc.1
      refine ⟨w, hclosing _ _, ⟨_, step_disconnectClosed (hclosing _ _) (.inl rfl), ?_⟩,
        fun e => ⟨_, step_disconnectClosed (hclosing _ _) (.inr ⟨e, rfl⟩), ?_⟩⟩ <;>
      · rw [Sys.settle_conn]
        exact Sys.disconnectedBy_finish ht.state rfl hn

/-- **In `CONNECTING` it never is**: whatever `close()` answers, `disconnect()` raises. -/
theorem not_disconnectTotal_connecting {s : Sys S} {t : TaskId} (hq : s.Quiet)
    (hd : Disciplined s.point s.conn) (ho : (s.tasks t).outcome = none)
    (hs : s.conn.state = .connecting) : ¬s.DisconnectTotal cfg := by
  have raised : ∀ {s : Sys S} {k : Task S} {c : Conn S}, c.state = .connecting →
      ¬(s.settle t k (disconnectFinish c)).DisconnectedBy t := fun hc hdis => by
    rw [disconnectFinish_connecting hc] at hdis
    have := hdis.last
    simp [Sys.settle, Sys.setTask] at this
  have hne : s.conn.state ≠ .disconnected := by rw [hs]; decide
  intro hT
  obtain ⟨s₁, h₁, hT⟩ := hT t ho
  rw [step_disconnect ho (hq t), disconnect_quiet hq hd t hne, disconnectLocked, if_neg hne] at h₁
  rcases cleanup_cases { s.conn with connectLock := ⟨some t, []⟩ } with
    ⟨hw, hc⟩ | ⟨w, hw, hc⟩ <;> simp only [hc, Option.some.injEq] at h₁ <;> subst h₁
  · rcases hT with hT | ⟨w, hcall, _⟩
    · exact raised (by exact hs) hT
    · rw [disconnectFinish_connecting (by exact hs)] at hcall
      simp [Sys.settle, Sys.setTask] at hcall
  · rcases hT with hT | ⟨v, hcall, ⟨s₂, h₂, hT⟩, _⟩
    · have := hT.call
      simp [Sys.settle, Sys.setTask] at this
    · rw [step_disconnectClosed hcall (.inl rfl), Option.some.injEq] at h₂
      subst h₂
      exact raised (by exact hs) hT

/-! ## Exactly when it stays total -/

theorem afterConnect_cancelled (isDone : TaskId → Bool) (t : TaskId) (c : Conn S) (k : Caller) :
    afterConnect cfg isDone t k (c, .finish .cancelled) = (c, .finish .cancelled) := by
  cases k <;> rfl

/-- A cancellation there ends the call, in `CONNECTING`. -/
theorem advance_strands {isDone : TaskId → Bool} {c : Conn S} {t : TaskId} {pc : Pc S}
    (hpc : pc.strandsConnecting = true) :
    advance cfg isDone c t pc .cancelled = some (connectFinally c t, .finish .cancelled) := by
  cases pc with
  | connect k pc =>
    cases pc with
    | dialing | sending =>
      simp only [advance, resumeConnect, Option.map_some, connectCancelled, afterConnect_cancelled]
    | _ => cases hpc
  | _ => cases hpc

theorem Pc.Tidy.connecting {pc : Pc S} {c : Conn S} (h : pc.Tidy c)
    (hpc : pc.strandsConnecting = true) : c.state = .connecting := by
  cases pc with
  | connect k pc =>
    cases pc with
    | dialing => exact h.1
    | sending => exact h
    | _ => cases hpc
  | _ => cases hpc

theorem step_strands {s s' : Sys S} {l : Label S} (ha : Alone s.point s.conn) (hd : s.DoneIdle)
    (hl : s.Strands l) (hs : step cfg s l = some s') : s'.Quiet ∧ ¬s'.DisconnectTotal cfg := by
  cases step_move hs with
  | @resume t pc w r hc _ hr =>
    cases w with
    | cancelled =>
      obtain ⟨pc', hc', hpc⟩ := hl
      rw [hc] at hc'; cases hc'
      rw [advance_strands hpc] at hr; cases hr
      have hp := Sys.point_suspended.2 hc
      obtain ⟨ho, hT⟩ := ha.tidy_of_ne (t := t) (by rw [hp]; simp)
      have hq : ∀ {k : Task S} {c : Conn S},
          (s.settle t k (c, .finish .cancelled)).Quiet := fun u => by
        by_cases hut : u = t
        · subst hut; simp [Sys.settle, Sys.setTask]
        · rw [Sys.settle_tasks_ne s hut]; exact Sys.point_idle.1 (ho u hut)
      refine ⟨hq, not_disconnectTotal_connecting (t := t) hq
        (step_disciplined ha.sockets.disciplined hs) ?_ ?_⟩
      · rw [Sys.settle_outcome]; exact hd.outcome (.inl (by rw [hc]; simp))
      · rw [hp] at hT; exact Pc.Tidy.connecting (c := s.conn) hT hpc
    | _ => cases hl
  | _ => cases hl

theorem step_disconnectTotal_iff {s s' : Sys S} {l : Label S} (ha : Alone s.point s.conn)
    (hd : s.DoneIdle) (hq : s.Sequential l) (hs : step cfg s l = some s') :
    (s'.Quiet → s'.DisconnectTotal cfg) ↔ ¬s.Strands l := by
  constructor
  · intro h hl
    obtain ⟨hq', hT⟩ := step_strands ha hd hl hs
    exact hT (h hq')
  · intro hl hq'
    exact disconnectTotal_of_alone hq' ((keeps_alone cfg).step ⟨hq, hl⟩ ha hs)

theorem alone_init (inst : S.Inst) : Alone (Sys.init S inst).point (Sys.init S inst).conn :=
  ⟨socketsKept_init inst, fun w hw => absurd hw (Nat.not_lt_zero w), 0, fun _ _ => rfl,
    nofun, fun _ => rfl⟩

/-- **`disconnect()` stays total iff no cancellation is delivered while `connect()` dials or
subscribes**, in every run that makes its calls one after the other. -/
theorem disconnectTotal_iff {inst : S.Inst} {ls : List (Label S)} {s' : Sys S}
    (hq : Guarded (step cfg) Sys.Sequential (Sys.init S inst) ls)
    (hr : run (step cfg) (Sys.init S inst) ls = some s') :
    Always (step cfg) (fun s => s.Quiet → s.DisconnectTotal cfg) (Sys.init S inst) ls ↔
      Guarded (step cfg) (fun s l => ¬s.Strands l) (Sys.init S inst) ls :=
  always_iff_guarded (I := fun s => Alone s.point s.conn ∧ s.DoneIdle)
    (fun _ _ _ hi hq hg hs => ⟨(keeps_alone cfg).step ⟨hq, hg⟩ hi.1 hs, step_doneIdle hi.2 hs⟩)
    (fun _ _ _ hi hq _ hs => step_disconnectTotal_iff hi.1 hi.2 hq hs)
    ⟨alone_init inst, doneIdle_init inst⟩
    (fun hq => disconnectTotal_of_alone hq (alone_init inst)) hq hr

/-! ## A cancelled `connect()` -/

/-- A `connect()` is cancelled while it dials. -/
def cancelledDial : List (Label concurrencyTestConnector) :=
  [.call 0 .connect, .cancel 0 1, .resume 0 .cancelled]

theorem cancelledDial_sequential : Guarded (step testConfig) Sys.Sequential
    (Sys.init concurrencyTestConnector ()) cancelledDial :=
  ⟨fun _ => rfl, fun _ _ => ⟨trivial, fun _ _ => ⟨trivial, fun _ _ => trivial⟩⟩⟩

/-- **A cancelled dial leaves a connector that cannot be disconnected.** -/
theorem cancelledDial_not_total : ∃ s,
    run (step testConfig) (Sys.init concurrencyTestConnector ()) cancelledDial = some s ∧
    Guarded (step testConfig) Sys.Sequential (Sys.init concurrencyTestConnector ())
      cancelledDial ∧
    s.Quiet ∧ ¬s.DisconnectTotal testConfig := by
  have hq : ∀ t, ((((run (step testConfig) (Sys.init concurrencyTestConnector ())
      cancelledDial).get rfl).tasks t).call = none) := by
    rintro (_ | t) <;> rfl
  refine ⟨_, rfl, cancelledDial_sequential, hq, ?_⟩
  exact not_disconnectTotal_connecting (t := 0) hq (reachable_disciplined ⟨cancelledDial, rfl⟩)
    rfl rfl

/-- `disconnectTotal_iff` at that run. -/
theorem disconnectTotal_iff_cancelledDial :
    Always (step testConfig) (fun s => s.Quiet → s.DisconnectTotal testConfig)
      (Sys.init concurrencyTestConnector ()) cancelledDial ↔
    Guarded (step testConfig) (fun s l => ¬s.Strands l)
      (Sys.init concurrencyTestConnector ()) cancelledDial := by
  have hr : run (step testConfig) (Sys.init concurrencyTestConnector ()) cancelledDial =
    some ((run (step testConfig) (Sys.init concurrencyTestConnector ()) cancelledDial).get rfl) :=
    (Option.some_get _).symm
  exact disconnectTotal_iff cancelledDial_sequential hr

end FlinkPractices.Connector
