import FlinkPractices.Connector.Transitions

/-!
# One task on the connector, which may be cancelled

The connector is used by a single task, and anybody may cancel it at any moment (`Label.By`).  A
cancelled call leaves the connector as it stands, so between two calls little is known of it: it may
be `CONNECTING` with nobody connecting.  What the next stream makes of that is `Point.Expects`.

* `Only t A` — nobody but `t` is in a call, and the assertion `A` holds at its place
* `keeps_only` — the rule for such an assertion: what the edges keep for the only task is kept by
  its steps, and by cancellations; an edge may use that no other attempt is in flight
* `Path.only` — the same for one segment, from the place where it begins

Its first use is `Sound`: the only task is where `Point.Expects` says, and while the connector is
`CONNECTED` no attempt is counted.

* `Edge.fresh`, `Edge.expects` — the two halves of `Sound` along an edge
* `keeps_sound`, `sound_init` — `Sound` is an invariant of the runs of one task, which
  `Connector.Backoff` takes from here

In particular a connector that the reconnect loop finds is `RECONNECTING` with all its attempts
left, or `DISCONNECTED` (`Conn.Shaken`).
-/

set_option autoImplicit false

namespace FlinkPractices.Connector

open Lib Function

variable {U : UpperTable} {S : Subclass} {cfg : ExchangeConfig U}

/-- A step of the task `t`, or a cancellation. -/
def Label.By (t : TaskId) : Label S → Prop
  | .call u _ => u = t
  | .next u => u = t
  | .resume u _ => u = t
  | .exit u _ => u = t
  | .cancel _ _ => True

/-! ## The rule -/

/-- Nobody but `t` is in a call, and `A` holds at its place. -/
structure Only (t : TaskId) (A : Point S → Conn S → Prop) (p : TaskId → Point S) (c : Conn S) :
    Prop where
  disciplined : Disciplined p c
  others : ∀ u, u ≠ t → p u = .idle
  holds : A (p t) c

/-- The only task finds nobody else's attempt in flight. -/
theorem Only.inFlight {t : TaskId} {A : Point S → Conn S → Prop} {p : TaskId → Point S}
    {c : Conn S} (h : Only t A p c) (hp : (p t).attempting = false) (isDone : TaskId → Bool) :
    inFlight isDone c = none := by
  unfold Connector.inFlight
  split
  · rename_i o hc
    have hoa := (h.disciplined.connecting o).1 hc
    by_cases hot : o = t
    · rw [hot, hp] at hoa
      cases hoa
    · rw [h.others o hot] at hoa
      cases hoa
  · rfl

/-- What the edges keep for the only task is kept by its steps, and by cancellations. -/
theorem keeps_only {t : TaskId} {A : Point S → Conn S → Prop}
    (edge : ∀ {isDone P P' c c'}, Edge cfg isDone t P c P' c' →
      (P.attempting = false → inFlight isDone c = none) → A P c → A P' c')
    (call : ∀ {c op}, A .idle c → A (.enter op) c)
    (next : ∀ {c ms}, A .idle c → A (.generator ms) c)
    (resume : ∀ {c pc w}, A (.suspended pc) c → A (.resumed pc w) c)
    (rest : ∀ {P : Point S} {c}, A P c → A P.rest c) :
    Keeps cfg (fun _ l => l.By t) (Only (S := S) t A) where
  edge {isDone u p P c P' c'} he h := by
    by_cases hut : u = t
    · subst hut
      refine ⟨he.disciplined h.disciplined, fun v hv => ?_, ?_⟩
      · have := h.others v hv
        rwa [update_of_ne hv] at this ⊢
      · have hA := h.holds
        rw [update_self] at hA ⊢
        exact edge he (fun hP => h.inFlight (by rwa [update_self]) isDone) hA
    · have hidle := h.others u hut
      rw [update_self] at hidle
      exact absurd hidle he.source_ne_idle
  call {s u op} hg hi h := by
    obtain rfl : u = t := hg
    refine ⟨(keeps_disciplined cfg).call trivial hi h.disciplined, fun v hv => ?_, ?_⟩
    · rw [update_of_ne hv]
      exact h.others v hv
    · have hA := h.holds
      rw [hi] at hA
      rw [update_self]
      exact call hA
  next {s u ms} hg hi hm h := by
    obtain rfl : u = t := hg
    refine ⟨(keeps_disciplined cfg).next trivial hi hm h.disciplined, fun v hv => ?_, ?_⟩
    · rw [update_of_ne hv]
      exact h.others v hv
    · have hA := h.holds
      rw [hi] at hA
      rw [update_self]
      exact next hA
  resume {s u pc w} hg hp h := by
    obtain rfl : u = t := hg
    refine ⟨(keeps_disciplined cfg).resume trivial hp h.disciplined, fun v hv => ?_, ?_⟩
    · rw [update_of_ne hv]
      exact h.others v hv
    · have hA := h.holds
      rw [hp] at hA
      rw [update_self]
      exact resume hA
  rest {p u c P} h := by
    refine ⟨(keeps_disciplined cfg).rest h.disciplined, fun v hv => ?_, ?_⟩
    · have hidle := h.others v hv
      by_cases hvu : v = u
      · subst hvu
        rw [update_self] at hidle ⊢
        rw [hidle]
        rfl
      · rwa [update_of_ne hvu] at hidle ⊢
    · have hA := h.holds
      by_cases htu : t = u
      · subst htu
        rw [update_self] at hA ⊢
        exact rest hA
      · rwa [update_of_ne htu] at hA ⊢

/-- The only task at the place `P`. -/
def At (t : TaskId) (A : Point S → Conn S → Prop) (P : Point S) (c : Conn S) : Prop :=
  ∃ p : TaskId → Point S, Only t A (update p t P) c

theorem At.holds {t : TaskId} {A : Point S → Conn S → Prop} {P : Point S} {c : Conn S}
    (h : At t A P c) : A P c := by
  obtain ⟨p, hp⟩ := h
  have hA := hp.holds
  rwa [update_self] at hA

/-- **The rule for a segment of the only task.** -/
theorem Path.only {t : TaskId} {A B : Point S → Conn S → Prop} {isDone : TaskId → Bool}
    {G : Sys S → Label S → Prop} (hA : Keeps cfg G (Only t A))
    (hB : ∀ {P c P' c'}, Edge cfg isDone t P c P' c' → A P c → B P c → B P' c')
    {x y : Point S × Conn S} (h : Path cfg isDone t x y) (hx : At t A x.1 x.2) (hb : B x.1 x.2) :
    B y.1 y.2 := by
  have both : At t A y.1 y.2 ∧ B y.1 y.2 := by
    induction h with
    | refl => exact ⟨hx, hb⟩
    | tail _ he ih =>
      obtain ⟨⟨p, hp⟩, hb⟩ := ih
      have hAt := At.holds ⟨p, hp⟩
      exact ⟨⟨p, hA.edge he hp⟩, hB he hAt hb⟩
  exact both.2

/-! ## What the places expect -/

/-- Shaken by a loss: the connector was `CONNECTED`, or it has been reset. -/
def Conn.Shaken (c : Conn S) : Prop :=
  (c.state = .reconnecting ∧ c.reconnectAttempts = 0) ∨ c.state = .disconnected

/-- What `connect()` finds when the reconnect loop calls it. -/
def Caller.Expects (k : Caller) (c : Conn S) : Prop :=
  k = .reconnect → c.state = .disconnected ∧ c.websocket = none

def Pc.Expects : Pc S → Conn S → Prop
  | .connect _ (.awaitTask _), _ => False
  | .connect _ (.awaitTaskLocked _), _ => False
  | .connect k .lock, c => k.Expects c
  | .connect _ .dialing, c => c.state = .connecting
  | .connect _ (.sending _ _ _), c => c.state = .connecting ∧ c.websocket ≠ none
  | .connect _ (.closing _), c => c.state = .failed
  | .recv _, c => c.state = .connected
  | .lostClosing _, c => c.Shaken
  | .backoff _, c => (c.state = .reconnecting ∨ c.state = .disconnected) ∧ c.websocket = none
  | _, _ => True

/-- The assertion at a place of the only task. -/
def Point.Expects : Point S → Conn S → Prop
  | .suspended pc, c => pc.Expects c
  | .resumed pc _, c => pc.Expects c
  | .connect k, c => k.Expects c
  | .acquire k, c => k.Expects c
  | .locked k, c => k.Expects c
  | .attempt k, c => k.Expects c
  | .sent _ _, c => c.state = .connecting ∧ c.websocket ≠ none
  | .failed k, c => k = .reconnect → c.state = .connecting
  | .ended _ .returned, c => c.state = .connected
  | .ended k (.raised e), c => (c.state = .failed ∨ c.state = .disconnected) ∧
      (k = .reconnect → c.websocket = none ∧ e.isConnectionFailedError = true)
  | .receive, c => c.state = .connected
  | .lost, c => c.state = .connected ∨ c.state = .failed ∨ c.state = .disconnected
  | .lostCleanup, c => c.Shaken
  | .retry, c => c.Shaken ∧ c.websocket = none
  | _, _ => True

/-- The only task is where it should be, and while the connector is `CONNECTED` no attempt is
counted. -/
structure Sound (P : Point S) (c : Conn S) : Prop where
  fresh : c.state = .connected → c.reconnectAttempts = 0
  place : P.Expects c

theorem Conn.Shaken.not_connected {c : Conn S} (h : c.Shaken) : c.state ≠ .connected := by
  rcases h with ⟨hs, -⟩ | hs <;> rw [hs] <;> decide

theorem Edge.fresh {isDone : TaskId → Bool} {t : TaskId} {P P' : Point S} {c c' : Conn S}
    (h : Edge cfg isDone t P c P' c') (hP : Sound P c) :
    c'.state = .connected → c'.reconnectAttempts = 0 := by
  cases h
  case connected => exact fun _ => rfl
  case dial | failClose | failNone | endedReconnectFailed | disconnected | lostConnected |
      lostFailed | giveUpFailed | woken => exact nofun
  case backoff => exact fun hs => absurd hs hP.place.1.not_connected
  all_goals exact hP.fresh

theorem Edge.expects {isDone : TaskId → Bool} {t : TaskId} {P P' : Point S} {c c' : Conn S}
    (h : Edge cfg isDone t P c P' c') (hin : P.attempting = false → inFlight isDone c = none)
    (hP : Sound P c) : P'.Expects c' := by
  have hp := hP.place
  cases h
  case connectAlready hs => exact hs
  case lockedAlready hs => exact hs
  case connectAwait ho => rw [hin rfl] at ho; cases ho
  case lockedAwait ho => rw [hin rfl] at ho; cases ho
  case taskReturned | taskRaised | taskCancelled | lockedReturned | lockedRaised |
      lockedCancelled => exact hp.elim
  case connectAcquire | acquire | queue | lockWoken | lockedAttempt => exact hp
  case dial => exact rfl
  case dialInvalid hv =>
    intro hk
    rw [(hp hk).1] at hv
    cases hv
  case dialReturned => exact ⟨hp, nofun⟩
  case dialRaised => exact fun _ => hp
  case send | sendReturned | sendRaised => exact hp
  case connected => exact rfl
  case connectedInvalid | subscribeRaised => exact fun _ => hp.1
  case failClose => exact rfl
  case failNone hw => exact ⟨.inl rfl, fun _ => ⟨hw, rfl⟩⟩
  case failInvalid k hv =>
    have hs : c.state = .disconnected := by
      by_contra hs
      rw [(ConnectionState.isValidTransition_failed _).2 hs] at hv
      cases hv
    refine ⟨.inr hs, fun hk => ?_⟩
    rw [hp hk] at hs
    cases hs
  case closeReturned | closeRaised => exact ⟨.inl hp, fun _ => ⟨rfl, rfl⟩⟩
  case endedStreamReturned => exact hp
  case endedStreamRaised => exact .inr hp.1
  case endedReconnectFailed => exact ⟨.inr rfl, (hp.2 rfl).1⟩
  case loopConnected hs => exact hs
  case loopConnect => exact nofun
  case recv => exact hp
  case recvNone | frameRaised | convertRaised | recvRaised => exact .inl hp
  case lostConnected hs => exact .inl ⟨rfl, hP.fresh hs⟩
  case lostFailed => exact .inr rfl
  case lostOther hc hf => exact .inr ((hp.resolve_left hc).resolve_left hf)
  case lostClose => exact hp
  case lostNone hw => exact ⟨hp, hw⟩
  case lostClosed | lostCloseRaised => exact ⟨hp, rfl⟩
  case backoff => exact ⟨hp.1.imp_left And.left, hp.2⟩
  case woken => exact fun _ => ⟨rfl, hp.2⟩
  case enterConnect => exact nofun
  all_goals trivial

theorem keeps_sound (cfg : ExchangeConfig U) (t : TaskId) :
    Keeps cfg (fun _ l => l.By t) (Only (S := S) t Sound) :=
  keeps_only (fun he hin h => ⟨he.fresh h, he.expects hin h⟩)
    (fun h => ⟨h.fresh, trivial⟩) (fun h => ⟨h.fresh, trivial⟩) (fun h => ⟨h.fresh, h.place⟩)
    (fun {P c} h => ⟨h.fresh, by cases P <;> exact h.place⟩)

theorem sound_init (inst : S.Inst) (t : TaskId) :
    Only t Sound (Sys.init S inst).point (Sys.init S inst).conn :=
  ⟨disciplined_init inst, fun _ _ => rfl, nofun, trivial⟩

end FlinkPractices.Connector
