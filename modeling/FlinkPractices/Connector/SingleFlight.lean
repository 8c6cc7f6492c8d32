import FlinkPractices.Connector.Cancel

/-!
# Single flight

Any number of tasks, each of whose body is one `connect()` on the same connector
(`Sys.OneConnect`), starting from `DISCONNECTED` and without cancellation.  The first attempt is
the only one that dials: while it is under way the others wait for it or for the lock, after a
success they find `CONNECTED`, and after a failure `FAILED`, from which there is no way to
`CONNECTING`.

Principal results: `singleFlight` (at most one dial in flight, at most one that succeeds, and how
every call ends) and `settled` (after a success nothing more is dialed or sent).

## Proof

* `Point.Flight` — what holds at a place, of the attempt that began on the connector `c₀`
* `Flight` — the invariant: one attempt, where it stands, and what it has left (`Conn.Budget`)
* `Edge.frame` — whoever is not in the `try` changes nothing but the lock, so the assertions of the
  other tasks stay true under an edge of one of them
* `Edge.flight`, `Edge.flight_all` — what an edge makes of its own task's place, and of all
* `Sys.Admitted` — what is needed of a step for this: nothing is cancelled, and an awaited task that
  has returned has left the connector connected; `Sys.Flying` is the invariant that provides it,
  since the body of every task ends with its `connect()`
* `Rested` — once connected, nothing more is dialed or sent
-/

set_option autoImplicit false

namespace FlinkPractices.Connector

open Lib Function

variable {U : UpperTable} {S : Subclass} {cfg : ExchangeConfig U}

/-- Tasks that have not run yet, on the connector `c`. -/
def Sys.fresh (c : Conn S) : Sys S := ⟨c, fun _ => Task.init S, []⟩

/-- The body of every task is one `connect()`, and nobody is cancelled. -/
def Sys.OneConnect (s : Sys S) : Label S → Prop
  | .call t .connect => (s.tasks t).last = none
  | .resume _ _ => True
  | .exit t o => (s.tasks t).last = some o
  | _ => False

/-- The connector's users are in single flight, since `c₀`. -/
structure Sys.SingleFlight (cfg : ExchangeConfig U) (c₀ : Conn S) (s : Sys S) : Prop where
  /-- at most one `websockets.connect` is in flight -/
  inFlight : ∀ t u k j, (s.tasks t).call = some (.connect k .dialing) →
    (s.tasks u).call = some (.connect j .dialing) → t = u
  /-- at most one has succeeded -/
  opened : s.conn.opened ≤ c₀.opened + 1
  /-- a `connect()` that has returned left, and leaves, the connector connected; any other one
  raised `ConnectionFailedError` -/
  ends : ∀ t r, (s.tasks t).last = some r →
    (r = .returned ∧ s.conn.state = .connected ∧ s.conn.websocket ≠ none) ∨
      r = .raised (connectFailure cfg)

/-- Since the connected state `s` nothing has been dialed or subscribed to, and nothing is being. -/
structure Sys.Settled (s s' : Sys S) : Prop where
  dials : s'.conn.dials = s.conn.dials
  sent : s'.conn.sent = s.conn.sent
  noDial : ∀ t k, (s'.tasks t).call ≠ some (.connect k .dialing)
  noSend : ∀ t k w p q, (s'.tasks t).call ≠ some (.connect k (.sending w p q))

/-! ## Where the attempt stands -/

/-- What holds at a suspension point, of the attempt that began on `c₀`. -/
def Pc.Flight (c₀ : Conn S) : Pc S → Conn S → Prop
  | .connect _ .dialing, c => c.state = .connecting ∧ c.opened = c₀.opened
  | .connect _ (.sending _ _ _), c => c.state = .connecting ∧ c.websocket ≠ none
  | .connect _ (.closing _), c => c.state = .failed
  | _, _ => True

/-- How a `connect()` ends. -/
def Ends (r : Outcome) (c : Conn S) : Prop :=
  (r = .returned ∧ c.state = .connected) ∨ ∃ e, r = .raised e

def Point.Flight (c₀ : Conn S) : Point S → Conn S → Prop
  | .suspended pc, c => pc.Flight c₀ c
  | .resumed pc w, c => pc.Flight c₀ c ∧ w ≠ .cancelled ∧
      (pc.awaited ≠ none → w = .done → c.state = .connected)
  | .attempt _, c => c.state = .disconnected ∨ c.state = .failed
  | .sent _ _, c => c.state = .connecting ∧ c.websocket ≠ none
  | .failed _, c => c.state = .connecting ∨ c.state = .failed
  | .ended _ r, c => Ends r c
  | .finished r, c => Ends r c
  | _, _ => True

/-- Between `CONNECTING` and what comes after it. -/
def Pc.connecting : Pc S → Bool
  | .connect _ .dialing => true
  | .connect _ (.sending _ _ _) => true
  | _ => false

def Point.connecting : Point S → Bool
  | .suspended pc => pc.connecting
  | .resumed pc _ => pc.connecting
  | .sent _ _ => true
  | .failed _ => true
  | _ => false

/-- What the first attempt has left. -/
structure Conn.Budget (c₀ c : Conn S) : Prop where
  state : c.state ≠ .reconnecting
  opened : c.opened ≤ c₀.opened + 1
  fresh : c.state = .disconnected → c.opened = c₀.opened
  connected : c.state = .connected → c.websocket ≠ none

/-- The invariant: one attempt, and where it stands. -/
structure Flight (cfg : ExchangeConfig U) (c₀ : Conn S) (p : TaskId → Point S) (c : Conn S) :
    Prop where
  all : AllConnect cfg p c
  point : ∀ t, (p t).Flight c₀ c
  budget : c₀.Budget c
  busy : c.state = .connecting → ∃ t, (p t).connecting = true

theorem Point.attempting_of_connecting {P : Point S} (h : P.connecting = true) :
    P.attempting = true := by
  cases P with
  | suspended pc => cases pc with
    | connect k pc => cases pc <;> first | rfl | cases h
    | _ => cases h
  | resumed pc w => cases pc with
    | connect k pc => cases pc <;> first | rfl | cases h
    | _ => cases h
  | _ => first | rfl | cases h

/-- Nobody but the task inside the `try` finds the state `CONNECTING` from under the lock. -/
theorem Flight.ne_connecting {c₀ : Conn S} {p : TaskId → Point S} {c : Conn S}
    (h : Flight cfg c₀ p c) {t : TaskId} (hl : (p t).lockStatus = .holding)
    (hc : (p t).connecting = false) : c.state ≠ .connecting := by
  intro hs
  obtain ⟨u, hu⟩ := h.busy hs
  have hut : u = t := h.all.disciplined.mutex
    (Point.attempting_holding (Point.attempting_of_connecting hu)) hl
  rw [hut, hc] at hu
  cases hu

/-- Inside the `try` the connector is not connected. -/
theorem Point.Flight.ne_connected {c₀ : Conn S} {P : Point S} {c : Conn S} (h : P.Flight c₀ c)
    (hP : P.attempting = true) : c.state ≠ .connected := by
  have pcs : ∀ {pc : Pc S}, pc.Flight c₀ c → pc.attempting = true → c.state ≠ .connected := by
    intro pc h hP
    cases pc with
    | connect k pc =>
      cases pc with
      | dialing | sending =>
        rw [show c.state = .connecting from h.1]
        decide
      | closing =>
        rw [show c.state = .failed from h]
        decide
      | _ => cases hP
    | _ => cases hP
  cases P with
  | suspended pc => exact pcs h hP
  | resumed pc w => exact pcs h.1 hP
  | attempt | failed =>
    intro hs
    rcases h with h | h <;> (rw [hs] at h; cases h)
  | sent =>
    rw [show c.state = .connecting from h.1]
    decide
  | _ => cases hP

/-- What somebody else in the `try` does leaves the assertion of a task alone. -/
theorem Point.Flight.congr {c₀ : Conn S} {P : Point S} {c c' : Conn S} (h : P.Flight c₀ c)
    (hP : P.attempting = false) (hs : c'.state = c.state ∨ c.state ≠ .connected) :
    P.Flight c₀ c' := by
  have ends : ∀ {r}, Ends r c → Ends r c' := by
    rintro r (⟨hr, hc⟩ | hr)
    · rcases hs with hs | hs
      · exact .inl ⟨hr, hs.trans hc⟩
      · exact absurd hc hs
    · exact .inr hr
  have pcs : ∀ {pc : Pc S}, pc.attempting = false → pc.Flight c₀ c' := by
    intro pc hP
    cases pc with
    | connect k pc => cases pc <;> trivial
    | _ => trivial
  cases P with
  | suspended pc => exact pcs hP
  | resumed pc w =>
    refine ⟨pcs hP, h.2.1, fun ha hw => ?_⟩
    have hc := h.2.2 ha hw
    rcases hs with hs | hs
    · exact hs.trans hc
    · exact absurd hc hs
  | attempt | failed | sent => cases hP
  | ended k r => exact ends h
  | finished r => exact ends h
  | _ => trivial

/-- So does what changes neither the state nor the sockets. -/
theorem Point.Flight.frame {c₀ : Conn S} {P : Point S} {c c' : Conn S} (h : P.Flight c₀ c)
    (hs : c'.state = c.state) (hw : c'.websocket = c.websocket) (ho : c'.opened = c.opened) :
    P.Flight c₀ c' := by
  have pcs : ∀ {pc : Pc S}, pc.Flight c₀ c → pc.Flight c₀ c' := by
    intro pc h
    cases pc with
    | connect k pc =>
      cases pc with
      | dialing => exact ⟨hs.trans h.1, ho.trans h.2⟩
      | sending => exact ⟨hs.trans h.1, hw ▸ h.2⟩
      | closing => exact hs.trans h
      | _ => trivial
    | _ => trivial
  have ends : ∀ {r}, Ends r c → Ends r c' := by
    rintro r (⟨hr, hc⟩ | hr)
    · exact .inl ⟨hr, hs.trans hc⟩
    · exact .inr hr
  cases P with
  | suspended pc => exact pcs h
  | resumed pc w => exact ⟨pcs h.1, h.2.1, fun ha hd => hs.trans (h.2.2 ha hd)⟩
  | attempt => exact h.imp hs.trans hs.trans
  | failed => exact h.imp hs.trans hs.trans
  | sent => exact ⟨hs.trans h.1, hw ▸ h.2⟩
  | ended k r => exact ends h
  | finished r => exact ends h
  | _ => trivial

/-- Whoever is not in the `try` changes nothing but the lock. -/
theorem Edge.frame {isDone : TaskId → Bool} {t : TaskId} {P P' : Point S} {c c' : Conn S}
    (h : Edge cfg isDone t P c P' c') (hP : P.ConnectOnly cfg c) (ha : P.attempting = false) :
    c'.state = c.state ∧ c'.websocket = c.websocket ∧ c'.opened = c.opened ∧
      c'.dials = c.dials ∧ c'.sent = c.sent := by
  cases h
  case ownStart | ownSent | ownSendRaised | disconnectClosed | disconnectCloseRaised |
      disconnectClose | frameSkipped | frameInvalid | frameRaised | convertInvalid |
      convertRaised | converted | lostConnected | lostFailed | lostClose | lostClosed |
      lostCloseRaised | endedReconnectFailed | disconnected | giveUpFailed | woken | backoff =>
    exact hP.elim
  case dial | dialReturned | sendReturned | sendRaised | connected | failClose | failNone |
      closeReturned | closeRaised | dialCancelled | sendCancelled | failInvalid |
      closeCancelled => cases ha
  all_goals exact ⟨rfl, rfl, rfl, rfl, rfl⟩

/-! ## Edges -/

/-- One attempt goes on: what an edge makes of its place and of what is left. -/
theorem Edge.flight {c₀ : Conn S} {isDone : TaskId → Bool} {t : TaskId} {P P' : Point S}
    {c c' : Conn S} (h : Edge cfg isDone t P c P' c') (hco : P.ConnectOnly cfg c)
    (hw : P.awaitsUnderLock = false)
    (hidle : P.lockStatus = .holding → P.connecting = false → c.state ≠ .connecting)
    (hb : c₀.Budget c) (hP : P.Flight c₀ c) :
    P'.Flight c₀ c' ∧ c₀.Budget c' ∧
      (c'.state = .connecting → P'.connecting = true ∨
        c.state = .connecting ∧ P.connecting = false) := by
  have keep : ∀ {Q : Point S} {d : Conn S}, d.state = c.state → d.opened = c.opened →
      d.websocket = c.websocket → Q.Flight c₀ d → (P.connecting = false ∨ Q.connecting = true) →
      Q.Flight c₀ d ∧ c₀.Budget d ∧ (d.state = .connecting → Q.connecting = true ∨
        c.state = .connecting ∧ P.connecting = false) := by
    intro Q d hs ho hws hQ hcn
    refine ⟨hQ, ⟨hs ▸ hb.state, ho ▸ hb.opened, fun hd => ho.trans (hb.fresh (hs.symm.trans hd)),
      fun hd => hws ▸ hb.connected (hs.symm.trans hd)⟩, fun hd => ?_⟩
    rcases hcn with hcn | hcn
    · exact .inr ⟨hs.symm.trans hd, hcn⟩
    · exact .inl hcn
  have failed : ∀ {Q : Point S} {d : Conn S}, d.state = .failed → d.opened = c.opened →
      Q.Flight c₀ d → Q.Flight c₀ d ∧ c₀.Budget d ∧ (d.state = .connecting →
        Q.connecting = true ∨ c.state = .connecting ∧ P.connecting = false) := by
    intro Q d hs ho hQ
    refine ⟨hQ, ⟨by rw [hs]; decide, ho ▸ hb.opened, fun hd => ?_, fun hd => ?_⟩, fun hd => ?_⟩
    all_goals rw [hs] at hd; cases hd
  cases h
  case connectAlready hs => exact keep rfl rfl rfl (.inl ⟨rfl, hs⟩) (.inl rfl)
  case taskReturned => exact keep rfl rfl rfl (.inl ⟨rfl, hP.2.2 nofun rfl⟩) (.inl rfl)
  case taskCancelled | lockCancelled | dialCancelled | sendCancelled | closeCancelled =>
    exact absurd rfl hP.2.1
  case lockedReturned | lockedRaised | lockedCancelled => cases hw
  case lockedAlready hs => exact keep rfl rfl rfl (.inl ⟨rfl, hs⟩) (.inl rfl)
  case lockedAttempt hs _ =>
    have hci := hidle rfl rfl
    have hr := hb.state
    refine keep rfl rfl rfl ?_ (.inl rfl)
    show c.state = .disconnected ∨ c.state = .failed
    cases hst : c.state with
    | disconnected => exact .inl rfl
    | failed => exact .inr rfl
    | _ => simp_all
  case dial hv =>
    have hs : c.state = .disconnected := by
      rcases hP with hs | hs
      · exact hs
      · rw [hs] at hv; cases hv
    exact ⟨⟨rfl, hb.fresh hs⟩, ⟨nofun, hb.opened, nofun, nofun⟩, fun _ => .inl rfl⟩
  case dialInvalid hv =>
    refine keep rfl rfl rfl ?_ (.inr rfl)
    rcases hP with hs | hs
    · rw [hs] at hv; cases hv
    · exact .inr hs
  case dialReturned =>
    obtain ⟨⟨hs, ho⟩, -⟩ := hP
    have hne : c.state ≠ .disconnected := by rw [hs]; decide
    have hle := Nat.succ_le_succ (Nat.le_of_eq ho)
    exact ⟨⟨hs, nofun⟩, ⟨hb.state, hle, fun hd => absurd hd hne, fun _ => nofun⟩,
      fun _ => .inl rfl⟩
  case dialRaised => exact keep rfl rfl rfl (.inl hP.1.1) (.inr rfl)
  case send => exact keep rfl rfl rfl hP (.inr rfl)
  case sendReturned | sendRaised => exact keep rfl rfl rfl hP.1 (.inr rfl)
  case connected =>
    exact ⟨.inl ⟨rfl, rfl⟩, ⟨nofun, hb.opened, nofun, fun _ => hP.2⟩, nofun⟩
  case connectedInvalid | subscribeRaised => exact keep rfl rfl rfl (.inl hP.1) (.inr rfl)
  case failClose => exact failed rfl rfl rfl
  case failNone => exact failed rfl rfl (.inr ⟨_, rfl⟩)
  case failInvalid hv =>
    rcases hP with hs | hs <;> (rw [hs] at hv; cases hv)
  case closeReturned | closeRaised =>
    exact failed (show c.state = .failed from hP.1) rfl (.inr ⟨_, rfl⟩)
  case endedTask => exact keep rfl rfl rfl hP (.inl rfl)
  case connectAwait | connectAcquire | acquire | queue | lockWoken | lockedAwait | taskRaised |
      enterConnect => exact keep rfl rfl rfl trivial (.inl rfl)
  all_goals exact hco.elim

theorem Edge.flight_all {c₀ : Conn S} {isDone : TaskId → Bool} {t : TaskId} {p : TaskId → Point S}
    {P P' : Point S} {c c' : Conn S} (h : Edge cfg isDone t P c P' c')
    (hf : Flight cfg c₀ (update p t P) c) : Flight cfg c₀ (update p t P') c' := by
  have hco : P.ConnectOnly cfg c := by have := hf.all.point t; rwa [update_self] at this
  have hP : P.Flight c₀ c := by have := hf.point t; rwa [update_self] at this
  have hw : P.awaitsUnderLock = false := by
    have := hf.all.disciplined.notAwaiting t
    rwa [update_self] at this
  have hidle : P.lockStatus = .holding → P.connecting = false → c.state ≠ .connecting :=
    fun hl hc => hf.ne_connecting (t := t) (by rwa [update_self]) (by rwa [update_self])
  obtain ⟨hP', hb', hbusy⟩ := h.flight hco hw hidle hf.budget hP
  refine ⟨h.allConnect hf.all, fun u => ?_, hb', fun hs => ?_⟩
  · by_cases hut : u = t
    · subst hut
      rw [update_self]
      exact hP'
    · have hu := hf.point u
      rw [update_of_ne hut] at hu ⊢
      cases ha : P.attempting with
      | true =>
        refine hu.congr (Bool.eq_false_iff.2 fun hua => hut ?_) (.inr (hP.ne_connected ha))
        exact hf.all.disciplined.mutex
          (by rw [update_of_ne hut]; exact Point.attempting_holding hua)
          (by rw [update_self]; exact Point.attempting_holding ha)
      | false =>
        obtain ⟨hs, hws, ho, -, -⟩ := h.frame hco ha
        exact hu.frame hs hws ho
  · rcases hbusy hs with hc | ⟨hs₀, hc⟩
    · exact ⟨t, by rwa [update_self]⟩
    · obtain ⟨u, hu⟩ := hf.busy hs₀
      have hut : u ≠ t := by
        rintro rfl
        rw [update_self, hc] at hu
        cases hu
      refine ⟨u, ?_⟩
      rwa [update_of_ne hut] at hu ⊢

/-! ## Steps -/

/-- What is needed of a step: nothing is cancelled, and an awaited task that has returned has left
the connector connected. -/
def Sys.Admitted (s : Sys S) (l : Label S) : Prop :=
  l.ConnectOnly ∧ ∀ t w, l = .resume t w → w ≠ .cancelled ∧ ∀ pc, (s.tasks t).call = some pc →
    pc.awaited ≠ none → w = .done → s.conn.state = .connected

theorem Flight.update {c₀ : Conn S} {p : TaskId → Point S} {c : Conn S} {t : TaskId} {P : Point S}
    (h : Flight cfg c₀ p c) (ha : AllConnect cfg (update p t P) c) (hP : P.Flight c₀ c)
    (hc : (p t).connecting = true → P.connecting = true) : Flight cfg c₀ (update p t P) c := by
  refine ⟨ha, fun u => ?_, h.budget, fun hs => ?_⟩
  · by_cases hut : u = t
    · subst hut
      rwa [update_self]
    · rw [update_of_ne hut]
      exact h.point u
  · obtain ⟨u, hu⟩ := h.busy hs
    refine ⟨u, ?_⟩
    by_cases hut : u = t
    · subst hut
      rw [update_self]
      exact hc hu
    · rwa [update_of_ne hut]

theorem keeps_flight (cfg : ExchangeConfig U) (c₀ : Conn S) :
    Keeps cfg Sys.Admitted (Flight (S := S) cfg c₀) where
  edge he hf := he.flight_all hf
  call {s t op} hg hi hf :=
    hf.update ((keeps_allConnect cfg).call hg.1 hi hf.all) trivial
      (fun hc => by rw [hi] at hc; cases hc)
  next hg := hg.1.elim
  resume {s t pc w} hg hp hf := by
    obtain ⟨hw, hdone⟩ := hg.2 t w rfl
    have hP : pc.Flight c₀ s.conn := by
      have := hf.point t
      rwa [hp] at this
    exact hf.update ((keeps_allConnect cfg).resume hg.1 hp hf.all)
      ⟨hP, hw, hdone pc (Sys.point_suspended.1 hp)⟩ (fun hc => by rw [hp] at hc; exact hc)
  rest {p t c P} hf := by
    have hP := hf.point t
    have hu := hf.update (t := t) (P := P.rest)
      (by simpa using (keeps_allConnect cfg).rest hf.all)
      (by rw [update_self] at hP; cases P <;> first | exact hP | trivial)
      (by rw [update_self]; cases P <;> exact id)
    simpa using hu

/-- The connector is connected, and nothing more has been dialed or sent. -/
def Rested (c₁ c : Conn S) : Prop :=
  c.state = .connected ∧ c.dials = c₁.dials ∧ c.sent = c₁.sent

theorem keeps_rested (cfg : ExchangeConfig U) (c₀ c₁ : Conn S) :
    Keeps cfg Sys.Admitted (fun p c => Flight (S := S) cfg c₀ p c ∧ Rested c₁ c) where
  edge {isDone t p P c P' c'} he hf := by
    obtain ⟨hf, hs, hd, hn⟩ := hf
    have hco : P.ConnectOnly cfg c := by have := hf.all.point t; rwa [update_self] at this
    have ha : P.attempting = false := by
      rw [← Bool.not_eq_true]
      intro ha
      exact (hf.point t).ne_connected (by rwa [update_self]) hs
    obtain ⟨hs', -, -, hd', hn'⟩ := he.frame hco ha
    exact ⟨he.flight_all hf, hs'.trans hs, hd'.trans hd, hn'.trans hn⟩
  call hg hi hf := ⟨(keeps_flight cfg c₀).call hg hi hf.1, hf.2⟩
  next hg := hg.1.elim
  resume hg hp hf := ⟨(keeps_flight cfg c₀).resume hg hp hf.1, hf.2⟩
  rest hf := ⟨(keeps_flight cfg c₀).rest hf.1, hf.2⟩

/-- The invariant of the system. -/
structure Sys.Flying (cfg : ExchangeConfig U) (c₀ : Conn S) (s : Sys S) : Prop where
  flight : Flight cfg c₀ s.point s.conn
  last : ∀ t r, (s.tasks t).last = some r →
    (r = .returned ∧ s.conn.state = .connected) ∨ r = .raised (connectFailure cfg)
  outcome : ∀ t r, (s.tasks t).outcome = some r → (s.tasks t).last = some r
  calm : ∀ t, (s.tasks t).cancelling = false
  doneIdle : s.DoneIdle

theorem Sys.Flying.admitted {c₀ : Conn S} {s s' : Sys S} {l : Label S} (h : s.Flying cfg c₀)
    (hl : s.OneConnect l) (hs : step cfg s l = some s') : s.Admitted l := by
  refine ⟨?_, ?_⟩
  · cases l with
    | call t op => cases op <;> trivial
    | next t => exact hl
    | _ => trivial
  · rintro t w rfl
    cases step_move hs with
    | @resume _ pc _ r hc ha hr =>
      unfold Sys.admits at ha
      refine ⟨?_, ?_⟩
      · rintro rfl
        cases hp : pc.awaited with
        | none =>
          rw [hp] at ha
          simp [h.calm t] at ha
        | some o =>
          rw [hp] at ha
          simp only [h.calm t, Bool.or_false, beq_iff_eq] at ha
          rcases h.last o _ (h.outcome o _ ha) with ⟨he, -⟩ | he <;> cases he
      · rintro pc' hc' hp rfl
        rw [hc] at hc'
        cases hc'
        obtain ⟨o, ho⟩ := Option.ne_none_iff_exists'.1 hp
        rw [ho] at ha
        simp only [beq_iff_eq] at ha
        rcases h.last o _ (h.outcome o _ ha) with ⟨-, hst⟩ | he
        · exact hst
        · cases he

/-- A connector that is connected stays so. -/
theorem Sys.Flying.rested {c₀ : Conn S} {s s' : Sys S} {l : Label S} (h : s.Flying cfg c₀)
    (hl : s.OneConnect l) (hs : step cfg s l = some s') (hc : s.conn.state = .connected) :
    Rested s.conn s'.conn :=
  ((keeps_rested cfg c₀ s.conn).step (h.admitted hl hs) ⟨h.flight, hc, rfl, rfl⟩ hs).2

/-- How a segment of a task leaves its last call. -/
theorem Sys.Flying.settle_last {c₀ : Conn S} {s : Sys S} {t : TaskId} {k : Task S} {P : Point S}
    {r : Conn S × Act S} (h : s.Flying cfg c₀) (hk : k.last = (s.tasks t).last)
    (hst : s.conn.state = .connected → r.1.state = .connected)
    (hp : Path cfg s.isDone t (P, s.conn) (r.2.point, r.1))
    (hf : Flight cfg c₀ (Function.update s.point t P) s.conn) (u : TaskId) (o : Outcome)
    (ho : ((s.settle t k r).tasks u).last = some o) :
    (o = .returned ∧ (s.settle t k r).conn.state = .connected) ∨
      o = .raised (connectFailure cfg) := by
  rw [Sys.settle_conn]
  have old : ∀ {v}, (s.tasks v).last = some o →
      (o = .returned ∧ r.1.state = .connected) ∨ o = .raised (connectFailure cfg) := by
    intro v hv
    rcases h.last v o hv with ⟨hr, hc⟩ | hr
    · exact .inl ⟨hr, hst hc⟩
    · exact .inr hr
  by_cases hut : u = t
  · subst hut
    rcases s.settle_last u k r with he | ⟨o', hro, he⟩
    · rw [he, hk] at ho
      exact old ho
    · rw [he] at ho
      cases ho
      have hend := (keeps_flight cfg c₀).path hp hf
      have hF := hend.point u
      have hC := hend.all.point u
      rw [Function.update_self] at hF hC
      simp only [hro] at hF hC
      rcases hF with hF | ⟨e, rfl⟩
      · exact .inl hF
      · exact .inr (by rw [hC e rfl])
  · rw [Sys.settle_tasks_ne s hut] at ho
    exact old ho

/-- A segment does not touch what is known of the tasks that are done. -/
theorem Sys.Flying.settle_outcome {c₀ : Conn S} {s : Sys S} {t : TaskId} {k : Task S}
    {r : Conn S × Act S} (h : s.Flying cfg c₀) (hk : k.outcome = none) (u : TaskId) (o : Outcome)
    (ho : ((s.settle t k r).tasks u).outcome = some o) :
    ((s.settle t k r).tasks u).last = some o := by
  by_cases hut : u = t
  · subst hut
    rw [Sys.settle_outcome, hk] at ho
    cases ho
  · rw [Sys.settle_tasks_ne s hut] at ho ⊢
    exact h.outcome u o ho

theorem Sys.Flying.settle_calm {c₀ : Conn S} {s : Sys S} {t : TaskId} {k : Task S}
    {r : Conn S × Act S} (h : s.Flying cfg c₀) (hk : k.cancelling = false) (u : TaskId) :
    ((s.settle t k r).tasks u).cancelling = false := by
  by_cases hut : u = t
  · subst hut
    rw [Sys.settle_cancelling, hk]
  · rw [Sys.settle_tasks_ne s hut]
    exact h.calm u

theorem step_flying {c₀ : Conn S} {s s' : Sys S} {l : Label S} (h : s.Flying cfg c₀)
    (hl : s.OneConnect l) (hs : step cfg s l = some s') : s'.Flying cfg c₀ := by
  have hg := h.admitted hl hs
  have hflight := (keeps_flight cfg c₀).step hg h.flight hs
  have hidle := step_doneIdle h.doneIdle hs
  have hrest := h.rested hl hs
  cases step_move hs with
  | @call t op ho hc =>
    refine ⟨hflight, ?_, h.settle_outcome ho, h.settle_calm (h.calm t), hidle⟩
    refine h.settle_last rfl (fun hst => ?_) (enter_path _ op)
      ((keeps_flight cfg c₀).call hg (Sys.point_idle.2 hc) h.flight)
    have := (hrest hst).1
    rwa [Sys.settle_conn] at this
  | next => exact hl.elim
  | @resume t pc w r hc _ hr =>
    refine ⟨hflight, ?_, h.settle_outcome (h.doneIdle.outcome (.inl (by rw [hc]; simp))),
      h.settle_calm rfl, hidle⟩
    refine h.settle_last rfl (fun hst => ?_) (advance_path hr)
      ((keeps_flight cfg c₀).resume hg (Sys.point_suspended.2 hc) h.flight)
    have := (hrest hst).1
    rwa [Sys.settle_conn] at this
  | cancel => exact hl.elim
  | @exit t o _ _ _ =>
    have htask : ∀ u, ((s.setTask t { s.tasks t with generator := none, outcome := some o }).tasks
        u).last = (s.tasks u).last ∧
        ((s.setTask t { s.tasks t with generator := none, outcome := some o }).tasks
          u).cancelling = (s.tasks u).cancelling := by
      intro u
      by_cases hut : u = t
      · subst hut
        rw [Sys.setTask_self]
        exact ⟨rfl, rfl⟩
      · rw [Sys.setTask_ne s hut]
        exact ⟨rfl, rfl⟩
    refine ⟨hflight, fun u r hu => ?_, fun u r hu => ?_, fun u => ?_, hidle⟩
    · rw [(htask u).1] at hu
      exact h.last u r hu
    · rw [(htask u).1]
      by_cases hut : u = t
      · subst hut
        rw [Sys.setTask_self] at hu
        cases hu
        exact hl
      · rw [Sys.setTask_ne s hut] at hu
        exact h.outcome u r hu
    · rw [(htask u).2]
      exact h.calm u

theorem flying_fresh {c : Conn S} (hs : c.state = .disconnected)
    (hl : c.connectLock = AsyncLock.free) (ht : c.connectingTask = none) :
    (Sys.fresh c).Flying cfg c where
  flight := by
    refine ⟨⟨⟨?_, fun t => ?_, fun _ => rfl⟩, fun _ => trivial⟩, fun _ => trivial, ?_, ?_⟩
    · show c.connectLock.Coherent _
      rw [hl]
      exact AsyncLock.coherent_free
    · show c.connectingTask = some t ↔ _
      rw [ht]
      exact ⟨nofun, nofun⟩
    · have hne : ∀ x, x ≠ .disconnected → c.state ≠ x := fun x hx he => hx (he.symm.trans hs)
      exact ⟨hne _ (by decide), Nat.le_succ _, fun _ => rfl, fun hc => absurd hc (hne _ (by decide))⟩
    · intro hc
      rw [show (Sys.fresh c).conn.state = c.state from rfl, hs] at hc
      cases hc
  last _ _ h := by cases h
  outcome _ _ h := by cases h
  calm _ := rfl
  doneIdle _ h := by cases h

/-! ## Single flight -/

theorem Sys.Flying.single {c₀ : Conn S} {s : Sys S} (h : s.Flying cfg c₀) :
    s.SingleFlight cfg c₀ := by
  refine ⟨fun t u k j ht hu => ?_, h.flight.budget.opened, fun t r hr => ?_⟩
  · have ht := Sys.point_suspended.2 ht
    have hu := Sys.point_suspended.2 hu
    exact h.flight.all.disciplined.mutex (by rw [ht]; rfl) (by rw [hu]; rfl)
  · rcases h.last t r hr with ⟨he, hc⟩ | he
    · exact .inl ⟨he, hc, h.flight.budget.connected hc⟩
    · exact .inr he

/-- Nobody is in the middle of an attempt on a connector that is connected. -/
theorem Sys.Flying.noAttempt {c₀ : Conn S} {s : Sys S} (h : s.Flying cfg c₀)
    (hc : s.conn.state = .connected) (t : TaskId) : (s.point t).attempting = false := by
  rw [← Bool.not_eq_true]
  intro ha
  exact (h.flight.point t).ne_connected ha hc

/-- **Single flight.**  Any number of tasks, each of whose body is one `connect()`, in any order
and interleaving, on a connector that is at rest and `DISCONNECTED`: at any moment at most one dial
is in flight, at most one ever succeeds, every `connect()` that returns leaves the connector
connected and every other one raises `ConnectionFailedError`; and once an attempt has succeeded
nothing more is dialed or subscribed to. -/
theorem singleFlight {c₀ : Conn S} (hs : c₀.state = .disconnected)
    (hl : c₀.connectLock = AsyncLock.free) (ht : c₀.connectingTask = none) {ls : List (Label S)}
    {s : Sys S} (hg : Guarded (step cfg) Sys.OneConnect (Sys.fresh c₀) ls)
    (hr : run (step cfg) (Sys.fresh c₀) ls = some s) :
    s.SingleFlight cfg c₀ ∧ (s.conn.state = .connected → ∀ ms s',
      Guarded (step cfg) Sys.OneConnect s ms → run (step cfg) s ms = some s' → s.Settled s') := by
  have hkeep : ∀ (s : Sys S) l s', s.Flying cfg c₀ → s.OneConnect l →
      step cfg s l = some s' → s'.Flying cfg c₀ := fun _ _ _ h hl hs => step_flying h hl hs
  have hf : s.Flying cfg c₀ := run_guarded_invariant hkeep (flying_fresh hs hl ht) hg hr
  refine ⟨hf.single, fun hc ms s' hgm hrm => ?_⟩
  obtain ⟨hf', hst, hd, hn⟩ := run_guarded_invariant
    (P := fun s' => s'.Flying cfg c₀ ∧ Rested s.conn s'.conn)
    (fun a l b hab hlb hsb => by
      refine ⟨step_flying hab.1 hlb hsb, ?_⟩
      obtain ⟨h₁, h₂, h₃⟩ := hab.1.rested hlb hsb hab.2.1
      exact ⟨h₁, h₂.trans hab.2.2.1, h₃.trans hab.2.2.2⟩)
    ⟨hf, hc, rfl, rfl⟩ hgm hrm
  refine ⟨hd, hn, fun t k hcall => ?_, fun t k w p q hcall => ?_⟩
  all_goals
    have hno := hf'.noAttempt hst t
    rw [Sys.point_suspended.2 hcall] at hno
    cases hno

/-! ## Three callers -/

/-- Task 0 dials and is connected; task 1 waits for it, task 2 comes afterwards. -/
def threeCallers : List (Label concurrencyTestConnector) :=
  [.call 0 .connect, .call 1 .connect, .resume 0 .done, .exit 0 .returned, .call 2 .connect,
    .resume 1 .done]

theorem threeCallers_oneConnect : Guarded (step testConfig) Sys.OneConnect
    (Sys.fresh (Conn.init concurrencyTestConnector ())) threeCallers :=
  .cons rfl rfl (.cons rfl rfl (.cons trivial rfl (.cons rfl rfl (.cons rfl rfl
    (.cons trivial rfl trivial)))))

/-- `singleFlight` of that run. -/
theorem singleFlight_threeCallers : ∃ s,
    run (step testConfig) (Sys.fresh (Conn.init concurrencyTestConnector ())) threeCallers = some s ∧
    s.SingleFlight testConfig (Conn.init concurrencyTestConnector ()) ∧
    (s.conn.state = .connected → ∀ ms s', Guarded (step testConfig) Sys.OneConnect s ms →
      run (step testConfig) s ms = some s' → s.Settled s') :=
  ⟨_, rfl, singleFlight rfl rfl rfl threeCallers_oneConnect rfl⟩

end FlinkPractices.Connector
