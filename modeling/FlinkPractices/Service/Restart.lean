import FlinkPractices.Connector.Attempt
import FlinkPractices.Service.UseCase

/-!
# Starting again

`start()` over a websocket connector, called when nothing is in progress (`Sys.AtRest`).
`Sys.Retries` is what a caller expects of it while dialing and sending succeed: it dials, and
ends with the connector connected, the status running and a new consumption loop.

`connect()` can leave the states `DISCONNECTED` and `CONNECTING` only, and a `connect()` that has
failed leaves `FAILED`.

Principal results:

* `retries_iff` — `start()` retries iff the service is not running and the connector is in one of
  these two states (`Sys.Retryable`), in every reachable state at rest;
* `not_retries_of_failed` — after a failed `start()` it does not, however often `stop()` is called
  in between.

## Proof

* `retries_of_retryable` — step by step: the first step dials, the second subscribes, and the sends
  that follow are counted by `Subscribes` (`run_sends`)
* `not_retries` — from the other states `start()` ends in its first segment, or closes the socket of
  an earlier connection and raises
* `Sys.Unborn` — the tasks that do not exist yet are as they will be created, since no name is given
  twice (`Leads.nextTask`)
* `failed_of_start` — by the assertion `Attempt` of `Connector.Attempt`, carried through the runs of
  a `start()` made at rest (`run_attempting`)

`refusedDial_not_retried` is `not_retries_of_failed` at a dial that is refused.
-/

set_option autoImplicit false

namespace FlinkPractices.Service

open Lib
open Connector (TaskId Conn Subclass Ws ConnectPc ConnectAct SendStep SendsThrough Subscribes
  Attempt dialing connect_atRest connect_dials connect_refuses connectFailed_cases
  connectSubscribed_connecting path_attempt attempt_atRest)

variable {U : UpperTable} {S : Subclass} {cfg : ExchangeConfig U}
variable {message : S.Msg → MarketDataMessage} {Q : PublisherPort}

/-! ## What is expected -/

/-- No operation is in progress: nobody holds a lock, and no attempt is in flight. -/
structure Sys.AtRest (s : Sys (webSocket S cfg message) Q) : Prop where
  lock : s.service.lock = AsyncLock.free
  connectLock : Conn.connectLock s.service.connector = AsyncLock.free
  connectingTask : Conn.connectingTask s.service.connector = none

/-- The client `t` may call the service. -/
structure Sys.Free (s : Sys (webSocket S cfg message) Q) (t : TaskId) : Prop where
  client : t < s.clients
  outcome : (s.tasks t).outcome = none
  call : (s.tasks t).call = none
  cancelling : (s.tasks t).cancelling = false

/-- `start()` has dialed once since `s`, and everything runs. -/
structure Sys.StartedBy (s' s : Sys (webSocket S cfg message) Q) (t : TaskId) : Prop where
  call : (s'.tasks t).call = none
  last : (s'.tasks t).last = some .returned
  dials : Conn.dials s'.service.connector = Conn.dials s.service.connector + 1
  state : Conn.state s'.service.connector = .connected
  running : s'.service.getStatus.1 = true
  loop : ∃ b, s'.service.backgroundTask = some b ∧ s'.outcome b = none ∧
    (s'.tasks b).call = some .ready

/-- A `start()` of the client `t`, made now, when dialing and all sends succeed. -/
def Sys.Retries (s : Sys (webSocket S cfg message) Q) (t : TaskId) : Prop :=
  ∃ n s', run step s (.call t .start :: List.replicate n (.resume t (.wake .done))) = some s' ∧
    s'.StartedBy s t

/-- The states that `connect()` can leave. -/
def Sys.Retryable (s : Sys (webSocket S cfg message) Q) : Prop :=
  s.service.running = false ∧
    (Conn.state s.service.connector = .disconnected ∨
      Conn.state s.service.connector = .connecting)

/-! ## `start()` and `connect()` -/

/-- What `start()` of a client does after a segment of `connect()`. -/
def afterConnect (v : IngestionService (webSocket S cfg message) Q) (t : TaskId) :
    Conn S × ConnectAct S →
      IngestionService (webSocket S cfg message) Q × Act (webSocket S cfg message) Q
  | (c, .suspend pc) => ({ v with connector := c }, .suspend (.connecting .client pc))
  | (c, .finish .returned) => startConnected { v with connector := c } t .client
  | (c, .finish r) => startFailed { v with connector := c } t .client r

theorem advance_connecting (outcome : TaskId → Option Outcome)
    (v : IngestionService (webSocket S cfg message) Q) (t : TaskId) (pc : ConnectPc S)
    (w : Wake S.Frame) :
    advance outcome v t (.connecting .client pc) (.wake w) =
      (Connector.resumeConnect cfg (isDone outcome) v.connector t pc w.toConnector).map
        (afterConnect v t) := by
  unfold advance
  dsimp only [webSocket]
  rcases Connector.resumeConnect cfg (isDone outcome) v.connector t pc w.toConnector with
    _ | ⟨c, pc' | (_ | _ | _)⟩ <;> rfl

theorem startLocked_eq (outcome : TaskId → Option Outcome)
    {v : IngestionService (webSocket S cfg message) Q} (t : TaskId) (h : v.running = false) :
    startLocked outcome v t .client =
      afterConnect v t (Connector.connect cfg (isDone outcome) v.connector t) := by
  have hf := connect_first cfg (isDone outcome) v.connector t
  unfold startLocked
  rw [if_neg (by rw [h]; nofun)]
  dsimp only [webSocket]
  rcases hx : Connector.connect cfg (isDone outcome) v.connector t with ⟨c, pc' | (_ | _ | _)⟩
  · rfl
  · rfl
  · rfl
  · rw [hx] at hf; exact absurd rfl hf

/-! ## The steps of `start()` -/

theorem Sys.settle_finish {P : ConnectorPort U} {s : Sys P Q} {t : TaskId} (h : t < s.clients)
    (k : Task P Q) (v : IngestionService P Q) (o : Outcome) :
    s.settle t k (v, .finish o) =
      { s.setTask t { k with call := none, last := some o } with service := v } := by
  simp only [Sys.settle, Sys.endCall, if_pos h]

/-- The first step. -/
theorem step_start {P : ConnectorPort U} {s : Sys P Q} {t : TaskId} (ht : t < s.clients)
    (ho : (s.tasks t).outcome = none) (hc : (s.tasks t).call = none) :
    step s (.call t .start) =
      some (s.settle t (s.tasks t) (start s.outcome s.service t .client)) := by
  simp [step, ht, ho, hc, Service.call]

/-- A step in which the `await` of `connect()` returns. -/
theorem step_connecting {s : Sys (webSocket S cfg message) Q} {t : TaskId} (pc : ConnectPc S)
    {x : Conn S × ConnectAct S} (ht : t < s.service.nextTask)
    (ho : (s.tasks t).outcome = none) (hk : (s.tasks t).cancelling = false)
    (hc : (s.tasks t).call = some (.connecting .client pc)) (hp : connectAwaits pc = none)
    (hx : Connector.resumeConnect cfg (isDone s.outcome) s.service.connector t pc .done =
      some x) :
    step s (.resume t (.wake .done)) =
      some (s.settle t { s.tasks t with cancelling := false } (afterConnect s.service t x)) := by
  have ha : advance s.outcome s.service t (.connecting .client pc) (.wake .done) =
      some (afterConnect s.service t x) := by
    rw [advance_connecting]
    simp only [Wake.toConnector, hx, Option.map_some]
  have hadm : s.admits (s.tasks t) (.connecting .client pc) (.wake .done) = true := by
    simp only [Sys.admits, hk, Pc.awaited, webSocket, hp]
    rfl
  simp only [step, hc, ht, ho, hadm, ha, and_self, if_true]

/-- A client that is in no call is not resumed. -/
theorem run_resume_idle {P : ConnectorPort U} {s s' : Sys P Q} {t : TaskId} {n : Nat}
    {w : Resume P} (hc : (s.tasks t).call = none)
    (h : run step s (List.replicate n (.resume t w)) = some s') : s' = s := by
  cases n with
  | zero => cases h; rfl
  | succ n =>
    obtain ⟨s₁, hs, -⟩ := run_cons_some h
    simp only [step, hc] at hs
    cases hs

/-! ## A dial that succeeds -/

/-- `start()` has ended well since the attempt on `c`, and has left the other tasks alone. -/
structure Sys.Connected (s' : Sys (webSocket S cfg message) Q) (t : TaskId) (c : Conn S)
    (next : TaskId) (tasks : TaskId → Task (webSocket S cfg message) Q) : Prop where
  call : (s'.tasks t).call = none
  last : (s'.tasks t).last = some .returned
  dials : Conn.dials s'.service.connector = c.dials
  state : Conn.state s'.service.connector = .connected
  running : s'.service.running = true
  background : s'.service.backgroundTask = some next
  others : ∀ u, u ≠ t → s'.tasks u = tasks u

/-- From a segment of the subscription on: all sends succeed. -/
theorem run_sends {t : TaskId} {w : Ws} {n : Nat} {x : S.Inst × SendStep S.Coro S.Payload}
    (hx : SendsThrough S (some w) n x) :
    ∀ {s : Sys (webSocket S cfg message) Q} {k : Task (webSocket S cfg message) Q}
      {v : IngestionService (webSocket S cfg message) Q} {c : Conn S},
      t < s.clients → t < v.nextTask → k.outcome = none → k.cancelling = false →
      c.state = .connecting → c.websocket = some w →
      ∃ s', run step (s.settle t k (afterConnect v t (Connector.connectSending cfg c t x)))
          (List.replicate n (.resume t (.wake .done))) = some s' ∧
        s'.Connected t c v.nextTask s.tasks := by
  induction hx with
  | @returned i =>
    intro s k v c ht _ _ _ hs _
    have hc : Connector.connectSending cfg c t (i, .returned) =
        (Connector.connectFinally { c with inst := i, state := .connected, reconnectAttempts := 0 } t,
          .finish .returned) := connectSubscribed_connecting (c := { c with inst := i }) t hs
    rw [hc]
    refine ⟨_, rfl, ?_⟩
    simp only [afterConnect, startConnected, afterStart]
    rw [Sys.settle_finish ht]
    exact ⟨by simp, by simp, rfl, rfl, rfl, rfl, fun u hu => Sys.setTask_ne s hu _⟩
  | @send n i w' p q _ ih =>
    intro s k v c ht hn ho hk hs hw
    have hself : ∀ y : Conn S, (s.settle t k ({ v with connector := y },
        .suspend (.connecting .client (.sending w' p q)))).tasks t =
        { k with call := some (.connecting .client (.sending w' p q)) } := by
      intro y; simp [Sys.settle, Sys.setTask]
    have hstep := step_connecting (.sending w' p q)
      (s := s.settle t k ({ v with connector := { c with inst := i } },
        .suspend (.connecting .client (.sending w' p q)))) (t := t)
      hn (by rw [hself]; exact ho) (by rw [hself]; exact hk) (by rw [hself]) rfl rfl
    obtain ⟨s', hrun, hc⟩ := ih
      (s := s.settle t k ({ v with connector := { c with inst := i } },
        .suspend (.connecting .client (.sending w' p q))))
      (k := { k with call := some (.connecting .client (.sending w' p q)) })
      (v := { v with connector := { c with inst := i } })
      (c := { c with inst := i, sent := c.sent ++ [(w', p)] }) ht hn ho hk hs hw
    refine ⟨s', ?_, { hc with others := fun u hu => ?_ }⟩
    · rw [List.replicate_succ]
      apply (run_cons_of_step hstep _).trans
      rw [hself] at hstep ⊢
      rw [← hrun, ← hk, ← hw]
      rfl
    · rw [hc.others u hu]
      exact Sys.setTask_ne s hu _

/-- The tasks that do not exist yet. -/
structure Sys.Unborn {P : ConnectorPort U} (s : Sys P Q) : Prop where
  clients : s.clients ≤ s.service.nextTask
  unborn : ∀ u, s.service.nextTask ≤ u → (s.tasks u).call = some .ready ∧ s.outcome u = none

theorem start_atRest {s : Sys (webSocket S cfg message) Q} (h : s.AtRest) (t : TaskId)
    (hr : s.service.running = false) :
    start s.outcome s.service t .client =
      afterConnect { s.service with lock := ⟨some t, []⟩ } t
        (Connector.connect cfg (isDone s.outcome) s.service.connector t) := by
  unfold start
  rw [h.lock, AsyncLock.tryAcquire_free]
  exact startLocked_eq s.outcome (v := { s.service with lock := ⟨some t, []⟩ }) t hr

/-- A `start()` that `t` makes at rest has suspended in its `connect()`, at `pc`. -/
def Sys.starting (s : Sys (webSocket S cfg message) Q) (t : TaskId) (c : Conn S)
    (pc : ConnectPc S) : Sys (webSocket S cfg message) Q :=
  s.settle t (s.tasks t)
    ({ s.service with lock := ⟨some t, []⟩, connector := c }, .suspend (.connecting .client pc))

theorem Sys.starting_self (s : Sys (webSocket S cfg message) Q) (t : TaskId) (c : Conn S)
    (pc : ConnectPc S) :
    (s.starting t c pc).tasks t = { s.tasks t with call := some (.connecting .client pc) } := by
  simp [starting, Sys.settle, Sys.setTask]

/-- The second step of that `start()`, when what it awaits returns. -/
theorem Sys.Free.step_starting {s : Sys (webSocket S cfg message) Q} {t : TaskId} (hf : s.Free t)
    (ht : t < s.service.nextTask) (c : Conn S) (pc : ConnectPc S) {x : Conn S × ConnectAct S}
    (hp : connectAwaits pc = none)
    (hx : Connector.resumeConnect cfg (isDone (s.starting t c pc).outcome) c t pc .done = some x) :
    step (s.starting t c pc) (.resume t (.wake .done)) =
      some ((s.starting t c pc).settle t
        { (s.starting t c pc).tasks t with cancelling := false }
        (afterConnect { s.service with lock := ⟨some t, []⟩, connector := c } t x)) :=
  step_connecting pc ht (by rw [Sys.starting_self]; exact hf.outcome)
    (by rw [Sys.starting_self]; exact hf.cancelling) (by rw [Sys.starting_self]) hp hx

/-- A connector that has dialed: the socket is its own from now on. -/
def dialed (c : Conn S) (t : TaskId) : Conn S :=
  { dialing c t with websocket := some c.opened, opened := c.opened + 1 }

/-- **From a state that `connect()` can leave, `start()` retries.** -/
theorem retries_of_retryable (hS : Subscribes S) {s : Sys (webSocket S cfg message) Q}
    {t : TaskId} (hu : s.Unborn) (hrest : s.AtRest) (hf : s.Free t) (h : s.Retryable) :
    s.Retries t := by
  obtain ⟨hrun, hstate⟩ := h
  obtain ⟨c, hc⟩ : ∃ c : Conn S, c = s.service.connector := ⟨_, rfl⟩
  have htn : t < s.service.nextTask := Nat.lt_of_lt_of_le hf.client hu.clients
  -- the first step dials
  have hfirst : step s (.call t .start) = some (s.starting t (dialing c t) .dialing) := by
    rw [step_start hf.client hf.outcome hf.call, start_atRest hrest t hrun,
      connect_dials _ t hrest.connectLock hrest.connectingTask hstate, ← hc]
    rfl
  -- the second one subscribes on the new socket
  have hsecond := hf.step_starting htn (dialing c t) .dialing
    (x := Connector.connectSending cfg (dialed c t) t
      (S.sendSubscriptionMessage c.inst (some c.opened))) rfl rfl
  obtain ⟨n, hn⟩ := hS c.inst c.opened
  obtain ⟨s', hs', hd⟩ := run_sends hn (s := s.starting t (dialing c t) .dialing)
    (k := { (s.starting t (dialing c t) .dialing).tasks t with cancelling := false })
    (v := { s.service with lock := ⟨some t, []⟩, connector := dialing c t }) (c := dialed c t)
    hf.client htn (by rw [Sys.starting_self]; exact hf.outcome) rfl rfl rfl
  refine ⟨n + 1, s', ?_, hd.call, hd.last, by rw [hd.dials, ← hc]; rfl, hd.state, hd.running,
    s.service.nextTask, hd.background, ?_⟩
  · rw [run_cons_of_step hfirst, List.replicate_succ, run_cons_of_step hsecond, hs']
  · have hne : s.service.nextTask ≠ t := Nat.ne_of_gt htn
    have hb : s'.tasks s.service.nextTask = s.tasks s.service.nextTask :=
      (hd.others _ hne).trans (Sys.setTask_ne s hne _)
    obtain ⟨h₁, h₂⟩ := hu.unborn s.service.nextTask (Nat.le_refl _)
    exact ⟨by rw [Sys.outcome, hb]; exact h₂, by rw [hb]; exact h₁⟩

/-! ## A dial that is not made -/

/-- A `start()` that ends in its first segment, otherwise than expected. -/
theorem not_retries_of_finish {s : Sys (webSocket S cfg message) Q} {t : TaskId} (hf : s.Free t)
    {v : IngestionService (webSocket S cfg message) Q} {o : Outcome}
    (h : start s.outcome s.service t .client = (v, .finish o))
    (ho : o ≠ .returned ∨ Conn.dials v.connector = Conn.dials s.service.connector) :
    ¬s.Retries t := by
  rintro ⟨n, s', hr, hs'⟩
  rw [run_cons_of_step (step_start hf.client hf.outcome hf.call), h,
    Sys.settle_finish hf.client] at hr
  have he := run_resume_idle (by simp) hr
  rcases ho with ho | ho
  · have hlast := hs'.last
    rw [he] at hlast
    simp only [Sys.setTask, Function.update_self, Option.some.injEq] at hlast
    exact ho hlast
  · have hdials := hs'.dials
    rw [he] at hdials
    have : Conn.dials v.connector = Conn.dials s.service.connector + 1 := hdials
    omega

/-- One that closes the socket of an earlier connection, and raises. -/
theorem not_retries_of_closing {s : Sys (webSocket S cfg message) Q} {t : TaskId} (hf : s.Free t)
    (ht : t < s.service.nextTask) {c : Conn S} {w : Ws}
    (h : step s (.call t .start) = some (s.starting t c (.closing w))) : ¬s.Retries t := by
  rintro ⟨n, s', hr, hs'⟩
  rw [run_cons_of_step h] at hr
  cases n with
  | zero =>
    have hcall := hs'.call
    rw [← Option.some.inj hr, Sys.starting_self] at hcall
    cases hcall
  | succ n =>
    have hsecond := hf.step_starting ht c (.closing w)
      (x := (Connector.connectFinally (Connector.cleanupDone c) t,
        .finish (.raised (Connector.connectFailure cfg)))) rfl rfl
    rw [List.replicate_succ, run_cons_of_step hsecond] at hr
    simp only [afterConnect, startFailed, afterStart] at hr
    rw [Sys.settle_finish (s := s.starting t c (.closing w)) hf.client] at hr
    have he := run_resume_idle (by simp) hr
    have hlast := hs'.last
    rw [he] at hlast
    simp [Sys.setTask] at hlast

/-- **From the other states `start()` does not retry.** -/
theorem not_retries {s : Sys (webSocket S cfg message) Q} {t : TaskId} (hu : s.Unborn)
    (hrest : s.AtRest) (hf : s.Free t) (h : ¬s.Retryable) : ¬s.Retries t := by
  have htn : t < s.service.nextTask := Nat.lt_of_lt_of_le hf.client hu.clients
  cases hrun : s.service.running with
  | true =>
    have hstart : start s.outcome s.service t .client =
        startFailed { s.service with lock := ⟨some t, []⟩ } t .client
          (.raised (.runtimeError "Service is already running")) := by
      unfold start
      rw [hrest.lock, AsyncLock.tryAcquire_free]
      exact if_pos hrun
    exact not_retries_of_finish hf hstart (.inl nofun)
  | false =>
    have hstart := start_atRest hrest t hrun
    by_cases hc : Conn.state s.service.connector = .connected
    · rw [connect_atRest _ t hrest.connectLock hrest.connectingTask, if_pos hc] at hstart
      exact not_retries_of_finish hf hstart (.inr rfl)
    · rw [connect_refuses _ t hrest.connectLock hrest.connectingTask hc
        fun hs => h ⟨hrun, hs⟩] at hstart
      rcases connectFailed_cases cfg { (s.service.connector : Conn S) with
        connectLock := ⟨some t, []⟩, connectingTask := some t } t with
        ⟨c, e, hcf⟩ | ⟨c, w, hcf⟩
      · rw [hcf] at hstart
        exact not_retries_of_finish hf hstart (.inl nofun)
      · rw [hcf] at hstart
        refine not_retries_of_closing hf htn (c := c) (w := w) ?_
        rw [step_start hf.client hf.outcome hf.call, hstart]
        rfl

/-! ## When `start()` retries -/

/-- No name is given twice. -/
theorem Arc.nextTask {P : ConnectorPort U} {outcome : TaskId → Option Outcome} {t : TaskId}
    {p p' : Node P Q} {s s' : IngestionService P Q} (ha : Arc outcome t p s p' s') :
    s.nextTask ≤ s'.nextTask := by
  cases ha with
  | connectReturned => exact Nat.le_succ _
  | turn h => exact Nat.le_of_eq (turn_counted h).1.nextTask.symm
  | publishEnded _ h => exact Nat.le_of_eq (endTurn_counted h).1.nextTask.symm
  | _ => exact Nat.le_refl _

theorem Leads.nextTask {P : ConnectorPort U} {outcome : TaskId → Option Outcome} {t : TaskId}
    {p : Node P Q} {s : IngestionService P Q} {r : IngestionService P Q × Act P Q}
    (h : Leads outcome t p s r) : s.nextTask ≤ r.1.nextTask :=
  h.keeps (J := fun _ v => s.nextTask ≤ v.nextTask) (fun ha hn => hn.trans ha.nextTask)
    (Nat.le_refl _)

theorem Sys.Unborn.settled {P : ConnectorPort U} {s s' : Sys P Q} {t : TaskId}
    {r : IngestionService P Q × Act P Q} (hu : s.Unborn) (ht : t < s.service.nextTask)
    (hn : s.service.nextTask ≤ r.1.nextTask) (hs : Settled s s' t r) : s'.Unborn := by
  refine ⟨by rw [hs.clients, hs.service]; exact Nat.le_trans hu.clients hn, fun u hle => ?_⟩
  rw [hs.service] at hle
  have hle := Nat.le_trans hn hle
  obtain ⟨h₁, h₂⟩ := hs.others u (Nat.ne_of_gt (Nat.lt_of_lt_of_le ht hle))
  rw [h₁, h₂]
  exact hu.unborn u hle

theorem Sys.Unborn.step {P : ConnectorPort U} {s s' : Sys P Q} {l : Label P} (hu : s.Unborn)
    (h : Service.step s l = some s') : s'.Unborn := by
  cases step_effect h with
  | first ht _ _ hs =>
    exact hu.settled (Nat.lt_of_lt_of_le ht hu.clients) (call_leads _).nextTask hs
  | later ht _ _ _ hr hs => exact hu.settled ht (advance_leads hr).nextTask hs
  | quiet _ hs hcl hc ho =>
    refine ⟨by rw [hs, hcl]; exact hu.clients, fun u hle => ?_⟩
    rw [hs] at hle
    refine ⟨(hc u).trans (hu.unborn u hle).1, ?_⟩
    rcases ho u with ho | ho
    · exact ho.trans (hu.unborn u hle).2
    · exact absurd ho.1 (Nat.not_lt.2 (Nat.le_trans hu.clients hle))

theorem unborn_init {P : ConnectorPort U} (connector : P.State) (publisher : Q.State)
    (maxConsecutiveFailures clients : Nat) :
    (Sys.init connector publisher maxConsecutiveFailures clients).Unborn :=
  ⟨Nat.le_refl _, fun _ hu => ⟨if_neg (Nat.not_lt.2 hu), rfl⟩⟩

/-- **When `start()` retries.**  In every state that a run of any number of clients reaches and
in which no operation is in progress, a `start()` of a free client, while dialing and sending
succeed, dials once and ends connected, running and with a new loop iff the service is not
running and the connector is `DISCONNECTED` or `CONNECTING`. -/
theorem retries_iff (hS : Subscribes S) {inst : S.Inst} {publisher : Q.State}
    {maxConsecutiveFailures clients : Nat} {ls : List (Label (webSocket S cfg message))}
    {s : Sys (webSocket S cfg message) Q}
    (h : run step (Sys.init (Conn.init S inst) publisher maxConsecutiveFailures clients) ls =
      some s) (hrest : s.AtRest) {t : TaskId} (hf : s.Free t) : s.Retries t ↔ s.Retryable := by
  have hu : s.Unborn := run_invariant (P := Sys.Unborn) (fun _ _ _ hi hs => hi.step hs)
    (unborn_init _ publisher maxConsecutiveFailures clients) h
  constructor
  · intro hr
    by_contra hn
    exact not_retries hu hrest hf hn hr
  · exact retries_of_retryable hS hu hrest hf

/-! ## After a `start()` that has failed -/

/-- Nothing is in progress, the service is not running, and the connector is `FAILED`. -/
structure Sys.Failed (s : Sys (webSocket S cfg message) Q) : Prop where
  atRest : s.AtRest
  running : s.service.running = false
  state : Conn.state s.service.connector = .failed

/-- The client `t` is in a `start()` made at rest. -/
def Sys.Attempting (s : Sys (webSocket S cfg message) Q) (t : TaskId) : Prop :=
  ∃ pc, (s.tasks t).call = some (.connecting .client pc) ∧ s.service.lock = ⟨some t, []⟩ ∧
    s.service.running = false ∧
    Attempt t (.suspended (.connect .task pc), (s.service.connector : Conn S))

/-- The `start()` of `t` is over, and if it has raised the connector is `FAILED`. -/
def Sys.Attempted (s : Sys (webSocket S cfg message) Q) (t : TaskId) : Prop :=
  (s.tasks t).call = none ∧ ∀ e, (s.tasks t).last = some (.raised e) → s.Failed

/-- A segment of `connect()` in it, written back. -/
theorem settle_attempt {s : Sys (webSocket S cfg message) Q} {t : TaskId}
    {k : Task (webSocket S cfg message) Q} {v : IngestionService (webSocket S cfg message) Q}
    {x : Conn S × ConnectAct S} (ht : t < s.clients) (hl : v.lock = ⟨some t, []⟩)
    (hr : v.running = false) (hx : Attempt t (x.2.point .task, x.1)) :
    (s.settle t k (afterConnect v t x)).Attempting t ∨
      (s.settle t k (afterConnect v t x)).Attempted t := by
  obtain ⟨c, a⟩ := x
  cases a with
  | suspend pc =>
    exact .inl ⟨pc, by simp [afterConnect, Sys.settle, Sys.setTask], hl, hr, hx⟩
  | finish r =>
    right
    cases r with
    | cancelled => exact absurd hx.2 id
    | returned =>
      simp only [afterConnect, startConnected, afterStart]
      rw [Sys.settle_finish ht]
      exact ⟨by simp [Sys.setTask], by simp [Sys.setTask]⟩
    | raised e =>
      simp only [afterConnect, startFailed, afterStart]
      rw [Sys.settle_finish ht]
      obtain ⟨h₁, h₂⟩ := Attempt.ended hx
      exact ⟨by simp [Sys.setTask],
        fun _ _ => ⟨⟨by simp [hl, AsyncLock.release, AsyncLock.free], h₁, h₂⟩, hr, hx.2⟩⟩

theorem Sys.Attempting.step {s s' : Sys (webSocket S cfg message) Q} {t : TaskId}
    {w : Wake S.Frame} (ht : t < s.clients) (hw : w ≠ .cancelled) (h : s.Attempting t)
    (hs : Service.step s (.resume t (.wake w)) = some s') :
    s'.clients = s.clients ∧ (s'.Attempting t ∨ s'.Attempted t) := by
  obtain ⟨pc, hc, hl, hr, ha⟩ := h
  cases step_move hs with
  | resume _ _ hc' _ hadv =>
    rw [hc] at hc'
    cases hc'
    rw [advance_connecting, Option.map_eq_some_iff] at hadv
    obtain ⟨x, hx, rfl⟩ := hadv
    refine ⟨Sys.settle_clients .., settle_attempt ht hl hr ?_⟩
    refine path_attempt (Connector.resumeConnect_path hx) ⟨?_, ha.2, ?_⟩
    · have hd := ha.1.update_of_eq (t := t) (P := .resumed (.connect .task pc) w.toConnector)
        (by rw [Function.update_self]; rfl) (by rw [Function.update_self]; rfl)
        (by rw [Function.update_self]; rfl)
      rwa [Function.update_idem] at hd
    · cases w with
      | cancelled => exact absurd rfl hw
      | _ => nofun

theorem run_attempting {t : TaskId} : ∀ {ws : List (Wake S.Frame)}
    {s s' : Sys (webSocket S cfg message) Q}, t < s.clients → (∀ w ∈ ws, w ≠ .cancelled) →
    s.Attempting t ∨ s.Attempted t →
    run step s (ws.map fun w => .resume t (.wake w)) = some s' →
    s'.Attempting t ∨ s'.Attempted t
  | [], s, s', _, _, h, hr => by cases hr; exact h
  | w :: ws, s, s', ht, hw, h, hr => by
    obtain ⟨s₁, hs, hr⟩ := run_cons_some hr
    rcases h with h | h
    · obtain ⟨hcl, h₁⟩ := h.step ht (hw w List.mem_cons_self) hs
      exact run_attempting (by rw [hcl]; exact ht)
        (fun x hx => hw x (List.mem_cons_of_mem w hx)) h₁ hr
    · simp only [step, h.1] at hs
      cases hs

/-- **A `start()` that raises because `connect()` failed** leaves the connector `FAILED`: made at
rest on a service that is not running, and resumed with any results but a cancellation. -/
theorem failed_of_start {s s' : Sys (webSocket S cfg message) Q} {t : TaskId}
    {ws : List (Wake S.Frame)} {e : PyExn} (hrest : s.AtRest) (hrun : s.service.running = false)
    (hf : s.Free t) (hw : ∀ w ∈ ws, w ≠ .cancelled)
    (hr : run step s (.call t .start :: ws.map fun w => .resume t (.wake w)) = some s')
    (hc : (s'.tasks t).call = none) (hl : (s'.tasks t).last = some (.raised e)) : s'.Failed := by
  rw [run_cons_of_step (step_start hf.client hf.outcome hf.call),
    start_atRest hrest t hrun] at hr
  have ha : Attempt t
      ((Connector.connect cfg (isDone s.outcome) s.service.connector t).2.point .task,
        (Connector.connect cfg (isDone s.outcome) s.service.connector t).1) :=
    path_attempt (Connector.connect_path _) (attempt_atRest t hrest.connectLock hrest.connectingTask)
  have h₁ := settle_attempt (s := s) (k := s.tasks t)
    (v := { s.service with lock := ⟨some t, []⟩ }) hf.client rfl hrun ha
  rcases run_attempting (by rw [Sys.settle_clients]; exact hf.client) hw h₁ hr with h | h
  · obtain ⟨pc, hpc, -⟩ := h
    rw [hpc] at hc
    cases hc
  · exact h.2 e hl

/-- `stop()` on a service that is not running does nothing. -/
theorem Sys.Failed.stop {s s' : Sys (webSocket S cfg message) Q} {t : TaskId} (h : s.Failed)
    (hs : step s (.call t .stop) = some s') : s'.Failed := by
  cases step_move hs with
  | call =>
    have he : Service.call s.outcome s.service t .stop =
        ({ s.service with lock := ⟨none, []⟩ }, .finish .returned) := by
      simp [Service.call, Service.stop, h.atRest.lock, AsyncLock.tryAcquire_free, stopLocked,
        h.running, afterStop, AsyncLock.release]
    have hsv : (s.settle t (s.tasks t) (Service.call s.outcome s.service t .stop)).service =
        { s.service with lock := ⟨none, []⟩ } := by rw [Sys.settle_service, he]
    exact ⟨⟨by rw [hsv]; rfl, by rw [hsv]; exact h.atRest.connectLock,
      by rw [hsv]; exact h.atRest.connectingTask⟩, by rw [hsv]; exact h.running,
      by rw [hsv]; exact h.state⟩

theorem Sys.Failed.run_stops {cs : List TaskId} {s s' : Sys (webSocket S cfg message) Q}
    (h : s.Failed) (hr : run step s (cs.map fun c => .call c .stop) = some s') : s'.Failed := by
  refine run_mem_invariant (P := Sys.Failed) (H := fun l => ∃ c, l = .call c .stop)
    (fun x l x' hx hl hs => ?_) h (fun l hl => ?_) hr
  · obtain ⟨c, rfl⟩ := hl
    exact hx.stop hs
  · obtain ⟨c, -, rfl⟩ := List.mem_map.1 hl
    exact ⟨c, rfl⟩

/-- **No retry after a failed `start()`.**  However often `stop()` is called after it, the next
`start()` does not dial and end connected, although dialing and sending would succeed. -/
theorem not_retries_of_failed {s s₁ s₂ : Sys (webSocket S cfg message) Q} {t u : TaskId}
    {ws : List (Wake S.Frame)} {e : PyExn} (hun : s.Unborn) (hrest : s.AtRest)
    (hrun : s.service.running = false) (hf : s.Free t) (hw : ∀ w ∈ ws, w ≠ .cancelled)
    (hr : run step s (.call t .start :: ws.map fun w => .resume t (.wake w)) = some s₁)
    (hc : (s₁.tasks t).call = none) (hl : (s₁.tasks t).last = some (.raised e))
    {stops : List TaskId} (hs : run step s₁ (stops.map fun c => .call c .stop) = some s₂)
    (hu : s₂.Free u) : ¬s₂.Retries u := by
  have h₂ := (failed_of_start hrest hrun hf hw hr hc hl).run_stops hs
  have hun₂ : s₂.Unborn := run_invariant (P := Sys.Unborn) (fun _ _ _ hi h => hi.step h) hun
    (run_append_some hr hs)
  refine not_retries hun₂ h₂.atRest hu fun hre => ?_
  have := hre.2
  rw [h₂.state] at this
  rcases this with h | h <;> cases h

/-! ## A refused dial -/

/-- The dial of a `start()` is refused; then the service is stopped. -/
def refusedDial : List (Label testConnector) :=
  [.call 0 .start, .resume 0 (.wake (.raised .osError)), .call 0 .stop]

/-- The state it leads to. -/
def afterRefusedDial : Sys testConnector (Kafka.publisher Kafka.acceptingProducer) :=
  (run step testService refusedDial).get rfl

theorem run_refusedDial : run step testService refusedDial = some afterRefusedDial :=
  (Option.some_get _).symm

theorem afterRefusedDial_atRest : afterRefusedDial.AtRest := ⟨rfl, rfl, rfl⟩

theorem afterRefusedDial_free : afterRefusedDial.Free 0 := ⟨Nat.one_pos, rfl, rfl, rfl⟩

theorem refusedStart_isSome : (run step testService
    (.call 0 .start :: [Wake.raised .osError].map fun w => .resume 0 (.wake w))).isSome = true :=
  rfl

/-- The state before that `stop()`. -/
def refusedStart : Sys testConnector (Kafka.publisher Kafka.acceptingProducer) :=
  Option.get _ refusedStart_isSome

theorem run_refusedStop :
    run step refusedStart ([0].map fun c => .call c .stop) = some afterRefusedDial := rfl

/-- **A failed `start()` is not retried**: the dial of the first one is refused, and the next one,
after a `stop()`, does not dial. -/
theorem refusedDial_not_retried : ∃ s, run step testService refusedDial = some s ∧
    s.AtRest ∧ s.Free 0 ∧ ¬s.Retries 0 := by
  refine ⟨afterRefusedDial, run_refusedDial, afterRefusedDial_atRest, afterRefusedDial_free, ?_⟩
  have hrest : testService.AtRest := ⟨rfl, rfl, rfl⟩
  refine not_retries_of_failed (unborn_init _ _ 10 1) hrest rfl ⟨Nat.one_pos, rfl, rfl, rfl⟩
    (fun w hw => ?_) (Option.some_get refusedStart_isSome).symm rfl rfl run_refusedStop
    afterRefusedDial_free
  rw [List.mem_singleton.1 hw]
  nofun

/-- `retries_iff` in that state. -/
theorem retries_iff_refusedDial : afterRefusedDial.Retries 0 ↔ afterRefusedDial.Retryable :=
  retries_iff (fun _ _ => ⟨0, .returned⟩) run_refusedDial afterRefusedDial_atRest
    afterRefusedDial_free

end FlinkPractices.Service
