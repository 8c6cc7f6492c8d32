import FlinkPractices.Connector.Limits
import FlinkPractices.Pipeline
import FlinkPractices.Service.Termination
import FlinkPractices.Upbit.Countdown

/-!
# The connector inside the service

In the running system nobody calls the Upbit connector but `IngestionService`: `start()` connects
under its lock, the consumption tasks stream, `stop()` disconnects, any number of clients at a time.
What was proved of any number of tasks on the connector therefore holds of it in every run of the
service (`Service.run_inherited`).

* `Governed` — the results on the lock, the attempts, the waits and the requests, for the connector
  of a service.
* `Seeded` — the invariants behind them: as nothing but the seeds is ever subscribed to, the
  registry is a prefix of them.

## Proof of the end of `start()`

`startRank` gives each suspension point of a `start()` the number of resumptions that may follow:
seven at the lock of the service, and inside the connector the rank of its `connect()`, which is
never above six.  No arc of the control flow goes up (`placeRank_le`), so that every segment goes
down (`segment_startsBelow`); other tasks do not change the place of a suspended call.

Principal results:

* `connector_of_run` — what governs the connector, in every run of the service;
* `startEnds_of_run` — a `start()` comes to an end.
-/

set_option autoImplicit false

namespace FlinkPractices.Pipeline

open Lib Upbit Service
open Connector (TaskId Conn ConnectPc ConnectAct Disciplined Limited Allowed Scheduled)

variable {U : UpperTable} {env : Environment} {cfg : ExchangeConfig U} {Q : PublisherPort}

/-- Where the tasks of the service stand in the connector, and what they have made of it. -/
structure Governed (s : Sys (connector env cfg) Q) : Prop where
  /-- one task at a time has the connector's lock -/
  mutex : ∀ t u, (s.point t).lockStatus = .holding → (s.point u).lockStatus = .holding → t = u
  /-- one task at a time makes an attempt, and it is the one that others await -/
  connecting : ∀ t, s.service.connector.connectingTask = some t ↔ (s.point t).attempting = true
  attempts : Allowed cfg s.service.connector.reconnectAttempts
  sleeps : ∀ t n, (s.point t).sleep = some n → Scheduled cfg n
  wire : RequestedOnce s.service.connector
  /-- the trades of the configured markets, and then their order books -/
  subscribed : subscribed s.service.connector <+: seeds cfg

section

variable {s s' : Sys (connector env cfg) Q}

/-- What the tasks of the service keep in the connector: the requests on their way, and the registry
that they are taken from. -/
structure Seeded (s : Sys (connector env cfg) Q) : Prop where
  roles : s.Roles
  wire : Sane s.point s.service.connector ∧ Wire s.point s.service.connector
  seeds : Sane s.point s.service.connector ∧ OnlySeeds s.point s.service.connector

theorem seeded_of_run {q : Q.State} {n clients : Nat} {ls : List (Label (connector env cfg))}
    (hr : run step (Sys.init (Conn.init (upbit env cfg) Registry.init) q n clients) ls = some s) :
    Seeded s where
  roles := run_invariant (P := Sys.Roles) (fun _ _ _ h hs => h.step hs) Sys.roles_init hr
  wire := run_inherited (keeps_wire.weaken fun _ _ _ => trivial) ⟨sane_init, wire_init⟩ hr
  seeds := run_inherited keeps_onlySeeds ⟨sane_init, onlySeeds_init⟩ hr

theorem Seeded.step {l : Label (connector env cfg)} (h : Seeded s)
    (hs : Service.step s l = some s') : Seeded s' :=
  ⟨h.roles.step hs, inherited_step (keeps_wire.weaken fun _ _ _ => trivial) h.roles h.wire hs,
    inherited_step keeps_onlySeeds h.roles h.seeds hs⟩

end

/-- **The connector under the service**: whatever the clients call, in every interleaving and with
whatever failures and cancellations, attempts exclude each other, stay within the limit and sleep by
the schedule, no subscription is requested twice on one socket, and there are no subscriptions but
the seeds. -/
theorem connector_of_run {q : Q.State} {n clients : Nat} {ls : List (Label (connector env cfg))}
    {s : Sys (connector env cfg) Q}
    (hr : run step (Sys.init (Conn.init (upbit env cfg) Registry.init) q n clients) ls = some s) :
    Governed s := by
  have hd : Disciplined s.point s.service.connector :=
    run_inherited ((Connector.keeps_disciplined cfg).weaken fun _ _ _ => trivial)
      (Connector.disciplined_init _) hr
  have hl : Limited cfg s.point s.service.connector :=
    run_inherited ((Connector.keeps_limited cfg).weaken fun _ _ _ => trivial)
      (Connector.limited_init _) hr
  have hs : Seeded s := seeded_of_run hr
  exact ⟨fun t u ht hu => hd.lock.mutex ht hu, hd.connecting, hl.attempts, hl.sleeps,
    hs.wire.2.requestedOnce hs.wire.1, hs.seeds.2.seeds⟩

/-! ## A stop while the loop reconnects -/

/-- A service with two clients. -/
def twoClients : Sys (connector quietEnvironment krwBtcConfig)
    (Kafka.publisher Kafka.acceptingProducer) :=
  Sys.init (Conn.init (upbit quietEnvironment krwBtcConfig) Registry.init) Kafka.Adapter.init 10 2

/-- The use case runs; another client is told so.  The loop, task 2, loses the connection and sends
its seeds again, while that client stops the service. -/
def stopWhileReconnecting : List (Label (connector quietEnvironment krwBtcConfig)) :=
  [.call 0 .useCase, .resume 0 (.wake .done), .resume 0 (.wake .done), .resume 0 (.wake .done),
    .resume 2 (.wake .done), .call 1 .start, .resume 2 (.wake (.raised .connectionClosed)),
    .resume 2 (.wake .done), .resume 2 (.wake .done), .call 1 .stop,
    .resume 2 (.wake .done), .resume 2 (.wake .done)]

/-- `connector_of_run` of that run. -/
theorem connector_of_run_reconnecting : ∃ s, run step twoClients stopWhileReconnecting = some s ∧
    s.service.connector.connectingTask = some 2 ∧ Governed s := by
  have hr : run step twoClients stopWhileReconnecting =
      some ((run step twoClients stopWhileReconnecting).get rfl) := (Option.some_get _).symm
  exact ⟨_, hr, rfl, connector_of_run hr⟩

/-! ## `start()` comes to an end -/

section

/-- How often a suspended `start()` can be resumed without ending. -/
def startRank : Pc (connector env cfg) Q → Option Nat
  | .startLock _ => some 7
  | .connecting _ pc => some (connectRank pc)
  | _ => none

/-- The same for a place of `start()`: what is suspended from here on can be resumed so often, the
next time included. -/
def placeRank : Node (connector env cfg) Q → Option Nat
  | .enter _ => some 8
  | .resumed pc _ => startRank pc
  | .start _ => some 8
  | .startLocked _ => some 7
  | .connect _ (.suspend pc) => some (connectRank pc + 1)
  | .suspended pc => (startRank pc).map (· + 1)
  | .cancels pc _ => (startRank pc).map (· + 1)
  | _ => none

/-- A segment of a `start()` ends it, or leaves it below the rank `i`. -/
def StartsBelow (i : Nat) (a : Act (connector env cfg) Q) : Prop :=
  ∀ pc j, a.pc = some pc → startRank pc = some j → j < i

variable {s v v' : IngestionService (connector env cfg) Q} {t : TaskId}
variable {p p' : Node (connector env cfg) Q} {outcome : TaskId → Option Outcome} {i : Nat}

theorem firstConnect_suspend {S : Connector.Subclass} {x : Conn S × Connector.ConnectAct S}
    {c : Conn S} {pc : ConnectPc S} (h : firstConnect S x = (c, .suspend pc)) :
    x = (c, .suspend pc) := by
  rcases x with ⟨c', pc' | _ | _ | _⟩ <;> cases h
  rfl

/-- **No arc of a `start()` goes up**, and none leads back to it. -/
theorem placeRank_le {j : Nat} (ha : Arc outcome t p v p' v')
    (hreq : p.isResumed = true → (registry v.connector).requests.length ≤ 2)
    (hj : placeRank p' = some j) : ∃ i, placeRank p = some i ∧ j ≤ i := by
  cases ha with
  | enterStart | enterUseCase | startAcquire | startQueue | startWoken | connectSuspend =>
    cases hj
    exact ⟨_, rfl, by simp⟩
  | @connectFirst _ _ c a _ hc =>
    cases a with
    | suspend cpc =>
      cases hj
      have hconnect : AtMost 6 (Connector.connect cfg (isDone outcome) v.connector t).2 :=
        connect_atMost
      exact ⟨7, rfl, Nat.succ_le_succ (hconnect cpc (congrArg Prod.snd (firstConnect_suspend hc)))⟩
    | returned | raised => cases hj
  | @connectLater k _ cpc w c x hc =>
    obtain ⟨⟨c', a⟩, hx, he⟩ := Option.map_eq_some_iff.1 hc
    cases a with
    | suspend pc' =>
      cases he
      cases hj
      exact ⟨_, rfl, resumeConnect_lowers (hreq rfl) hx⟩
    | finish o =>
      cases he
      cases hj
  | _ => cases hj

/-- On the way of a `start()` that was at the rank `i`. -/
structure Lowers (i : Nat) (p : Node (connector env cfg) Q)
    (v : IngestionService (connector env cfg) Q) : Prop where
  rank : ∀ j, placeRank p = some j → j ≤ i
  requests : p.isResumed = true → (registry v.connector).requests.length ≤ 2

theorem Lowers.arc (ha : Arc outcome t p v p' v') (h : Lowers i p v) : Lowers i p' v' := by
  refine ⟨fun j hj => ?_, fun hp => ?_⟩
  · obtain ⟨m, hm, hle⟩ := placeRank_le ha h.requests hj
    exact hle.trans (h.rank m hm)
  · cases ha <;> cases hp

/-- **Every segment of a `start()` goes down.** -/
theorem segment_startsBelow {pc : Pc (connector env cfg) Q} {w : Resume (connector env cfg)}
    {r : IngestionService (connector env cfg) Q × Act (connector env cfg) Q}
    (hreq : (registry s.connector).requests.length ≤ 2) (hpc : startRank pc = some i)
    (hr : advance outcome s t pc w = some r) : StartsBelow i r.2 := by
  have hstart : Lowers i (.resumed pc w) s :=
    ⟨fun j hj => Nat.le_of_eq (Option.some.inj (hj.symm.trans hpc)), fun _ => hreq⟩
  have hend := ((advance_leads hr).keeps Lowers.arc hstart).rank
  obtain ⟨v, a⟩ := r
  intro pc' j hpc' hj
  cases a with
  | suspend | cancelling =>
    cases hpc'
    exact hend (j + 1) (congrArg (Option.map (· + 1)) hj)
  | finish => cases hpc'

end

section

variable {s s' : Sys (connector env cfg) Q} {t : TaskId}

/-- `t` is in a `start()`, its own or that of the use case. -/
def InStart (t : TaskId) (s : Sys (connector env cfg) Q) : Prop :=
  ((s.tasks t).call.bind startRank).isSome = true

theorem Seeded.startRank_le (h : Seeded s) {pc : Pc (connector env cfg) Q} {i : Nat}
    (hc : (s.tasks t).call = some pc) (hi : startRank pc = some i) : i ≤ 7 := by
  cases pc with
  | startLock k =>
    cases hi
    exact Nat.le_refl 7
  | connecting k cpc =>
    cases hi
    have hpoint : s.point t = .suspended (.connect .task cpc) :=
      congrArg Site.point (Sys.site_of_call hc)
    exact Nat.le_succ_of_le (h.wire.2.connectRank_le h.seeds.2 hpoint)
  | _ => cases hi

/-- **A `start()` ends**, whatever the other tasks do and whatever is cancelled or fails: it is not
resumed more than seven times without ending, so it ends with the eighth at the latest. -/
theorem startEnds_of_run {q : Q.State} {n clients : Nat} {ls ms : List (Label (connector env cfg))}
    (hr : run step (Sys.init (Conn.init (upbit env cfg) Registry.init) q n clients) ls = some s)
    (hm : run step s ms = some s') (hin : Always step (InStart t) s ms) :
    ms.countP (Label.resumes t) ≤ 7 := by
  have h : Seeded s := seeded_of_run hr
  obtain ⟨pc, i, hc, hi, hcount⟩ := run_callCountdown (fun _ _ _ h hs => Seeded.step h hs)
    (fun _ h _ _ _ _ _ _ _ hi hr hpc' hj =>
      segment_startsBelow h.seeds.2.length_le hi hr _ _ hpc' hj) h hm hin
  exact Nat.le_trans hcount (h.startRank_le hc hi)

end

/-! ## A start whose second request fails -/

/-- Client 0 is dialing; client 1 waits for the lock. -/
def startTwice : List (Label (connector quietEnvironment krwBtcConfig)) :=
  [.call 0 .start, .call 1 .start]

/-- The socket is there, the trades are sent, the order books are not, and the socket is being
closed. -/
def secondRequestFails : List (Label (connector quietEnvironment krwBtcConfig)) :=
  [.resume 0 (.wake .done), .resume 0 (.wake .done), .resume 0 (.wake (.raised .connectionClosed))]

/-- The state in between. -/
def dialing : Sys (connector quietEnvironment krwBtcConfig)
    (Kafka.publisher Kafka.acceptingProducer) :=
  (run step twoClients startTwice).get rfl

/-- `startEnds_of_run` of these: client 0 has been resumed three times, and once more will do. -/
theorem startEnds_secondRequestFails : ∃ s, run step dialing secondRequestFails = some s ∧
    (s.tasks 0).call.bind startRank = some 0 ∧
    secondRequestFails.countP (Label.resumes 0) = 3 ∧
    secondRequestFails.countP (Label.resumes 0) ≤ 7 := by
  have hr : run step twoClients startTwice = some dialing := (Option.some_get _).symm
  have hm : run step dialing secondRequestFails =
      some ((run step dialing secondRequestFails).get rfl) := (Option.some_get _).symm
  have hin : Always step (InStart 0) dialing secondRequestFails := by
    refine ⟨rfl, fun s₁ h₁ => ?_⟩
    cases h₁
    refine ⟨rfl, fun s₂ h₂ => ?_⟩
    cases h₂
    refine ⟨rfl, fun s₃ h₃ => ?_⟩
    cases h₃
    rfl
  exact ⟨_, hm, rfl, rfl, startEnds_of_run hr hm hin⟩

end FlinkPractices.Pipeline
