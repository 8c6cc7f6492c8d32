import FlinkPractices.Connector.Transitions
import FlinkPractices.Service.Status
import FlinkPractices.Service.WebSocket

/-!
# The control flow of the service over a websocket connector

Clients and consumption tasks all call the one connector, each through its own statements of
`IngestionService`.  `Site` names where a task stands, with the place in the connector's coroutine
(`Connector.Point`) where it is inside a call of it, `Shared` is what the tasks share, and `Edge` is
the control-flow graph: the lock of the service, the flag and the background task, and around them
the graph of the connector.

This is the graph of `Service.Routes` for one kind of connector, with the arcs that call the
connector replaced by the connector's own paths, and without what is of no concern to the
connector (`stop()`'s flush, the counters):

* `Lands` — a call of the connector has come to rest at some place of the connector's graph
* `Arc.path` — so every arc of the service is a path of this graph

Principal results:

* `call_path` and `segment_path` — every segment of the service is a path of edges, and so is every
  step (`step_path`),
* `run_inherited` — what any number of tasks on the connector keep, every run of the service keeps.

By the second, the invariants of `Connector` and `Upbit` hold under the service without being proved
again (`Composition`).
-/

set_option autoImplicit false

namespace FlinkPractices.Service

open Lib Function
open Connector (TaskId Conn Subclass Point Kind NoOwn)

variable {U : UpperTable} {S : Subclass} {Q : PublisherPort}

/-- What the tasks share. -/
structure Shared (S : Subclass) where
  lock : AsyncLock TaskId
  running : Bool
  backgroundTask : Option TaskId
  nextTask : TaskId
  conn : Conn S

/-- Where a task stands. -/
inductive Site (S : Subclass) where
  /-- in no call, or between two statements without the lock -/
  | idle
  /-- waiting for `self._lock` -/
  | queued
  /-- in `async with self._lock` -/
  | locked
  /-- in a call of the connector: `connect()` under the lock, the others without it -/
  | calls (κ : Kind) (P : Point S)
  /-- in `stop()`, waiting for the consumption task `b` -/
  | waits (b : TaskId)

/-- The control-flow graph, for task `t` among `clients` clients. -/
inductive Edge (cfg : ExchangeConfig U) (clients : Nat) (t : TaskId) :
    Site S → Shared S → Site S → Shared S → Prop
  -- the lock
  | acquire {x l} : t < clients → x.lock.tryAcquire t = some l →
      Edge cfg clients t .idle x .locked { x with lock := l }
  | enqueue {x} : t < clients →
      Edge cfg clients t .idle x .queued { x with lock := x.lock.enqueue t }
  | woken {x l} : x.lock.wake t = some l →
      Edge cfg clients t .queued x .locked { x with lock := l }
  | abandoned {x} : Edge cfg clients t .queued x .idle { x with lock := x.lock.abandon t }
  | released {x} : Edge cfg clients t .locked x .idle { x with lock := x.lock.release }
  -- `start()`
  | connect {x} : x.running = false →
      Edge cfg clients t .locked x (.calls .connect (.enter .connect)) x
  | started {x P} : P.rest = .idle →
      Edge cfg clients t (.calls .connect P) x .idle
        { x with
          lock := x.lock.release
          running := true
          backgroundTask := some x.nextTask
          nextTask := x.nextTask + 1 }
  | startFailed {x P} : P.rest = .idle →
      Edge cfg clients t (.calls .connect P) x .idle { x with lock := x.lock.release }
  -- `stop()`
  | stopped {x} : Edge cfg clients t .locked x .idle
      { x with lock := x.lock.release, running := false }
  | stopping {x b} : x.running = true → x.backgroundTask = some b →
      Edge cfg clients t .locked x (.waits b) { x with lock := x.lock.release, running := false }
  | timedOut {x b b'} : x.backgroundTask = some b' →
      Edge cfg clients t (.waits b) x (.waits b') x
  | waited {x b} : Edge cfg clients t (.waits b) x .idle x
  | disconnect {x} : t < clients →
      Edge cfg clients t .idle x (.calls .disconnect (.enter .disconnect)) x
  -- `_consume_and_publish()`
  | stream {x} : clients ≤ t → t < x.nextTask →
      Edge cfg clients t .idle x (.calls .stream (.enter .stream)) x
  -- in a call of the connector
  | edge {κ x isDone P P' c} : Connector.Edge cfg isDone t P x.conn P' c →
      Edge cfg clients t (.calls κ P) x (.calls κ P') { x with conn := c }
  | resumed {κ x pc w} :
      Edge cfg clients t (.calls κ (.suspended pc)) x (.calls κ (.resumed pc w)) x
  | ended {κ x P} : κ ≠ .connect → P.rest = .idle → Edge cfg clients t (.calls κ P) x .idle x

/-- Paths through the graph. -/
def Path (cfg : ExchangeConfig U) (clients : Nat) (t : TaskId) (x y : Site S × Shared S) : Prop :=
  Relation.ReflTransGen (fun x y => Edge cfg clients t x.1 x.2 y.1 y.2) x y

section

variable {cfg : ExchangeConfig U} {message : S.Msg → MarketDataMessage}

def IngestionService.shared (s : IngestionService (webSocket S cfg message) Q) : Shared S :=
  ⟨s.lock, s.running, s.backgroundTask, s.nextTask, s.connector⟩

/-- The place of a suspended call. -/
def Pc.site : Pc (webSocket S cfg message) Q → Site S
  | .startLock _ => .queued
  | .connecting _ pc => .calls .connect (.suspended (.connect .task pc))
  | .stopLock _ => .queued
  | .waiting _ _ b => .waits b
  | .timedOut _ _ b => .waits b
  | .aborting _ _ b => .waits b
  | .awaiting _ _ b => .waits b
  | .flushing _ _ _ => .idle
  | .disconnecting _ _ pc => .calls .disconnect (.suspended pc)
  | .ready => .idle
  | .receiving pc => .calls .stream (.suspended pc)
  | .publishing _ _ => .idle
  | .sleeping => .idle

def Act.site (a : Act (webSocket S cfg message) Q) : Site S := a.pc.elim .idle Pc.site

/-- Where task `t` stands. -/
def Sys.site (s : Sys (webSocket S cfg message) Q) (t : TaskId) : Site S :=
  (s.tasks t).call.elim .idle Pc.site

/-! ## Calls of the connector -/

variable {clients : Nat} {t : TaskId} {x : Shared S} {y : Site S × Shared S}
variable {outcome : TaskId → Option Outcome}

/-- A path of the connector is one of the service. -/
theorem Path.embed {κ : Kind} {isDone : TaskId → Bool} {P P' : Point S} {c' : Conn S}
    (h : Connector.Path cfg isDone t (P, x.conn) (P', c')) :
    Path cfg clients t (.calls κ P, x) (.calls κ P', { x with conn := c' }) := by
  unfold Connector.Path at h
  generalize hz : (P', c') = z at h
  induction h generalizing P' c' with
  | refl =>
    cases hz
    exact .refl
  | @tail y z _ he ih =>
    subst hz
    exact (ih rfl).tail (.edge (x := { x with conn := y.2 }) he)

/-- A call of the connector has come to rest at `P`. -/
def Lands (cfg : ExchangeConfig U) (clients : Nat) (t : TaskId) (y : Site S × Shared S) (κ : Kind)
    (P : Point S) (x : Shared S) : Prop :=
  ∃ P', P'.rest = P ∧ Path cfg clients t y (.calls κ P', x)

/-- Where a segment of a call of the connector leaves its task. -/
def Start.point {Pc : Type} (f : Pc → Connector.Pc S) : Start Pc → Point S
  | .suspend pc => .suspended (f pc)
  | _ => .idle

def Next.point {Pc : Type} (f : Pc → Connector.Pc S) : Next Pc → Point S
  | .suspend pc => .suspended (f pc)
  | .finish _ => .idle

def StreamNext.point : StreamNext (Connector.Pc S) → Point S
  | .suspend pc => .suspended pc
  | _ => .idle

theorem Lands.suspended {κ : Kind} {pc : Connector.Pc S}
    (h : Lands cfg clients t y κ (.suspended pc) x) :
    Path cfg clients t y (.calls κ (.suspended pc), x) := by
  obtain ⟨P, hP, h⟩ := h
  cases P <;> cases hP
  exact h

theorem Lands.ended {κ : Kind} (h : Lands cfg clients t y κ .idle x) (hκ : κ ≠ .connect) :
    Path cfg clients t y (.idle, x) := by
  obtain ⟨P, hP, h⟩ := h
  exact h.tail (.ended hκ hP)

/-- A segment of the connector. -/
theorem lands_of_path {κ : Kind} {isDone : TaskId → Bool} {P : Point S}
    {r : Conn S × Connector.Act S} (h : Path cfg clients t y (.calls κ P, x))
    (hr : Connector.Path cfg isDone t (P, x.conn) (r.2.point, r.1)) :
    Lands cfg clients t y κ r.2.point.rest { x with conn := r.1 } :=
  ⟨_, rfl, h.trans (Path.embed hr)⟩

theorem firstConnect_eq (r : Conn S × Connector.ConnectAct S) :
    (firstConnect S r).1 = (Connector.afterTaskConnect r).1 ∧
      (firstConnect S r).2.point (.connect .task) =
        (Connector.afterTaskConnect r).2.point.rest := by
  rcases r with ⟨c, pc | _ | e | _⟩ <;> exact ⟨rfl, rfl⟩

theorem laterConnect_eq (r : Conn S × Connector.ConnectAct S) :
    (laterConnect S r).1 = (Connector.afterTaskConnect r).1 ∧
      (laterConnect S r).2.point (.connect .task) =
        (Connector.afterTaskConnect r).2.point.rest := by
  rcases r with ⟨c, pc | r⟩ <;> exact ⟨rfl, rfl⟩

theorem firstSegment_eq (r : Conn S × Connector.Act S) :
    (firstSegment S r).1 = r.1 ∧ (firstSegment S r).2.point id = r.2.point.rest := by
  rcases r with ⟨c, pc | (_ | e | _) | ⟨m, rest⟩⟩ <;> exact ⟨rfl, rfl⟩

theorem laterDisconnect_eq (r : Conn S × Connector.Act S) :
    (laterDisconnect S r).1 = r.1 ∧ (laterDisconnect S r).2.point id = r.2.point.rest := by
  rcases r with ⟨c, pc | r | ⟨m, rest⟩⟩ <;> exact ⟨rfl, rfl⟩

theorem laterStream_eq (message : S.Msg → MarketDataMessage) (r : Conn S × Connector.Act S) :
    (laterStream S message r).1 = r.1 ∧ (laterStream S message r).2.point = r.2.point.rest := by
  rcases r with ⟨c, pc | r | ⟨m, rest⟩⟩ <;> exact ⟨rfl, rfl⟩

theorem connect_lands {c : Conn S} {a : Start (Connector.ConnectPc S)}
    (h : Path cfg clients t y (.calls .connect (.enter .connect), x))
    (hc : firstConnect S (Connector.connect cfg (isDone outcome) x.conn t) = (c, a)) :
    Lands cfg clients t y .connect (a.point (.connect .task)) { x with conn := c } := by
  have hfirst := firstConnect_eq (Connector.connect cfg (isDone outcome) x.conn t)
  rw [hc] at hfirst
  obtain ⟨rfl, ha⟩ := hfirst
  rw [ha]
  exact lands_of_path h (Connector.enter_path x.conn .connect)

theorem resumeConnect_lands {pc : Connector.ConnectPc S} {w : Wake S.Frame} {c : Conn S}
    {n : Next (Connector.ConnectPc S)}
    (h : Path cfg clients t y (.calls .connect (.suspended (.connect .task pc)), x))
    (hc : (Connector.resumeConnect cfg (isDone outcome) x.conn t pc w.toConnector).map
      (laterConnect S) = some (c, n)) :
    Lands cfg clients t y .connect (n.point (.connect .task)) { x with conn := c } := by
  obtain ⟨r, hr, he⟩ := Option.map_eq_some_iff.1 hc
  have hlater := laterConnect_eq r
  rw [he] at hlater
  obtain ⟨rfl, hn⟩ := hlater
  rw [hn]
  have hadvance : Connector.advance cfg (isDone outcome) x.conn t (.connect .task pc)
      w.toConnector = some (Connector.afterTaskConnect r) := by
    simp only [Connector.advance, hr, Option.map_some]
    rfl
  exact lands_of_path (h.tail .resumed) (Connector.advance_path hadvance)

theorem disconnect_lands {c : Conn S} {a : Start (Connector.Pc S)}
    (h : Path cfg clients t y (.calls .disconnect (.enter .disconnect), x))
    (hc : firstSegment S (Connector.disconnect x.conn t) = (c, a)) :
    Lands cfg clients t y .disconnect (a.point id) { x with conn := c } := by
  have hfirst := firstSegment_eq (Connector.disconnect x.conn t)
  rw [hc] at hfirst
  obtain ⟨rfl, ha⟩ := hfirst
  rw [ha]
  have hpath : Connector.Path cfg (fun _ => false) t (.enter .disconnect, x.conn)
      ((Connector.disconnect x.conn t).2.point, (Connector.disconnect x.conn t).1) :=
    Connector.enter_path x.conn .disconnect
  exact lands_of_path h hpath

theorem resumeDisconnect_lands {pc : Connector.Pc S} {w : Wake S.Frame} {c : Conn S}
    {n : Next (Connector.Pc S)}
    (h : Path cfg clients t y (.calls .disconnect (.suspended pc), x))
    (hc : (Connector.advance cfg (fun _ => false) x.conn t pc w.toConnector).map
      (laterDisconnect S) = some (c, n)) :
    Lands cfg clients t y .disconnect (n.point id) { x with conn := c } := by
  obtain ⟨r, hr, he⟩ := Option.map_eq_some_iff.1 hc
  have hlater := laterDisconnect_eq r
  rw [he] at hlater
  obtain ⟨rfl, hn⟩ := hlater
  rw [hn]
  exact lands_of_path (h.tail .resumed) (Connector.advance_path hr)

theorem stream_lands {c : Conn S} {a : Start (Connector.Pc S)}
    (h : Path cfg clients t y (.calls .stream (.enter .stream), x))
    (hc : firstSegment S (Connector.streamLoop cfg (isDone outcome) x.conn t) = (c, a)) :
    Lands cfg clients t y .stream (a.point id) { x with conn := c } := by
  have hfirst := firstSegment_eq (Connector.streamLoop cfg (isDone outcome) x.conn t)
  rw [hc] at hfirst
  obtain ⟨rfl, ha⟩ := hfirst
  rw [ha]
  exact lands_of_path h (Connector.enter_path x.conn .stream)

theorem resumeStream_lands {pc : Connector.Pc S} {w : Wake S.Frame} {c : Conn S}
    {n : StreamNext (Connector.Pc S)}
    (h : Path cfg clients t y (.calls .stream (.suspended pc), x))
    (hc : (Connector.advance cfg (isDone outcome) x.conn t pc w.toConnector).map
      (laterStream S message) = some (c, n)) :
    Lands cfg clients t y .stream n.point { x with conn := c } := by
  obtain ⟨r, hr, he⟩ := Option.map_eq_some_iff.1 hc
  have hlater := laterStream_eq message r
  rw [he] at hlater
  obtain ⟨rfl, hn⟩ := hlater
  rw [hn]
  exact lands_of_path (h.tail .resumed) (Connector.advance_path hr)

/-! ## Segments -/

variable {s v v' : IngestionService (webSocket S cfg message) Q}
  {p p' : Node (webSocket S cfg message) Q}

/-- There is a path to where the task stands at a place. -/
def Node.Reached (cfg : ExchangeConfig U) (clients : Nat) (t : TaskId) (y : Site S × Shared S)
    (x : Shared S) : Node (webSocket S cfg message) Q → Prop
  | .resumed pc _ => Path cfg clients t y (pc.site, x)
  | .suspended pc => Path cfg clients t y (pc.site, x)
  | .cancels pc _ => Path cfg clients t y (pc.site, x)
  | .startLocked _ => Path cfg clients t y (.locked, x)
  | .stopLocked _ => Path cfg clients t y (.locked, x)
  | .waited _ _ _ _ => ∃ b, Path cfg clients t y (.waits b, x)
  | .timeout _ _ => ∃ b, Path cfg clients t y (.waits b, x)
  | .connect _ n => Lands cfg clients t y .connect (n.point (.connect .task)) x
  | .disconnected _ _ n => Lands cfg clients t y .disconnect (n.point id) x
  | .streamed n => Lands cfg clients t y .stream n.point x
  | _ => Path cfg clients t y (.idle, x)

theorem Start.next_point {Pc : Type} (f : Pc → Connector.Pc S) (a : Start Pc) :
    a.next.point f = a.point f := by
  cases a <;> rfl

theorem Start.stream_point (a : Start (Connector.Pc S)) : a.stream.point = a.point id := by
  cases a <;> rfl

theorem Counted.shared (h : Counted v v') : v'.shared = v.shared := by
  simp only [IngestionService.shared, h.lock, h.running, h.backgroundTask, h.nextTask, h.connector]

/-- **Every arc is a path**: clients are outside the loop, the other tasks in it. -/
theorem Arc.path (ha : Arc outcome t p v p' v') (hout : p.inLoop = false → t < clients)
    (hin : p.inLoop = true → clients ≤ t ∧ t < v.nextTask)
    (h : p.Reached cfg clients t y v.shared) : p'.Reached cfg clients t y v'.shared := by
  cases ha with
  | enterStart | enterStop | enterUseCase | startedClient | startedSleep | startedStop | sleepAgain
  | sleepCancelled | flushFirst | flushLater | flushSuspend | flushOver | flushCancelled
  | awaitedOver | awaitedRaised | stopEnd | loopFirst | loopCancelled | waitTimeout | waitCancelled
  | publishLater | turnNone | turnSuspend | turnFinish => exact h
  -- the lock
  | startAcquire hl | stopAcquire hl => exact h.tail (.acquire (hout rfl) hl)
  | startQueue | stopQueue => exact h.tail (.enqueue (hout rfl))
  | startWoken hl | stopWoken hl => exact h.tail (.woken hl)
  | startAbandoned | stopAbandoned => exact h.tail .abandoned
  | startRunning | stopIdle => exact h.tail .released
  -- `start()`
  | connectFirst hr hc =>
    show Lands ..
    rw [Start.next_point]
    exact connect_lands (h.tail (.connect hr)) hc
  | connectLater hc => exact resumeConnect_lands h hc
  | connectSuspend => exact h.suspended
  | connectReturned =>
    obtain ⟨P, hP, h⟩ := h
    exact h.tail (.started hP)
  | connectFailed =>
    obtain ⟨P, hP, h⟩ := h
    exact h.tail (.startFailed hP)
  -- `stop()`
  | stopWait hr hb => exact h.tail (.stopping hr hb)
  | stopNoTask => exact h.tail .stopped
  | waitDone | lateDone => exact ⟨_, h⟩
  | lateCancelled | abortDone | abortCancelled | awaitDone | awaitCancelled => exact h.tail .waited
  | waitedTimeout | waitedLate => exact h
  | waitedReturned | waitedRaised | waitedCancelled | timeoutDone | timeoutNone =>
    obtain ⟨b, h⟩ := h
    exact h.tail .waited
  | timeoutCancels hb =>
    obtain ⟨b, h⟩ := h
    exact h.tail (.timedOut hb)
  | disconnectFirst hc =>
    show Lands ..
    rw [Start.next_point]
    exact disconnect_lands (h.tail (.disconnect (hout rfl))) hc
  | disconnectLater hc => exact resumeDisconnect_lands h hc
  | disconnectSuspend => exact h.suspended
  | disconnectOver | disconnectCancelled => exact h.ended nofun
  -- `_consume_and_publish()`
  | streamFirst hc =>
    show Lands ..
    rw [Start.stream_point]
    exact stream_lands (h.tail (.stream (hin rfl).1 (hin rfl).2)) hc
  | streamLater hc => exact resumeStream_lands h hc
  | streamSuspend => exact h.suspended
  | streamFinish | streamBatch => exact h.ended nofun
  | turn ht =>
    rw [(turn_counted ht).1.shared]
    exact h
  | publishEnded _ ht =>
    rw [(endTurn_counted ht).1.shared]
    exact h

theorem Node.Reached.site {r : IngestionService (webSocket S cfg message) Q ×
      Act (webSocket S cfg message) Q} (h : r.2.node.Reached cfg clients t y r.1.shared) :
    Path cfg clients t y (r.2.site, r.1.shared) := by
  obtain ⟨v, a⟩ := r
  cases a <;> exact h

/-- **First segments are paths.** -/
theorem call_path (ht : t < clients) (op : Op) :
    Path cfg clients t (.idle, s.shared)
      ((call outcome s t op).2.site, (call outcome s t op).1.shared) :=
  ((call_leads op).keeps_outside (J := fun p v => p.Reached cfg clients t (.idle, s.shared) v.shared)
    (fun ha hp h => ha.path (fun _ => ht) (fun hin => nomatch hp.symm.trans hin) h) rfl .refl).2.site

/-- **So are the later segments.** -/
theorem segment_path {pc : Pc (webSocket S cfg message) Q} {w : Resume (webSocket S cfg message)}
    {r : IngestionService (webSocket S cfg message) Q × Act (webSocket S cfg message) Q}
    (hout : pc.inLoop = false → t < clients) (hin : pc.inLoop = true → clients ≤ t)
    (hn : t < s.nextTask) (hr : advance outcome s t pc w = some r) :
    Path cfg clients t (pc.site, s.shared) (r.2.site, r.1.shared) := by
  cases hpc : pc.inLoop with
  | false =>
    exact ((advance_leads hr).keeps_outside
      (J := fun p v => p.Reached cfg clients t (pc.site, s.shared) v.shared)
      (fun ha hp h => ha.path (fun _ => hout hpc) (fun hin => nomatch hp.symm.trans hin) h)
      hpc .refl).2.site
  | true =>
    obtain ⟨-, -, h⟩ := (advance_leads hr).keeps_inside
      (J := fun p v => t < v.nextTask ∧ p.Reached cfg clients t (pc.site, s.shared) v.shared)
      (fun ha hp h => ⟨Nat.lt_of_lt_of_le h.1 ha.nextTask, ha.path
        (fun hout => nomatch hout.symm.trans hp) (fun _ => ⟨hin hpc, h.1⟩) h.2⟩) hpc ⟨hn, .refl⟩
    exact h.site

end

/-! ## The system -/

section

variable {cfg : ExchangeConfig U} {message : S.Msg → MarketDataMessage}
variable {s s' : Sys (webSocket S cfg message) Q} {l : Label (webSocket S cfg message)}

/-- Clients call the service, and the other tasks are in the loop. -/
def Sys.Roles (s : Sys (webSocket S cfg message) Q) : Prop :=
  ∀ t pc, (s.tasks t).call = some pc →
    (pc.inLoop = false → t < s.clients) ∧ (pc.inLoop = true → s.clients ≤ t)

theorem Sys.roles_init {c : Conn S} {q : Q.State} {maxConsecutiveFailures clients : Nat} :
    (Sys.init (P := webSocket S cfg message) (Q := Q) c q maxConsecutiveFailures
      clients).Roles := by
  intro t pc hpc
  simp only [Sys.init] at hpc ⊢
  split at hpc
  · cases hpc
  · rename_i ht
    cases hpc
    exact ⟨fun h => Bool.noConfusion h, fun _ => Nat.not_lt.1 ht⟩

theorem Sys.Roles.step (h : s.Roles) (hs : Service.step s l = some s') : s'.Roles := by
  intro u pc hpc
  cases step_effect hs with
  | @first t op _ ht _ _ hset =>
    rw [hset.clients]
    by_cases hut : u = t
    · subst hut
      rw [hset.call] at hpc
      exact ⟨fun _ => ht, fun hin => by rw [call_outside pc hpc] at hin; cases hin⟩
    · rw [(hset.others u hut).1] at hpc
      exact h u pc hpc
  | @later t pc₀ w r _ _ _ hc _ hr hset =>
    rw [hset.clients]
    by_cases hut : u = t
    · subst hut
      rw [hset.call] at hpc
      rw [segment_inLoop_eq hr hpc]
      exact h u pc₀ hc
    · rw [(hset.others u hut).1] at hpc
      exact h u pc hpc
  | quiet _ _ hclients hcall _ =>
    rw [hclients]
    rw [hcall] at hpc
    exact h u pc hpc

/-- A step is a path of one task, which stands at the beginning of it. -/
theorem step_path (hroles : s.Roles) (hs : Service.step s l = some s') :
    (∃ t P', Path cfg s.clients t (s.site t, s.service.shared) (P', s'.service.shared) ∧
      s'.site = update s.site t P') ∨ s'.site = s.site ∧ s'.service.shared = s.service.shared := by
  have settled : ∀ {t : TaskId}
      {r : IngestionService (webSocket S cfg message) Q × Act (webSocket S cfg message) Q},
      Settled s s' t r → s'.site = update s.site t r.2.site := by
    intro t r hset
    funext u
    by_cases hut : u = t
    · rw [hut, update_self, Sys.site, hset.call]
      rfl
    · rw [update_of_ne hut, Sys.site, (hset.others u hut).1]
      rfl
  cases step_effect hs with
  | @first t op _ ht _ hc hset =>
    refine .inl ⟨t, _, ?_, settled hset⟩
    rw [Sys.site, hc, hset.service]
    exact call_path ht op
  | @later t pc w r _ hn _ hc _ hr hset =>
    refine .inl ⟨t, _, ?_, settled hset⟩
    rw [Sys.site, hc, hset.service]
    exact segment_path (hroles t pc hc).1 (hroles t pc hc).2 hn hr
  | quiet _ hservice _ hcall _ =>
    refine .inr ⟨?_, by rw [hservice]⟩
    funext u
    rw [Sys.site, hcall]
    rfl

/-! ## Invariants of the connector -/

/-- The place in the connector's coroutines. -/
def Site.point : Site S → Point S
  | .calls _ P => P
  | _ => .idle

/-- Between two segments. -/
def Resting (P : Point S) : Prop := P = .idle ∨ ∃ pc, P = .suspended pc

/-- Tasks of the connector that stand at the points `p`. -/
def callers (p : TaskId → Point S) (outcome : TaskId → Option Outcome) (c : Conn S) :
    Connector.Sys S where
  conn := c
  tasks t :=
    { Connector.Task.init S with
      call := match p t with
        | .suspended pc => some pc
        | _ => none
      outcome := outcome t }
  yielded := []

theorem callers_point {p : TaskId → Point S} (h : ∀ t, Resting (p t))
    (outcome : TaskId → Option Outcome) (c : Conn S) : (callers p outcome c).point = p := by
  funext t
  unfold Connector.Sys.point callers
  dsimp only
  rcases h t with ht | ⟨pc, ht⟩ <;> rw [ht]

/-- Where the tasks stand in the connector. -/
def Sys.point (s : Sys (webSocket S cfg message) Q) (t : TaskId) : Point S := (s.site t).point

theorem Sys.point_resting (s : Sys (webSocket S cfg message) Q) (t : TaskId) :
    Resting (s.point t) := by
  unfold Sys.point Sys.site
  cases (s.tasks t).call with
  | none => exact .inl rfl
  | some pc => cases pc <;> first | exact .inl rfl | exact .inr ⟨_, rfl⟩

variable {J : (TaskId → Point S) → Conn S → Prop}

theorem inherited_path (hJ : Connector.Keeps cfg NoOwn J) {clients : Nat} {t : TaskId}
    {p : TaskId → Point S} (hrest : ∀ u, Resting (p u)) {x y : Site S × Shared S}
    (hp : Path cfg clients t x y) (hx : J (update p t x.1.point) x.2.conn) :
    J (update p t y.1.point) y.2.conn := by
  have rests : ∀ {P : Point S}, Resting P → ∀ u, Resting (update p t P u) := by
    intro P hP u
    by_cases hut : u = t
    · rw [hut, update_self]
      exact hP
    · rw [update_of_ne hut]
      exact hrest u
  have enters : ∀ {op : Connector.Op S} {c : Conn S}, (∀ o, op ≠ .own o) →
      J (update p t .idle) c → J (update p t (.enter op)) c := by
    intro op c hop h
    have hpoint := callers_point (rests (.inl rfl)) (fun _ => none) c
    have hcall : J (update (callers (update p t .idle) (fun _ => none) c).point t (.enter op)) c :=
      hJ.call (fun _ o ho => hop o (Connector.Label.call.inj ho).2)
        (by rw [hpoint, update_self]) (by rw [hpoint]; exact h)
    rwa [hpoint, update_idem] at hcall
  have leaves : ∀ {P : Point S} {c : Conn S}, P.rest = .idle → J (update p t P) c →
      J (update p t .idle) c := by
    intro P c hP h
    rw [← hP]
    exact hJ.rest h
  induction hp with
  | refl => exact hx
  | @tail y z _ he ih =>
    obtain ⟨P, v⟩ := y
    obtain ⟨P', v'⟩ := z
    cases he with
    | acquire | enqueue | woken | abandoned | released | stopped | stopping | timedOut | waited =>
      exact ih
    | connect | disconnect | stream => exact enters nofun ih
    | started hP | startFailed hP | ended _ hP => exact leaves hP ih
    | edge he => exact hJ.edge he ih
    | @resumed _ _ pc w =>
      have hpoint := callers_point (rests (.inr ⟨pc, rfl⟩)) (fun _ => none) v.conn
      have hresume := hJ.resume (s := callers (update p t (.suspended pc)) (fun _ => none) v.conn)
        (t := t) (w := w) nofun (by rw [hpoint, update_self]) (by rw [hpoint]; exact ih)
      rwa [hpoint, update_idem] at hresume

/-- **What any number of tasks on the connector keep, the service keeps**: it calls nothing of the
subclass's own. -/
theorem inherited_step (hJ : Connector.Keeps cfg NoOwn J) (hroles : s.Roles)
    (h : J s.point s.service.connector) (hs : Service.step s l = some s') :
    J s'.point s'.service.connector := by
  rcases step_path hroles hs with ⟨t, P', hp, he⟩ | ⟨hsite, hshared⟩
  · have hpoint : s'.point = update s.point t P'.point := by
      funext u
      rw [Sys.point, he]
      by_cases hut : u = t
      · rw [hut, update_self, update_self]
      · rw [update_of_ne hut, update_of_ne hut]
        rfl
    have hstart : J (update s.point t (s.site t).point) s.service.shared.conn := by
      rwa [show (s.site t).point = s.point t from rfl, update_eq_self]
    rw [hpoint]
    exact inherited_path hJ s.point_resting hp hstart
  · have hpoint : s'.point = s.point := by
      funext u
      rw [Sys.point, hsite]
      rfl
    have hconn : s'.service.connector = s.service.connector := congrArg Shared.conn hshared
    rwa [hpoint, hconn]

theorem Sys.point_init {inst : S.Inst} {q : Q.State} {maxConsecutiveFailures clients : Nat} :
    (Sys.init (P := webSocket S cfg message) (Q := Q) (Conn.init S inst) q
      maxConsecutiveFailures clients).point = (Connector.Sys.init S inst).point := by
  funext t
  unfold Sys.point Sys.site Sys.init
  dsimp only
  split <;> rfl

theorem run_inherited (hJ : Connector.Keeps cfg NoOwn J) {inst : S.Inst} {q : Q.State}
    {maxConsecutiveFailures clients : Nat} {ls : List (Label (webSocket S cfg message))}
    (h₀ : J (Connector.Sys.init S inst).point (Conn.init S inst))
    (hr : run Service.step (Sys.init (Conn.init S inst) q maxConsecutiveFailures clients) ls =
      some s) :
    J s.point s.service.connector := by
  have hend : s.Roles ∧ J s.point s.service.connector :=
    run_invariant (P := fun s => s.Roles ∧ J s.point s.service.connector)
      (fun _ _ _ h hs => ⟨h.1.step hs, inherited_step hJ h.1 h.2 hs⟩)
      ⟨Sys.roles_init, by rw [Sys.point_init]; exact h₀⟩ hr
  exact hend.2

end

end FlinkPractices.Service
