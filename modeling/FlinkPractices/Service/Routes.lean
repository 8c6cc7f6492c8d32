import Mathlib.Logic.Relation
import FlinkPractices.Service.Tasks

/-!
# The control flow of the service

The segments of `Service.Ingestion` are functions from one suspension point to the next.  Here they
are taken apart, as those of the connector are in `Connector.Flow`: `Node` names the places between
two statements of the coroutines, and `Arc` is the control-flow graph, one constructor for each way
execution goes from one place to the next, with the change it makes to the service.

The ports stay as they are: a segment of `connect()`, `flush()`, `disconnect()` or of the stream is
one arc, to the node that goes on with how it has ended (`Next`), and so is the body of the
consumption loop (`turn`).

Principal results: every segment is a route through the graph,

* `call_leads` — the first segment of a call,
* `advance_leads` — the segment after a suspension point,

so that whatever each arc keeps is kept by all of them (`Leads.keeps`), and what a segment does is
one case analysis over the graph.  The clients and the consumption tasks never meet in it
(`Arc.outside`, `Arc.inside`), so an assertion about one of the two is kept by its own arcs alone
(`Leads.keeps_outside`, `Leads.keeps_inside`).

`Flags`, `Frame` and `Counted` say what a change leaves alone: the flag and the background task, the
lock as well, the connector as well.  The body of the loop is `Counted` (`turn_counted`).
-/

set_option autoImplicit false

namespace FlinkPractices.Service

open Lib
open Connector (TaskId)

variable {U : UpperTable} {P : ConnectorPort U} {Q : PublisherPort}

/-! ## The graph -/

/-- A first segment, seen as a later one: it cannot have been cancelled. -/
def Start.next {Pc : Type} : Start Pc → Next Pc
  | .suspend pc => .suspend pc
  | .returned => .finish .returned
  | .raised e => .finish (.raised e)

def Start.stream {Pc : Type} : Start Pc → StreamNext Pc
  | .suspend pc => .suspend pc
  | .returned => .finish .returned
  | .raised e => .finish (.raised e)

/-- Places in the coroutines. -/
inductive Node (P : ConnectorPort U) (Q : PublisherPort) where
  | enter (op : Op)
  | resumed (pc : Pc P Q) (w : Resume P)
  /-- at the start of `start()`, and under its lock -/
  | start (k : StartCaller)
  | startLocked (k : StartCaller)
  /-- a segment of `connect()` has ended so -/
  | connect (k : StartCaller) (x : Next P.ConnectPc)
  /-- `start()` has ended with `r` -/
  | started (k : StartCaller) (r : Outcome)
  /-- at the start of `stop()`, and under its lock -/
  | stop (k : StopCaller)
  | stopLocked (k : StopCaller)
  /-- `wait_for` has the result `r` of the task, after a timeout if `late` -/
  | waited (k : StopCaller) (n : Nat) (late : Bool) (r : Outcome)
  /-- in `except asyncio.TimeoutError`, and after its `await` -/
  | timeout (k : StopCaller) (n : Nat)
  | awaited (k : StopCaller) (n : Nat) (r : Outcome)
  /-- before the flush, and a segment of it has ended so -/
  | flush (k : StopCaller) (n : Nat)
  | flushed (k : StopCaller) (n : Nat) (x : Next Q.FlushPc)
  /-- before the disconnection, and a segment of it has ended so -/
  | disconnect (k : StopCaller) (n : Nat)
  | disconnected (k : StopCaller) (n : Nat) (x : Next P.DisconnectPc)
  /-- `stop()` ends with `r` -/
  | stopEnd (k : StopCaller) (n : Nat) (r : Outcome)
  /-- the generator is asked for a message, and a segment of it has ended so -/
  | next
  | streamed (x : StreamNext P.StreamPc)
  /-- the body of the loop has ended so, and the generator still has `ms` -/
  | turned (ms : List MarketDataMessage) (x : Turn Q)
  | suspended (pc : Pc P Q)
  /-- suspended after `task.cancel()` of `b` -/
  | cancels (pc : Pc P Q) (b : TaskId)
  | finished (r : Outcome)

/-- The control-flow graph, for task `t`. -/
inductive Arc (outcome : TaskId → Option Outcome) (t : TaskId) :
    Node P Q → IngestionService P Q → Node P Q → IngestionService P Q → Prop
  -- calls
  | enterStart {s} : Arc outcome t (.enter .start) s (.start .client) s
  | enterStop {s} : Arc outcome t (.enter .stop) s (.stop .client) s
  | enterUseCase {s} : Arc outcome t (.enter .useCase) s (.start .useCase) s
  -- start()
  | startAcquire {k s l} : s.lock.tryAcquire t = some l →
      Arc outcome t (.start k) s (.startLocked k) { s with lock := l }
  | startQueue {k s} : s.lock.tryAcquire t = none →
      Arc outcome t (.start k) s (.suspended (.startLock k)) { s with lock := s.lock.enqueue t }
  | startWoken {k s l} : s.lock.wake t = some l →
      Arc outcome t (.resumed (.startLock k) (.wake .done)) s (.startLocked k) { s with lock := l }
  | startAbandoned {k s} :
      Arc outcome t (.resumed (.startLock k) (.wake .cancelled)) s (.started k .cancelled)
        { s with lock := s.lock.abandon t }
  | startRunning {k s} : s.running = true →
      Arc outcome t (.startLocked k) s
        (.started k (.raised (.runtimeError "Service is already running")))
        { s with lock := s.lock.release }
  | connectFirst {k s c a} : s.running = false → P.connect outcome s.connector t = (c, a) →
      Arc outcome t (.startLocked k) s (.connect k a.next) { s with connector := c }
  | connectLater {k s pc w c x} : P.resumeConnect outcome s.connector t pc w = some (c, x) →
      Arc outcome t (.resumed (.connecting k pc) (.wake w)) s (.connect k x)
        { s with connector := c }
  | connectSuspend {k s pc} :
      Arc outcome t (.connect k (.suspend pc)) s (.suspended (.connecting k pc)) s
  | connectReturned {k s} :
      Arc outcome t (.connect k (.finish .returned)) s (.started k .returned)
        { s with
          running := true
          backgroundTask := some s.nextTask
          nextTask := s.nextTask + 1
          lock := s.lock.release }
  | connectFailed {k s r} : r ≠ .returned →
      Arc outcome t (.connect k (.finish r)) s (.started k r) { s with lock := s.lock.release }
  -- what follows start(), by its caller
  | startedClient {s r} : Arc outcome t (.started .client r) s (.finished r) s
  | startedSleep {s} : Arc outcome t (.started .useCase .returned) s (.suspended .sleeping) s
  | startedStop {s r} : r ≠ .returned →
      Arc outcome t (.started .useCase r) s (.stop (.useCase r)) s
  -- the sleep of the use case
  | sleepAgain {s} : Arc outcome t (.resumed .sleeping .timeout) s (.suspended .sleeping) s
  | sleepCancelled {s} :
      Arc outcome t (.resumed .sleeping (.wake .cancelled)) s (.stop (.useCase .cancelled)) s
  -- stop()
  | stopAcquire {k s l} : s.lock.tryAcquire t = some l →
      Arc outcome t (.stop k) s (.stopLocked k) { s with lock := l }
  | stopQueue {k s} : s.lock.tryAcquire t = none →
      Arc outcome t (.stop k) s (.suspended (.stopLock k)) { s with lock := s.lock.enqueue t }
  | stopWoken {k s l} : s.lock.wake t = some l →
      Arc outcome t (.resumed (.stopLock k) (.wake .done)) s (.stopLocked k) { s with lock := l }
  | stopAbandoned {k s} :
      Arc outcome t (.resumed (.stopLock k) (.wake .cancelled)) s
        (.finished (afterStop k .cancelled)) { s with lock := s.lock.abandon t }
  | stopIdle {k s} : s.running = false →
      Arc outcome t (.stopLocked k) s (.finished (afterStop k .returned))
        { s with lock := s.lock.release }
  | stopWait {k s b} : s.running = true → s.backgroundTask = some b →
      Arc outcome t (.stopLocked k) s (.suspended (.waiting k s.stops b))
        ({ s with running := false, lock := s.lock.release, stops := s.stops + 1 }.log
          (.stopping s.stops s.backgroundTask))
  | stopNoTask {k s} : s.running = true → s.backgroundTask = none →
      Arc outcome t (.stopLocked k) s (.flush k s.stops)
        ({ s with running := false, lock := s.lock.release, stops := s.stops + 1 }.log
          (.stopping s.stops s.backgroundTask))
  -- in `wait_for`
  | waitDone {k n b s w r} : w = .done ∨ w = .cancelled → outcome b = some r →
      Arc outcome t (.resumed (.waiting k n b) (.wake w)) s (.waited k n false r) s
  | waitTimeout {k n b s} : outcome b = none →
      Arc outcome t (.resumed (.waiting k n b) .timeout) s (.cancels (.timedOut k n b) b) s
  | waitCancelled {k n b s} : outcome b = none →
      Arc outcome t (.resumed (.waiting k n b) (.wake .cancelled)) s
        (.cancels (.aborting k n b) b) s
  | lateDone {k n b s r} : outcome b = some r →
      Arc outcome t (.resumed (.timedOut k n b) (.wake .done)) s (.waited k n true r) s
  | lateCancelled {k n b s} :
      Arc outcome t (.resumed (.timedOut k n b) (.wake .cancelled)) s (.stopEnd k n .cancelled) s
  | abortDone {k n b s r} : outcome b = some r →
      Arc outcome t (.resumed (.aborting k n b) (.wake .done)) s (.stopEnd k n .cancelled) s
  | abortCancelled {k n b s} :
      Arc outcome t (.resumed (.aborting k n b) (.wake .cancelled)) s (.stopEnd k n .cancelled) s
  | waitedReturned {k n late s} : Arc outcome t (.waited k n late .returned) s (.flush k n) s
  | waitedTimeout {k n late s} :
      Arc outcome t (.waited k n late (.raised .timeoutError)) s (.timeout k n) s
  | waitedRaised {k n late s e} : e ≠ .timeoutError →
      Arc outcome t (.waited k n late (.raised e)) s (.stopEnd k n (.raised e)) s
  | waitedCancelled {k n s} :
      Arc outcome t (.waited k n false .cancelled) s (.stopEnd k n .cancelled) s
  | waitedLate {k n s} : Arc outcome t (.waited k n true .cancelled) s (.timeout k n) s
  -- the handler of `TimeoutError`
  | timeoutDone {k n s b r} : s.backgroundTask = some b → outcome b = some r →
      Arc outcome t (.timeout k n) s (.awaited k n r) s
  | timeoutCancels {k n s b} : s.backgroundTask = some b → outcome b = none →
      Arc outcome t (.timeout k n) s (.cancels (.awaiting k n b) b) s
  | timeoutNone {k n s} : s.backgroundTask = none →
      Arc outcome t (.timeout k n) s (.stopEnd k n (.raised (.attributeError "cancel"))) s
  | awaitDone {k n b s r} : outcome b = some r →
      Arc outcome t (.resumed (.awaiting k n b) (.wake .done)) s (.awaited k n r) s
  | awaitCancelled {k n b s} :
      Arc outcome t (.resumed (.awaiting k n b) (.wake .cancelled)) s (.awaited k n .cancelled) s
  | awaitedOver {k n s r} : r.isRaised = false → Arc outcome t (.awaited k n r) s (.flush k n) s
  | awaitedRaised {k n s e} :
      Arc outcome t (.awaited k n (.raised e)) s (.stopEnd k n (.raised e)) s
  -- the clean-up
  | flushFirst {k n s q a} : Q.flush s.publisher = (q, a) →
      Arc outcome t (.flush k n) s (.flushed k n a.next) { s.log (.flush n) with publisher := q }
  | flushLater {k n s pc w q x} : w.plain.bind (Q.resumeFlush s.publisher pc) = some (q, x) →
      Arc outcome t (.resumed (.flushing k n pc) (.wake w)) s (.flushed k n x)
        { s with publisher := q }
  | flushSuspend {k n s pc} :
      Arc outcome t (.flushed k n (.suspend pc)) s (.suspended (.flushing k n pc)) s
  | flushOver {k n s r} : r ≠ .cancelled →
      Arc outcome t (.flushed k n (.finish r)) s (.disconnect k n) s
  | flushCancelled {k n s} :
      Arc outcome t (.flushed k n (.finish .cancelled)) s (.stopEnd k n .cancelled) s
  | disconnectFirst {k n s c a} : P.disconnect s.connector t = (c, a) →
      Arc outcome t (.disconnect k n) s (.disconnected k n a.next)
        { s.log (.disconnect n) with connector := c }
  | disconnectLater {k n s pc w c x} : P.resumeDisconnect s.connector t pc w = some (c, x) →
      Arc outcome t (.resumed (.disconnecting k n pc) (.wake w)) s (.disconnected k n x)
        { s with connector := c }
  | disconnectSuspend {k n s pc} :
      Arc outcome t (.disconnected k n (.suspend pc)) s (.suspended (.disconnecting k n pc)) s
  | disconnectOver {k n s r} : r ≠ .cancelled →
      Arc outcome t (.disconnected k n (.finish r)) s (.stopEnd k n .returned) s
  | disconnectCancelled {k n s} :
      Arc outcome t (.disconnected k n (.finish .cancelled)) s (.stopEnd k n .cancelled) s
  | stopEnd {k n s r} :
      Arc outcome t (.stopEnd k n r) s (.finished (afterStop k r)) (s.log (.stopped n))
  -- _consume_and_publish()
  | loopFirst {s} : Arc outcome t (.resumed .ready (.wake .done)) s .next s
  | loopCancelled {s} :
      Arc outcome t (.resumed .ready (.wake .cancelled)) s (.finished .cancelled) s
  | streamFirst {s c a} : P.stream outcome s.connector t = (c, a) →
      Arc outcome t .next s (.streamed a.stream) { s with connector := c }
  | streamLater {s pc w c x} : P.resumeStream outcome s.connector t pc w = some (c, x) →
      Arc outcome t (.resumed (.receiving pc) (.wake w)) s (.streamed x) { s with connector := c }
  | streamSuspend {s pc} : Arc outcome t (.streamed (.suspend pc)) s (.suspended (.receiving pc)) s
  | streamFinish {s r} : Arc outcome t (.streamed (.finish r)) s (.finished r) s
  | streamBatch {s m ms} : Arc outcome t (.streamed (.batch m ms)) s (.turned (m :: ms) .next) s
  | publishLater {s pc ms w q pc'} :
      w.plain.bind (Q.resumePublish s.publisher pc) = some (q, .suspend pc') →
      Arc outcome t (.resumed (.publishing pc ms) (.wake w)) s (.turned ms (.suspend pc'))
        { s with publisher := q }
  | publishEnded {s pc ms w q r v x} :
      w.plain.bind (Q.resumePublish s.publisher pc) = some (q, .finish r) →
      endTurn { s with publisher := q } r = (v, x) →
      Arc outcome t (.resumed (.publishing pc ms) (.wake w)) s (.turned ms x) v
  | turn {s m ms v x} : Service.turn t s m = (v, x) →
      Arc outcome t (.turned (m :: ms) .next) s (.turned ms x) v
  | turnNone {s} : Arc outcome t (.turned [] .next) s .next s
  | turnSuspend {s ms pc} :
      Arc outcome t (.turned ms (.suspend pc)) s (.suspended (.publishing pc ms)) s
  | turnFinish {s ms r} : Arc outcome t (.turned ms (.finish r)) s (.finished r) s

/-- The suspension points of the consumption loop. -/
def Pc.inLoop : Pc P Q → Bool
  | .ready => true
  | .receiving _ => true
  | .publishing _ _ => true
  | _ => false

/-- The places of the consumption loop, but its end. -/
def Node.inLoop : Node P Q → Bool
  | .resumed pc _ => pc.inLoop
  | .next => true
  | .streamed _ => true
  | .turned _ _ => true
  | .suspended pc => pc.inLoop
  | .cancels pc _ => pc.inLoop
  | _ => false

/-- Where a segment leaves its task. -/
def Act.node : Act P Q → Node P Q
  | .suspend pc => .suspended pc
  | .cancelling pc b => .cancels pc b
  | .finish r => .finished r

/-- A route from the node `p` to the end `r` of a segment. -/
def Leads (outcome : TaskId → Option Outcome) (t : TaskId) (p : Node P Q)
    (s : IngestionService P Q) (r : IngestionService P Q × Act P Q) : Prop :=
  Relation.ReflTransGen (fun x y : Node P Q × IngestionService P Q => Arc outcome t x.1 x.2 y.1 y.2)
    (p, s) (r.2.node, r.1)

section

variable {outcome : TaskId → Option Outcome} {t : TaskId} {s : IngestionService P Q}

theorem Leads.suspend {pc : Pc P Q} : Leads outcome t (.suspended pc) s (s, .suspend pc) := .refl

theorem Leads.cancel {pc : Pc P Q} {b : TaskId} :
    Leads outcome t (.cancels pc b) s (s, .cancelling pc b) := .refl

theorem Leads.finish {o : Outcome} :
    Leads outcome t (.finished o : Node P Q) s (s, .finish o) := .refl

theorem Arc.leads {p p' : Node P Q} {s' : IngestionService P Q}
    {r : IngestionService P Q × Act P Q} (ha : Arc outcome t p s p' s')
    (h : Leads outcome t p' s' r) : Leads outcome t p s r :=
  Relation.ReflTransGen.head (b := (p', s')) ha h

/-- **What every arc keeps, every segment keeps.** -/
theorem Leads.keeps {J : Node P Q → IngestionService P Q → Prop}
    (hJ : ∀ {p s p' s'}, Arc outcome t p s p' s' → J p s → J p' s') {p : Node P Q}
    {r : IngestionService P Q × Act P Q} (h : Leads outcome t p s r) (hp : J p s) :
    J r.2.node r.1 :=
  Relation.ReflTransGen.head_induction_on (motive := fun x _ => J x.1 x.2 → J r.2.node r.1) h id
    (fun ha _ ih hx => ih (hJ ha hx)) hp

/-- A client stays outside the loop. -/
theorem Arc.outside {p p' : Node P Q} {s' : IngestionService P Q} (ha : Arc outcome t p s p' s')
    (hp : p.inLoop = false) : p'.inLoop = false := by
  cases ha <;> first | rfl | cases hp

/-- A consumption task stays in it until it ends. -/
theorem Arc.inside {p p' : Node P Q} {s' : IngestionService P Q} (ha : Arc outcome t p s p' s')
    (hp : p.inLoop = true) : p'.inLoop = true ∨ ∃ o, p' = .finished o := by
  cases ha <;> first | exact .inl rfl | exact .inr ⟨_, rfl⟩ | cases hp

/-- The rule for the segments of the clients. -/
theorem Leads.keeps_outside {J : Node P Q → IngestionService P Q → Prop}
    (hJ : ∀ {p s p' s'}, Arc outcome t p s p' s' → p.inLoop = false → J p s → J p' s')
    {p : Node P Q} {r : IngestionService P Q × Act P Q} (h : Leads outcome t p s r)
    (ho : p.inLoop = false) (hp : J p s) : r.2.node.inLoop = false ∧ J r.2.node r.1 :=
  h.keeps (J := fun p s => p.inLoop = false ∧ J p s)
    (fun ha hx => ⟨ha.outside hx.1, hJ ha hx.1 hx.2⟩) ⟨ho, hp⟩

/-- The rule for the segments of the loop. -/
theorem Leads.keeps_inside {J : Node P Q → IngestionService P Q → Prop}
    (hJ : ∀ {p s p' s'}, Arc outcome t p s p' s' → p.inLoop = true → J p s → J p' s')
    {p : Node P Q} {r : IngestionService P Q × Act P Q} (h : Leads outcome t p s r)
    (ho : p.inLoop = true) (hp : J p s) :
    (r.2.node.inLoop = true ∨ ∃ o, r.2.node = .finished o) ∧ J r.2.node r.1 := by
  refine h.keeps (J := fun p s => (p.inLoop = true ∨ ∃ o, p = .finished o) ∧ J p s)
    (fun ha hx => ?_) ⟨.inl ho, hp⟩
  rcases hx.1 with hin | ⟨o, rfl⟩
  · exact ⟨ha.inside hin, hJ ha hin hx.2⟩
  · cases ha

/-! ## The body of the loop -/

/-- Nothing changes but the lock, the ports, the counters and the history. -/
structure Flags (s s' : IngestionService P Q) : Prop where
  running : s'.running = s.running
  backgroundTask : s'.backgroundTask = s.backgroundTask
  nextTask : s'.nextTask = s.nextTask
  stops : s'.stops = s.stops

/-- Nothing changes but the ports, the counters and the history. -/
structure Frame (s s' : IngestionService P Q) : Prop extends Flags s s' where
  lock : s'.lock = s.lock

theorem Flags.refl (s : IngestionService P Q) : Flags s s := ⟨rfl, rfl, rfl, rfl⟩

theorem Flags.trans {s₀ s' : IngestionService P Q} (h : Flags s₀ s) (h' : Flags s s') :
    Flags s₀ s' :=
  ⟨h'.running.trans h.running, h'.backgroundTask.trans h.backgroundTask,
    h'.nextTask.trans h.nextTask, h'.stops.trans h.stops⟩

/-- Nothing changes but the publisher, the counters and the history. -/
structure Counted (s s' : IngestionService P Q) : Prop extends Frame s s' where
  connector : s'.connector = s.connector

theorem Frame.refl (s : IngestionService P Q) : Frame s s := ⟨.refl s, rfl⟩

theorem Counted.refl (s : IngestionService P Q) : Counted s s := ⟨.refl s, rfl⟩

theorem countPublish_counted (s : IngestionService P Q) (o : Outcome) :
    Counted s (countPublish s o).1 ∧ (countPublish s o).1.history = s.history := by
  cases o with
  | returned | cancelled => exact ⟨{ Counted.refl s with }, rfl⟩
  | raised e =>
    simp only [countPublish]
    split
    · split <;> exact ⟨{ Counted.refl s with }, rfl⟩
    · exact ⟨.refl s, rfl⟩

theorem endTurn_fst (s : IngestionService P Q) (o : Outcome) :
    (endTurn s o).1 = (countPublish s o).1 := by
  unfold endTurn
  split <;> rename_i h <;> rw [h]

theorem endTurn_counted {s v : IngestionService P Q} {o : Outcome} {x : Turn Q}
    (h : endTurn s o = (v, x)) : Counted s v ∧ v.history = s.history := by
  have hc := countPublish_counted s o
  rw [← endTurn_fst, h] at hc
  exact hc

/-- The body of the loop may publish, once. -/
theorem turn_counted {b : TaskId} {s v : IngestionService P Q} {m : MarketDataMessage} {x : Turn Q}
    (h : turn b s m = (v, x)) :
    Counted s v ∧ (v.history = s.history ∨ v.history = s.history ++ [.publish b]) := by
  have hended {q : Q.State} {o : Outcome}
      (h : endTurn ({ s with publisher := q }.log (.publish b)) o = (v, x)) :
      Counted s v ∧ v.history = s.history ++ [.publish b] := by
    obtain ⟨hc, hh⟩ := endTurn_counted h
    exact ⟨{ hc with }, hh⟩
  unfold turn at h
  split at h
  · split at h
    · cases h
      exact ⟨.refl s, .inl rfl⟩
    · cases h
      exact ⟨.refl s, .inl rfl⟩
    · split at h
      · cases h
        exact ⟨.refl s, .inl rfl⟩
      · split at h
        · cases h
          exact ⟨{ Counted.refl s with }, .inr rfl⟩
        · exact (hended h).imp_right .inr
        · exact (hended h).imp_right .inr
  · cases h
    exact ⟨.refl s, .inl rfl⟩

/-! ## `stop()` -/

theorem stopEnd_leads (k : StopCaller) (n : Nat) (o : Outcome) :
    Leads outcome t (.stopEnd k n o) s (stopEnd s k n o) :=
  Arc.stopEnd.leads .finish

theorem stopDisconnect_leads (k : StopCaller) (n : Nat) :
    Leads outcome t (.disconnect k n) s (stopDisconnect s t k n) := by
  unfold stopDisconnect
  dsimp only
  split
  all_goals rename_i h
  · exact (Arc.disconnectFirst (s := s) h).leads (Arc.disconnectSuspend.leads .suspend)
  · exact (Arc.disconnectFirst (s := s) h).leads
      ((Arc.disconnectOver (r := .returned) nofun).leads (stopEnd_leads ..))
  · rename_i c e
    exact (Arc.disconnectFirst (s := s) h).leads
      ((Arc.disconnectOver (r := .raised e) nofun).leads (stopEnd_leads ..))

theorem stopFlush_leads (k : StopCaller) (n : Nat) :
    Leads outcome t (.flush k n) s (stopFlush s t k n) := by
  unfold stopFlush
  dsimp only
  split <;> rename_i h
  · exact (Arc.flushFirst (s := s) h).leads (Arc.flushSuspend.leads .suspend)
  · exact (Arc.flushFirst (s := s) h).leads
      ((Arc.flushOver (r := .returned) nofun).leads (stopDisconnect_leads k n))
  · rename_i q e
    exact (Arc.flushFirst (s := s) h).leads
      ((Arc.flushOver (r := .raised e) nofun).leads (stopDisconnect_leads k n))

theorem stopAwaited_leads (k : StopCaller) (n : Nat) (o : Outcome) :
    Leads outcome t (.awaited k n o) s (stopAwaited s t k n o) := by
  cases o with
  | raised e => exact Arc.awaitedRaised.leads (stopEnd_leads ..)
  | returned | cancelled => exact (Arc.awaitedOver rfl).leads (stopFlush_leads k n)

theorem stopTimeout_leads (k : StopCaller) (n : Nat) :
    Leads outcome t (.timeout k n) s (stopTimeout outcome s t k n) := by
  unfold stopTimeout
  split
  · rename_i b hb
    split
    · rename_i o ho
      exact (Arc.timeoutDone hb ho).leads (stopAwaited_leads k n o)
    · rename_i ho
      exact (Arc.timeoutCancels hb ho).leads .cancel
  · rename_i hb
    exact (Arc.timeoutNone hb).leads (stopEnd_leads ..)

theorem stopRaised_leads (k : StopCaller) (n : Nat) (late : Bool) (e : PyExn) :
    Leads outcome t (.waited k n late (.raised e)) s (stopRaised outcome s t k n e) := by
  unfold stopRaised
  split
  · rename_i he
    subst he
    exact Arc.waitedTimeout.leads (stopTimeout_leads k n)
  · rename_i he
    exact (Arc.waitedRaised he).leads (stopEnd_leads ..)

theorem stopWaited_leads (k : StopCaller) (n : Nat) (o : Outcome) :
    Leads outcome t (.waited k n false o) s (stopWaited outcome s t k n o) := by
  cases o with
  | returned => exact Arc.waitedReturned.leads (stopFlush_leads k n)
  | raised e => exact stopRaised_leads k n false e
  | cancelled => exact Arc.waitedCancelled.leads (stopEnd_leads ..)

theorem stopWaitedLate_leads (k : StopCaller) (n : Nat) (o : Outcome) :
    Leads outcome t (.waited k n true o) s (stopWaitedLate outcome s t k n o) := by
  cases o with
  | returned => exact Arc.waitedReturned.leads (stopFlush_leads k n)
  | raised e => exact stopRaised_leads k n true e
  | cancelled => exact Arc.waitedLate.leads (stopTimeout_leads k n)

theorem stopLocked_leads (k : StopCaller) :
    Leads outcome t (.stopLocked k) s (stopLocked s t k) := by
  unfold stopLocked
  split
  · rename_i hr
    dsimp only
    split <;> rename_i hb
    · exact (Arc.stopWait hr hb).leads .suspend
    · exact (Arc.stopNoTask hr hb).leads (stopFlush_leads k _)
  · rename_i hr
    exact (Arc.stopIdle (Bool.eq_false_iff.2 hr)).leads .finish

theorem stop_leads (k : StopCaller) : Leads outcome t (.stop k) s (stop s t k) := by
  unfold stop
  split
  · rename_i l hl
    exact (Arc.stopAcquire hl).leads (stopLocked_leads k)
  · rename_i hl
    exact (Arc.stopQueue hl).leads .suspend

/-! ## `start()` -/

theorem afterStart_leads (k : StartCaller) (o : Outcome) :
    Leads outcome t (.started k o) s (afterStart s t k o) := by
  cases k with
  | client => exact Arc.startedClient.leads .finish
  | useCase =>
    cases o with
    | returned => exact Arc.startedSleep.leads .suspend
    | raised e => exact (Arc.startedStop (r := .raised e) nofun).leads (stop_leads _)
    | cancelled => exact (Arc.startedStop (r := .cancelled) nofun).leads (stop_leads _)

theorem startConnected_leads (k : StartCaller) :
    Leads outcome t (.connect k (.finish .returned)) s (startConnected s t k) :=
  Arc.connectReturned.leads (afterStart_leads k _)

theorem startFailed_leads (k : StartCaller) {o : Outcome} (ho : o ≠ .returned) :
    Leads outcome t (.connect k (.finish o)) s (startFailed s t k o) :=
  (Arc.connectFailed ho).leads (afterStart_leads k o)

theorem startLocked_leads (k : StartCaller) :
    Leads outcome t (.startLocked k) s (startLocked outcome s t k) := by
  unfold startLocked
  split
  · rename_i hr
    exact (Arc.startRunning hr).leads (afterStart_leads k _)
  · rename_i hr
    have hr := Bool.eq_false_iff.2 hr
    split <;> rename_i h
    · exact (Arc.connectFirst hr h).leads (Arc.connectSuspend.leads .suspend)
    · exact (Arc.connectFirst hr h).leads (startConnected_leads k)
    · exact (Arc.connectFirst hr h).leads (startFailed_leads k nofun)

theorem start_leads (k : StartCaller) : Leads outcome t (.start k) s (start outcome s t k) := by
  unfold start
  split
  · rename_i l hl
    exact (Arc.startAcquire hl).leads (startLocked_leads k)
  · rename_i hl
    exact (Arc.startQueue hl).leads .suspend

/-! ## `_consume_and_publish()` -/

theorem nextMessage_leads : Leads outcome t .next s (nextMessage outcome s t) := by
  unfold nextMessage
  split <;> rename_i h
  · exact (Arc.streamFirst h).leads (Arc.streamSuspend.leads .suspend)
  · exact (Arc.streamFirst h).leads (Arc.streamFinish.leads .finish)
  · exact (Arc.streamFirst h).leads (Arc.streamFinish.leads .finish)

theorem consume_leads : ∀ (ms : List MarketDataMessage) (s : IngestionService P Q) (x : Turn Q),
    Leads outcome t (.turned ms x) s (consume outcome t ms (s, x))
  | [], s, x => by
    cases x with
    | next => exact Arc.turnNone.leads nextMessage_leads
    | suspend pc => exact Arc.turnSuspend.leads .suspend
    | finish r => exact Arc.turnFinish.leads .finish
  | m :: ms, s, x => by
    cases x with
    | next => exact (Arc.turn rfl).leads (consume_leads ms _ _)
    | suspend pc => exact Arc.turnSuspend.leads .suspend
    | finish r => exact Arc.turnFinish.leads .finish

/-! ## Segments -/

/-- **A first segment is a route.** -/
theorem call_leads : ∀ op : Op, Leads outcome t (.enter op) s (call outcome s t op)
  | .start => Arc.enterStart.leads (start_leads _)
  | .stop => Arc.enterStop.leads (stop_leads _)
  | .useCase => Arc.enterUseCase.leads (start_leads _)

theorem startLock_leads {k : StartCaller} {w : Resume P} {r : IngestionService P Q × Act P Q}
    (h : advance outcome s t (.startLock k) w = some r) :
    Leads outcome t (.resumed (.startLock k) w) s r := by
  rcases w with (_ | _ | _ | _) | _
  case wake.done =>
    delta advance at h
    dsimp only at h
    split at h
    · rename_i l hl
      cases h
      exact (Arc.startWoken hl).leads (startLocked_leads k)
    · cases h
  case wake.cancelled =>
    cases h
    exact Arc.startAbandoned.leads (afterStart_leads k _)
  all_goals cases h

theorem connecting_leads {k : StartCaller} {pc : P.ConnectPc} {w : Resume P}
    {r : IngestionService P Q × Act P Q} (h : advance outcome s t (.connecting k pc) w = some r) :
    Leads outcome t (.resumed (.connecting k pc) w) s r := by
  cases w with
  | timeout => cases h
  | wake w =>
    delta advance at h
    dsimp only at h
    split at h
    · rename_i hc
      cases h
      exact (Arc.connectLater hc).leads (Arc.connectSuspend.leads .suspend)
    · rename_i hc
      cases h
      exact (Arc.connectLater hc).leads (startConnected_leads k)
    · rename_i hne hc
      cases h
      exact (Arc.connectLater hc).leads (startFailed_leads k hne)
    · cases h

theorem stopLock_leads {k : StopCaller} {w : Resume P} {r : IngestionService P Q × Act P Q}
    (h : advance outcome s t (.stopLock k) w = some r) :
    Leads outcome t (.resumed (.stopLock k) w) s r := by
  rcases w with (_ | _ | _ | _) | _
  case wake.done =>
    delta advance at h
    dsimp only at h
    split at h
    · rename_i l hl
      cases h
      exact (Arc.stopWoken hl).leads (stopLocked_leads k)
    · cases h
  case wake.cancelled =>
    cases h
    exact Arc.stopAbandoned.leads .finish
  all_goals cases h

theorem waiting_leads {k : StopCaller} {n : Nat} {b : TaskId} {w : Resume P}
    {r : IngestionService P Q × Act P Q} (h : advance outcome s t (.waiting k n b) w = some r) :
    Leads outcome t (.resumed (.waiting k n b) w) s r := by
  rcases w with (_ | _ | _ | _) | _
  case wake.done =>
    delta advance at h
    dsimp only at h
    split at h
    · rename_i ho
      cases h
      exact (Arc.waitDone (.inl rfl) ho).leads (stopWaited_leads k n _)
    · cases h
  case wake.cancelled =>
    delta advance at h
    dsimp only at h
    split at h
    · rename_i ho
      cases h
      exact (Arc.waitDone (.inr rfl) ho).leads (stopWaited_leads k n _)
    · rename_i ho
      cases h
      exact (Arc.waitCancelled ho).leads .cancel
  case timeout =>
    delta advance at h
    dsimp only at h
    split at h
    · cases h
    · rename_i ho
      cases h
      exact (Arc.waitTimeout ho).leads .cancel
  all_goals cases h

theorem timedOut_leads {k : StopCaller} {n : Nat} {b : TaskId} {w : Resume P}
    {r : IngestionService P Q × Act P Q} (h : advance outcome s t (.timedOut k n b) w = some r) :
    Leads outcome t (.resumed (.timedOut k n b) w) s r := by
  rcases w with (_ | _ | _ | _) | _
  case wake.done =>
    delta advance at h
    dsimp only at h
    split at h
    · rename_i ho
      cases h
      exact (Arc.lateDone ho).leads (stopWaitedLate_leads k n _)
    · cases h
  case wake.cancelled =>
    cases h
    exact Arc.lateCancelled.leads (stopEnd_leads ..)
  all_goals cases h

theorem aborting_leads {k : StopCaller} {n : Nat} {b : TaskId} {w : Resume P}
    {r : IngestionService P Q × Act P Q} (h : advance outcome s t (.aborting k n b) w = some r) :
    Leads outcome t (.resumed (.aborting k n b) w) s r := by
  rcases w with (_ | _ | _ | _) | _
  case wake.done =>
    delta advance at h
    dsimp only at h
    split at h
    · rename_i ho
      cases h
      exact (Arc.abortDone ho).leads (stopEnd_leads ..)
    · cases h
  case wake.cancelled =>
    cases h
    exact Arc.abortCancelled.leads (stopEnd_leads ..)
  all_goals cases h

theorem awaiting_leads {k : StopCaller} {n : Nat} {b : TaskId} {w : Resume P}
    {r : IngestionService P Q × Act P Q} (h : advance outcome s t (.awaiting k n b) w = some r) :
    Leads outcome t (.resumed (.awaiting k n b) w) s r := by
  rcases w with (_ | _ | _ | _) | _
  case wake.done =>
    delta advance at h
    dsimp only at h
    split at h
    · rename_i ho
      cases h
      exact (Arc.awaitDone ho).leads (stopAwaited_leads k n _)
    · cases h
  case wake.cancelled =>
    cases h
    exact Arc.awaitCancelled.leads (stopAwaited_leads k n .cancelled)
  all_goals cases h

theorem flushing_leads {k : StopCaller} {n : Nat} {pc : Q.FlushPc} {w : Resume P}
    {r : IngestionService P Q × Act P Q} (h : advance outcome s t (.flushing k n pc) w = some r) :
    Leads outcome t (.resumed (.flushing k n pc) w) s r := by
  cases w with
  | timeout => cases h
  | wake w =>
    delta advance at h
    dsimp only at h
    split at h
    · rename_i hq
      cases h
      exact (Arc.flushLater hq).leads (Arc.flushSuspend.leads .suspend)
    · rename_i hq
      cases h
      exact (Arc.flushLater hq).leads (Arc.flushCancelled.leads (stopEnd_leads ..))
    · rename_i hne hq
      cases h
      exact (Arc.flushLater hq).leads ((Arc.flushOver hne).leads (stopDisconnect_leads k n))
    · cases h

theorem disconnecting_leads {k : StopCaller} {n : Nat} {pc : P.DisconnectPc} {w : Resume P}
    {r : IngestionService P Q × Act P Q}
    (h : advance outcome s t (.disconnecting k n pc) w = some r) :
    Leads outcome t (.resumed (.disconnecting k n pc) w) s r := by
  cases w with
  | timeout => cases h
  | wake w =>
    delta advance at h
    dsimp only at h
    split at h
    · rename_i hc
      cases h
      exact (Arc.disconnectLater hc).leads (Arc.disconnectSuspend.leads .suspend)
    · rename_i hc
      cases h
      exact (Arc.disconnectLater hc).leads (Arc.disconnectCancelled.leads (stopEnd_leads ..))
    · rename_i hne hc
      cases h
      exact (Arc.disconnectLater hc).leads ((Arc.disconnectOver hne).leads (stopEnd_leads ..))
    · cases h

theorem ready_leads {w : Resume P} {r : IngestionService P Q × Act P Q}
    (h : advance outcome s t .ready w = some r) : Leads outcome t (.resumed .ready w) s r := by
  rcases w with (_ | _ | _ | _) | _
  case wake.done =>
    cases h
    exact Arc.loopFirst.leads nextMessage_leads
  case wake.cancelled =>
    cases h
    exact Arc.loopCancelled.leads .finish
  all_goals cases h

theorem receiving_leads {pc : P.StreamPc} {w : Resume P} {r : IngestionService P Q × Act P Q}
    (h : advance outcome s t (.receiving pc) w = some r) :
    Leads outcome t (.resumed (.receiving pc) w) s r := by
  cases w with
  | timeout => cases h
  | wake w =>
    delta advance at h
    dsimp only at h
    split at h
    · rename_i hc
      cases h
      exact (Arc.streamLater hc).leads (Arc.streamSuspend.leads .suspend)
    · rename_i hc
      cases h
      exact (Arc.streamLater hc).leads (Arc.streamFinish.leads .finish)
    · rename_i hc
      cases h
      exact (Arc.streamLater hc).leads (Arc.streamBatch.leads (consume_leads _ _ _))
    · cases h

theorem publishing_leads {pc : Q.PublishPc} {ms : List MarketDataMessage} {w : Resume P}
    {r : IngestionService P Q × Act P Q} (h : advance outcome s t (.publishing pc ms) w = some r) :
    Leads outcome t (.resumed (.publishing pc ms) w) s r := by
  cases w with
  | timeout => cases h
  | wake w =>
    delta advance at h
    dsimp only at h
    split at h
    · rename_i hq
      cases h
      exact (Arc.publishLater hq).leads (Arc.turnSuspend.leads .suspend)
    · rename_i hq
      cases h
      exact (Arc.publishEnded hq rfl).leads (consume_leads ms _ _)
    · cases h

theorem sleeping_leads {w : Resume P} {r : IngestionService P Q × Act P Q}
    (h : advance outcome s t .sleeping w = some r) :
    Leads outcome t (.resumed .sleeping w) s r := by
  rcases w with (_ | _ | _ | _) | _
  case timeout =>
    cases h
    exact Arc.sleepAgain.leads .suspend
  case wake.cancelled =>
    cases h
    exact Arc.sleepCancelled.leads (stop_leads _)
  all_goals cases h

/-- **So is a later segment.** -/
theorem advance_leads {pc : Pc P Q} {w : Resume P} {r : IngestionService P Q × Act P Q}
    (h : advance outcome s t pc w = some r) : Leads outcome t (.resumed pc w) s r := by
  cases pc with
  | startLock k => exact startLock_leads h
  | connecting k pc => exact connecting_leads h
  | stopLock k => exact stopLock_leads h
  | waiting k n b => exact waiting_leads h
  | timedOut k n b => exact timedOut_leads h
  | aborting k n b => exact aborting_leads h
  | awaiting k n b => exact awaiting_leads h
  | flushing k n pc => exact flushing_leads h
  | disconnecting k n pc => exact disconnecting_leads h
  | ready => exact ready_leads h
  | receiving pc => exact receiving_leads h
  | publishing pc ms => exact publishing_leads h
  | sleeping => exact sleeping_leads h

/-! ## Inside and outside the loop -/

theorem Act.node_inLoop {a : Act P Q} {pc : Pc P Q} (h : a.pc = some pc) :
    a.node.inLoop = pc.inLoop := by
  cases a with
  | suspend | cancelling =>
    cases h
    rfl
  | finish o => cases h

/-- A client calls from outside the loop, and stays there. -/
theorem call_outside {op : Op} (pc : Pc P Q) (hpc : (call outcome s t op).2.pc = some pc) :
    pc.inLoop = false := by
  rw [← Act.node_inLoop hpc]
  exact ((call_leads op).keeps_outside (J := fun _ _ => True) (fun _ _ _ => trivial) rfl trivial).1

/-- The loop stays in its loop, and a client outside. -/
theorem segment_inLoop_eq {pc pc' : Pc P Q} {w : Resume P} {r : IngestionService P Q × Act P Q}
    (h : advance outcome s t pc w = some r) (hpc : r.2.pc = some pc') : pc'.inLoop = pc.inLoop := by
  rw [← Act.node_inLoop hpc]
  cases hl : pc.inLoop with
  | false =>
    exact ((advance_leads h).keeps_outside (J := fun _ _ => True) (fun _ _ _ => trivial) hl trivial).1
  | true =>
    obtain ⟨hin | ⟨o, ho⟩, -⟩ := (advance_leads h).keeps_inside (J := fun _ _ => True)
      (fun _ _ _ => trivial) hl trivial
    · exact hin
    · obtain ⟨v, a⟩ := r
      cases a with
      | finish => cases hpc
      | suspend | cancelling => cases ho

end

end FlinkPractices.Service
