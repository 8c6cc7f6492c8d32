import FlinkPractices.Kafka.Calls
import FlinkPractices.Lib.Shares
import FlinkPractices.Service.Consumers
import FlinkPractices.Service.Status

/-!
# From the stream to the queue

Any number of clients and consumption tasks, with whatever cancellations.  `Desk` keeps beside the
service what the stream has handed to each task, what each task has asked the publisher for, and
what it has put into the publisher's queue.

Principal result: `atMostOnce_of_run`, for `KafkaProducerAdapter` and whatever the producer does.
Each consumption task asks for exactly what is due for the messages handed to it, in order and once;
its records in the queue are those of its requests, in order and at most once; and nothing else is
queued (`AtMostOnce`).

## Proof

* `Queue` — what a publisher does with a request: its record is queued once, or not at all.
* `Arc.flushed` — outside the consumption loop no arc does more to the publisher than flush it, so
  the segments there only flush (`call_flushed`, `segment_flushed`).
* `Turned` — what the body of the loop asks for and queues for one message (`turn_turned`)
* `Serves` — the assertion at a place of the loop, on the way through the messages at hand; kept
  along the arcs of the loop (`Serves.arc`), and so by a segment of it (`segment_publishes`).
* `Desk.Sound` — the invariant of all runs: task by task, with `share` of `Lib.Shares` for what is
  its own

`atMostOnce_fullThenStarted` is a run in which the order between two tasks is not kept.
-/

set_option autoImplicit false

namespace FlinkPractices.Service

open Lib
open Connector (TaskId)

variable {U : UpperTable} {P : ConnectorPort U} {Q : PublisherPort} {R : Type}

/-! ## What a publisher queues -/

/-- What is still to be queued when a first segment ends. -/
def Start.pending {Pc : Type} (f : Pc → R) : Start Pc → List R
  | .suspend pc => [f pc]
  | _ => []

def Next.pending {Pc : Type} (f : Pc → R) : Next Pc → List R
  | .suspend pc => [f pc]
  | .finish _ => []

/-- The queue of a publisher.  A call of `publish()` queues the record of its request once, and is
over then, or not at all; nothing else is queued. -/
structure Queue (Q : PublisherPort) (R : Type) where
  records : Q.State → List R
  /-- the record of a request, if it has one -/
  record : Request → Option R
  /-- the record of a suspended call -/
  attempted : Q.PublishPc → R
  publish : ∀ q x, ∃ rs, records (Q.publish q x.topic x.key x.proto).1 = records q ++ rs ∧
    (rs ++ (Q.publish q x.topic x.key x.proto).2.pending attempted).Sublist (record x).toList
  resumePublish : ∀ q pc w q' n, Q.resumePublish q pc w = some (q', n) →
    ∃ rs, records q' = records q ++ rs ∧ (rs ++ n.pending attempted).Sublist [attempted pc]
  flush : ∀ q, records (Q.flush q).1 = records q
  resumeFlush : ∀ q pc w q' n, Q.resumeFlush q pc w = some (q', n) → records q' = records q

/-! ## Outside the loop -/

/-- A segment of `flush()`. -/
inductive Flushes (Q : PublisherPort) : Q.State → Q.State → Prop
  | first (q) : Flushes Q q (Q.flush q).1
  | later {q pc w q' n} : Q.resumeFlush q pc w = some (q', n) → Flushes Q q q'

/-- Nothing but `flush()` has been called. -/
def Flushed (s s' : IngestionService P Q) : Prop :=
  Relation.ReflTransGen (Flushes Q) s.publisher s'.publisher

section

variable {outcome : TaskId → Option Outcome} {s₀ s : IngestionService P Q} {t : TaskId}

/-- Outside the loop, an arc flushes the publisher or leaves it alone. -/
theorem Arc.flushed {p p' : Node P Q} {s' : IngestionService P Q} (ha : Arc outcome t p s p' s')
    (hp : p.inLoop = false) (h : Flushed s₀ s) : Flushed s₀ s' := by
  cases ha with
  | flushFirst hq =>
    have hfirst := Flushes.first (Q := Q) s.publisher
    rw [hq] at hfirst
    exact h.tail hfirst
  | flushLater hq =>
    obtain ⟨w', -, hq⟩ := Option.bind_eq_some_iff.1 hq
    exact h.tail (.later hq)
  | publishLater | publishEnded | turn => cases hp
  | _ => exact h

/-- **First segments** only flush. -/
theorem call_flushed (op : Op) : Flushed s (call outcome s t op).1 :=
  ((call_leads op).keeps_outside (J := fun _ => Flushed s) Arc.flushed rfl .refl).2

/-- **So do the later segments outside the loop.** -/
theorem segment_flushed {pc : Pc P Q} {w : Resume P} {r : IngestionService P Q × Act P Q}
    (hp : pc.inLoop = false) (hr : advance outcome s t pc w = some r) : Flushed s r.1 :=
  ((advance_leads hr).keeps_outside (J := fun _ => Flushed s) Arc.flushed hp .refl).2

end

/-- What a publisher keeps while it is flushed. -/
theorem Flushed.kept {α : Type} {s s' : IngestionService P Q} (h : Flushed s s') (v : Q.State → α)
    (hv : ∀ q q', Flushes Q q q' → v q' = v q) : v s'.publisher = v s.publisher := by
  unfold Flushed at h
  generalize s'.publisher = q at h ⊢
  induction h with
  | refl => rfl
  | tail _ hf ih => exact (hv _ _ hf).trans ih

/-- The record and the queue are kept. -/
theorem Flushed.publishes_nothing (E : Queue Q R) {s s' : IngestionService P (recording Q)}
    (h : Flushed s s') :
    s'.record.calls = s.record.calls ∧ E.records s'.publisher.1 = E.records s.publisher.1 := by
  refine ⟨h.kept (fun q => q.2.calls) fun q q' hf => ?_,
    h.kept (fun q => E.records q.1) fun q q' hf => ?_⟩
  · cases hf with
    | first => rfl
    | later hq =>
      obtain ⟨y, -, hy⟩ := Option.map_eq_some_iff.1 hq
      cases hy
      rfl
  · cases hf with
    | first => exact E.flush q.1
    | later hq =>
      obtain ⟨y, hf, hy⟩ := Option.map_eq_some_iff.1 hq
      cases hy
      exact E.resumeFlush _ _ _ _ _ hf

/-! ## In the loop -/

/-- The request that is due for a message: none without a configuration. -/
def dueFor (conf : Option (ExchangeConfig U)) (m : MarketDataMessage) : Option Request :=
  conf.bind fun cfg => request cfg m

/-- The record that a suspended task is trying to queue. -/
def Pc.pending (E : Queue Q R) : Pc P (recording Q) → List R
  | .publishing pc _ => [E.attempted pc]
  | _ => []

def Act.pending (E : Queue Q R) (a : Act P (recording Q)) : List R := a.pc.elim [] (Pc.pending E)

def Turn.pending (E : Queue Q R) : Turn (recording Q) → List R
  | .suspend pc => [E.attempted pc]
  | _ => []

/-- The body of the loop for the message `m`: the requests `qs` and the records `rs` are new. -/
structure Turned (E : Queue Q R) (conf : Option (ExchangeConfig U))
    (s : IngestionService P (recording Q)) (m : MarketDataMessage)
    (x : IngestionService P (recording Q) × Turn (recording Q)) (qs : List Request) (rs : List R) :
    Prop where
  calls : x.1.record.calls = s.record.calls ++ qs
  records : E.records x.1.publisher.1 = E.records s.publisher.1 ++ rs
  queued : (rs ++ x.2.pending E).Sublist (qs.filterMap E.record)
  due : qs <+: (dueFor conf m).toList
  all : (∀ o, x.2 ≠ .finish o) → qs = (dueFor conf m).toList
  running : s.running = false → qs = [] ∧ ∃ o, x.2 = .finish o

/-- The loop over the messages `ms`, with `open` still to be queued before. -/
structure Publishes (E : Queue Q R) (conf : Option (ExchangeConfig U))
    (s : IngestionService P (recording Q)) (before : List R) (ms : List MarketDataMessage)
    (r : IngestionService P (recording Q) × Act P (recording Q)) (qs : List Request) (rs : List R) :
    Prop where
  calls : r.1.record.calls = s.record.calls ++ qs
  records : E.records r.1.publisher.1 = E.records s.publisher.1 ++ rs
  queued : (rs ++ r.2.pending E).Sublist (before ++ qs.filterMap E.record)
  due : qs <+: ms.filterMap (dueFor conf)
  all : ∀ pc, r.2.pc = some pc →
    qs ++ pc.atHand.filterMap (dueFor conf) = ms.filterMap (dueFor conf)
  running : s.running = false → qs = []

section

variable {outcome : TaskId → Option Outcome} {b : TaskId} {E : Queue Q R}
  {conf : Option (ExchangeConfig U)} {s : IngestionService P (recording Q)}

/-- Nothing is asked for. -/
theorem Turned.nothing {m : MarketDataMessage} {a : Turn (recording Q)} (ha : ∀ pc, a ≠ .suspend pc)
    (hm : dueFor conf m = none ∨ ∃ o, a = .finish o)
    (hr : s.running = false → ∃ o, a = .finish o) : Turned E conf s m (s, a) [] [] := by
  have hp : a.pending E = [] := by
    cases a with
    | suspend pc => exact absurd rfl (ha pc)
    | next | finish => rfl
  refine ⟨(List.append_nil _).symm, (List.append_nil _).symm, ?_, List.nil_prefix, fun hn => ?_,
    fun h => ⟨rfl, hr h⟩⟩
  · rw [show (s, a).2.pending E = [] from hp]
    exact .slnil
  · rcases hm with hm | ⟨o, ho⟩
    · rw [hm]
      rfl
    · exact absurd ho (hn o)

/-- A `publish()` that is over is counted. -/
theorem endTurn_pending (s : IngestionService P (recording Q)) (o : Outcome) :
    (endTurn s o).2.pending E = [] := by
  unfold endTurn
  split <;> rfl

/-- **One message.** -/
theorem turn_turned (hP : ∀ c, P.config c = conf) (m : MarketDataMessage) :
    ∃ qs rs, Turned E conf s m (turn b s m) qs rs := by
  cases hr : s.running with
  | false =>
    refine ⟨[], [], ?_⟩
    rw [show turn b s m = (s, .finish .returned) by simp [turn, hr]]
    exact .nothing (fun _ h => by cases h) (.inr ⟨_, rfl⟩) fun _ => ⟨_, rfl⟩
  | true =>
    cases conf with
    | none =>
      refine ⟨[], [], ?_⟩
      rw [show turn b s m = (s, .finish (.raised (.attributeError "config"))) by
        simp [turn, hr, hP, isSubscribedMarket]]
      exact .nothing (fun _ h => by cases h) (.inl rfl) fun _ => ⟨_, rfl⟩
    | some cfg =>
      cases hq : request cfg m with
      | none =>
        refine ⟨[], [], ?_⟩
        rw [turn_skips hr (hP _) hq]
        exact .nothing (fun _ h => by cases h) (.inl hq) fun h => by cases hr.symm.trans h
      | some q =>
        have hdue : dueFor (some cfg) m = some q := hq
        obtain ⟨rs, hrs, hsub⟩ := E.publish s.publisher.1 q
        have hfilter : [q].filterMap E.record = (E.record q).toList := by
          cases hrec : E.record q <;> simp [hrec]
        refine ⟨[q], rs, ?_⟩
        rw [turn_publishes hr (hP _) hq]
        simp only [recording]
        have hover : ∀ (v : IngestionService P (recording Q)) (o : Outcome),
            v.record.calls = s.record.calls ++ [q] → E.records v.publisher.1 =
              E.records s.publisher.1 ++ rs → rs.Sublist (E.record q).toList →
            Turned E (some cfg) s m (endTurn v o) [q] rs := by
          intro v o hc hv hsub
          have hpub := (endTurn_rest v o).2
          refine ⟨?_, by rw [hpub]; exact hv, ?_, by rw [hdue]; exact List.prefix_rfl,
            fun _ => by rw [hdue]; rfl, fun h => by cases hr.symm.trans h⟩
          · rw [IngestionService.record, hpub]
            exact hc
          · rw [endTurn_pending, List.append_nil, hfilter]
            exact hsub
        rcases hpub : Q.publish s.publisher.1 q.topic q.key q.proto with ⟨p, pc | _ | e⟩
        all_goals rw [hpub] at hrs hsub
        · refine ⟨rfl, hrs, ?_, by rw [hdue]; exact List.prefix_rfl, fun _ => by rw [hdue]; rfl,
            fun h => by cases hr.symm.trans h⟩
          rw [hfilter]
          exact hsub
        · exact hover _ _ rfl hrs (by simpa [Start.pending] using hsub)
        · exact hover _ _ rfl hrs (by simpa [Start.pending] using hsub)

/-- The messages that are at hand in a place of the loop. -/
def Node.atHand (outcome : TaskId → Option Outcome) (s : IngestionService P Q) (b : TaskId) :
    Node P Q → List MarketDataMessage
  | .resumed pc w => pc.atHand ++ batch outcome s b pc w
  | .streamed (.batch m ms) => m :: ms
  | .turned ms _ => ms
  | .suspended pc => pc.atHand
  | .cancels pc _ => pc.atHand
  | _ => []

/-- The record that is being queued. -/
def Node.pending (E : Queue Q R) : Node P (recording Q) → List R
  | .resumed pc _ => pc.pending E
  | .turned _ x => x.pending E
  | .suspended pc => pc.pending E
  | .cancels pc _ => pc.pending E
  | _ => []

/-- The loop is over. -/
def Node.isOver : Node P Q → Bool
  | .finished _ => true
  | .turned _ (.finish _) => true
  | _ => false

/-- On the way through the messages `ms`, with `before` still to be queued at first: the requests
`qs` and the records `rs` are new. -/
structure Serves (E : Queue Q R) (conf : Option (ExchangeConfig U))
    (outcome : TaskId → Option Outcome) (b : TaskId) (s : IngestionService P (recording Q))
    (before : List R) (ms : List MarketDataMessage) (p : Node P (recording Q))
    (v : IngestionService P (recording Q)) (qs : List Request) (rs : List R) : Prop where
  calls : v.record.calls = s.record.calls ++ qs
  records : E.records v.publisher.1 = E.records s.publisher.1 ++ rs
  queued : (rs ++ p.pending E).Sublist (before ++ qs.filterMap E.record)
  due : qs <+: ms.filterMap (dueFor conf)
  all : p.isOver = false →
    qs ++ (p.atHand outcome v b).filterMap (dueFor conf) = ms.filterMap (dueFor conf)
  running : v.running = s.running
  idle : s.running = false → qs = []

section

variable {before : List R} {ms : List MarketDataMessage} {p p' : Node P (recording Q)}
  {v v' : IngestionService P (recording Q)} {qs : List Request} {rs : List R}

/-- Nothing more is asked for. -/
theorem Serves.same (h : Serves E conf outcome b s before ms p v qs rs)
    (hpub : v'.publisher = v.publisher) (hr : v'.running = v.running)
    (hp : (p'.pending E).Sublist (p.pending E))
    (ho : p'.isOver = false → p.isOver = false ∧ p'.atHand outcome v' b = p.atHand outcome v b) :
    Serves E conf outcome b s before ms p' v' qs rs where
  calls := by
    rw [IngestionService.record, hpub]
    exact h.calls
  records := by
    rw [hpub]
    exact h.records
  queued := ((List.Sublist.refl rs).append hp).trans h.queued
  due := h.due
  all hover := by
    rw [(ho hover).2]
    exact h.all (ho hover).1
  running := hr.trans h.running
  idle := h.idle

/-- A suspended `publish()` goes on. -/
theorem Serves.resumed {pc : (recording Q).PublishPc} {n : Next (recording Q).PublishPc}
    {w : Wake P.Input} {q : (recording Q).State} {msgs : List MarketDataMessage}
    (h : Serves E conf outcome b s before ms (.resumed (.publishing pc msgs) (.wake w)) v qs rs)
    (hq : w.plain.bind ((recording Q).resumePublish v.publisher pc) = some (q, n))
    (hpub : v'.publisher = q) (hr : v'.running = v.running) {x : Turn (recording Q)}
    (hx : x.pending E = n.pending E.attempted) :
    ∃ rs, Serves E conf outcome b s before ms (.turned msgs x) v' qs rs := by
  obtain ⟨w', -, hq⟩ := Option.bind_eq_some_iff.1 hq
  have hresume : ∃ rs', q.2.calls = v.record.calls ∧
      E.records q.1 = E.records v.publisher.1 ++ rs' ∧
      (rs' ++ n.pending E.attempted).Sublist [E.attempted pc] := by
    simp only [recording] at hq
    cases hm : Q.resumePublish v.publisher.1 pc w' with
    | none =>
      rw [hm] at hq
      cases hq
    | some y =>
      obtain ⟨rs', hrs, hsub⟩ := E.resumePublish _ _ _ _ _ hm
      rw [hm] at hq
      obtain ⟨q', n'⟩ := y
      cases n' <;> cases hq <;> exact ⟨rs', rfl, hrs, hsub⟩
  obtain ⟨rs', hcalls, hrecords, hsub⟩ := hresume
  refine ⟨rs ++ rs', ?_, ?_, ?_, h.due, fun _ => ?_, hr.trans h.running, h.idle⟩
  · rw [IngestionService.record, hpub, hcalls]
    exact h.calls
  · rw [hpub, hrecords, h.records, List.append_assoc]
  · rw [List.append_assoc]
    refine ((List.Sublist.refl rs).append ?_).trans h.queued
    show (rs' ++ x.pending E).Sublist [E.attempted pc]
    rw [hx]
    exact hsub
  · have hall := h.all rfl
    simp only [Node.atHand, Pc.atHand, batch, List.append_nil] at hall
    exact hall

/-- The body of the loop comes to the message `m`. -/
theorem Serves.turned (hP : ∀ c, P.config c = conf) {m : MarketDataMessage}
    {msgs : List MarketDataMessage} {x : Turn (recording Q)}
    (h : Serves E conf outcome b s before ms (.turned (m :: msgs) .next) v qs rs)
    (ht : turn b v m = (v', x)) :
    ∃ qs rs, Serves E conf outcome b s before ms (.turned msgs x) v' qs rs := by
  obtain ⟨qs', rs', hturned⟩ := turn_turned (E := E) (b := b) (s := v) hP m
  rw [ht] at hturned
  have hmsgs : (m :: msgs).filterMap (dueFor conf) =
      (dueFor conf m).toList ++ msgs.filterMap (dueFor conf) := by
    cases hd : dueFor conf m <;> simp [hd]
  have hall : qs ++ ((dueFor conf m).toList ++ msgs.filterMap (dueFor conf)) =
      ms.filterMap (dueFor conf) := hmsgs ▸ h.all rfl
  have hqueued : rs.Sublist (before ++ qs.filterMap E.record) := by
    simpa [Node.pending, Turn.pending] using h.queued
  refine ⟨qs ++ qs', rs ++ rs', ?_, ?_, ?_, ?_, fun hover => ?_, ?_, fun hr => ?_⟩
  · rw [hturned.calls, h.calls, List.append_assoc]
  · rw [hturned.records, h.records, List.append_assoc]
  · rw [List.append_assoc, List.filterMap_append, ← List.append_assoc before]
    exact hqueued.append hturned.queued
  · rw [← hall]
    exact (List.prefix_append_right_inj _).2 (hturned.due.trans (List.prefix_append _ _))
  · have hx : ∀ o, x ≠ .finish o := by
      rintro o rfl
      cases hover
    rw [hturned.all hx, List.append_assoc]
    exact hall
  · exact (turn_counted ht).1.running.trans h.running
  · rw [h.idle hr, (hturned.running (h.running.trans hr)).1]
    rfl

/-- **An arc of the loop.** -/
theorem Serves.arc (hP : ∀ c, P.config c = conf)
    (h : ∃ qs rs, Serves E conf outcome b s before ms p v qs rs) (ha : Arc outcome b p v p' v')
    (hp : p.inLoop = true) : ∃ qs rs, Serves E conf outcome b s before ms p' v' qs rs := by
  obtain ⟨qs, rs, h⟩ := h
  cases ha with
  | turn ht => exact h.turned hP ht
  | @publishLater _ _ _ _ q pc hq =>
    refine ⟨qs, h.resumed hq ?_ ?_ ?_⟩ <;> rfl
  | @publishEnded _ _ _ _ q o _ x hq ht =>
    have hpending := endTurn_pending (E := E) { v with publisher := q } o
    have hrest := (endTurn_rest { v with publisher := q } o).2
    rw [ht] at hpending hrest
    exact ⟨qs, h.resumed hq hrest (endTurn_counted ht).1.running hpending⟩
  | @streamFirst _ _ a hc =>
    exact ⟨qs, rs, h.same rfl rfl (List.Sublist.refl _) fun _ => ⟨rfl, by cases a <;> rfl⟩⟩
  | @streamLater _ _ _ _ x hc =>
    refine ⟨qs, rs, h.same rfl rfl (List.Sublist.refl _) fun _ => ⟨rfl, ?_⟩⟩
    simp only [Node.atHand, Pc.atHand, batch, hc]
    cases x <;> rfl
  | turnFinish | loopCancelled | streamFinish =>
    refine ⟨qs, rs, h.same rfl rfl (List.Sublist.refl _) fun ho => ?_⟩
    cases ho
  | loopFirst | streamSuspend | streamBatch | turnNone | turnSuspend =>
    exact ⟨qs, rs, h.same rfl rfl (List.Sublist.refl _) fun _ => ⟨rfl, rfl⟩⟩
  | _ => cases hp

end

/-- **A segment of the loop.** -/
theorem segment_publishes (hP : ∀ c, P.config c = conf) {pc : Pc P (recording Q)} {w : Resume P}
    {r : IngestionService P (recording Q) × Act P (recording Q)} (hp : pc.inLoop = true)
    (hr : advance outcome s b pc w = some r) :
    ∃ qs rs, Publishes E conf s (pc.pending E) (pc.atHand ++ batch outcome s b pc w) r qs rs := by
  have hstart : Serves E conf outcome b s (pc.pending E) (pc.atHand ++ batch outcome s b pc w)
      (.resumed pc w) s [] [] :=
    ⟨(List.append_nil _).symm, (List.append_nil _).symm, List.sublist_append_left _ _,
      List.nil_prefix, fun _ => List.nil_append _, rfl, fun _ => rfl⟩
  obtain ⟨-, qs, rs, h⟩ := (advance_leads hr).keeps_inside (fun ha hp h => Serves.arc hP h ha hp)
    hp ⟨[], [], hstart⟩
  refine ⟨qs, rs, h.calls, h.records, ?_, h.due, fun pc' hpc => ?_, h.idle⟩
  · obtain ⟨v, a⟩ := r
    cases a <;> exact h.queued
  · obtain ⟨v, a⟩ := r
    cases a with
    | suspend | cancelling =>
      cases hpc
      exact h.all rfl
    | finish => cases hpc

end

/-! ## The whole service -/

/-- The service, and what has gone through its tasks. -/
structure Desk (P : ConnectorPort U) (Q : PublisherPort) (R : Type) where
  sys : Sys P (recording Q)
  /-- the messages the stream has handed to each task -/
  handed : List (TaskId × MarketDataMessage)
  /-- the requests each task has made -/
  asked : List (TaskId × Request)
  /-- the records each task has queued -/
  queued : List (TaskId × R)

def Desk.init (s : Sys P (recording Q)) : Desk P Q R := ⟨s, [], [], []⟩

/-- What the stream hands over in a step. -/
def handedOver (s : Sys P Q) : Label P → List (TaskId × MarketDataMessage)
  | .resume t w =>
    contribute t ((s.tasks t).call.elim [] fun pc => batch s.outcome s.service t pc w)
  | _ => []

/-- One step: the requests and records that are new are those of the task that makes it. -/
def Desk.step (E : Queue Q R) (d : Desk P Q R) (l : Label P) : Option (Desk P Q R) :=
  (Service.step d.sys l).map fun s =>
    { sys := s
      handed := d.handed ++ handedOver d.sys l
      asked := d.asked ++ contribute l.task
        (s.service.record.calls.drop d.sys.service.record.calls.length)
      queued := d.queued ++ contribute l.task
        ((E.records s.service.publisher.1).drop (E.records d.sys.service.publisher.1).length) }

/-- **At most once, in order, and nothing else**: from the stream to the requests, and from them to
the queue. -/
structure AtMostOnce (E : Queue Q R) (conf : Option (ExchangeConfig U)) (d : Desk P Q R) :
    Prop where
  /-- the publisher is called by the tasks alone, and queues what they ask for alone -/
  calls : d.asked.map Prod.snd = d.sys.service.record.calls
  records : d.queued.map Prod.snd = E.records d.sys.service.publisher.1
  /-- a task asks for what is due for its messages, leaving nothing out -/
  inOrder : ∀ b, share b d.asked <+: (share b d.handed).filterMap (dueFor conf)
  /-- and up to the last one it has got, unless it is over -/
  all : ∀ b pc, (d.sys.tasks b).call = some pc →
    share b d.asked ++ pc.atHand.filterMap (dueFor conf) =
      (share b d.handed).filterMap (dueFor conf)
  queued : ∀ b, (share b d.queued).Sublist ((share b d.asked).filterMap E.record)

/-- The invariant of all runs. -/
structure Desk.Sound (E : Queue Q R) (conf : Option (ExchangeConfig U)) (d : Desk P Q R) : Prop
    extends AtMostOnce E conf d where
  pending : ∀ b, (share b d.queued ++ (d.sys.tasks b).call.elim [] (Pc.pending E)).Sublist
    ((share b d.asked).filterMap E.record)
  /-- clients have nothing to do with it -/
  apart : d.sys.Apart
  clients : ∀ t, t < d.sys.clients → share t d.handed = [] ∧ share t d.asked = [] ∧
    share t d.queued = []

theorem Pc.outside {E : Queue Q R} {pc : Pc P (recording Q)} (h : pc.inLoop = false) :
    pc.atHand = [] ∧ pc.pending E = [] := by
  cases pc <;> first | exact ⟨rfl, rfl⟩ | cases h

variable {E : Queue Q R} {conf : Option (ExchangeConfig U)} {d d' : Desk P Q R} {l : Label P}

/-- What a step adds. -/
theorem Desk.step_adds {qs : List Request} {rs : List R} {s : Sys P (recording Q)}
    (h : d.step E l = some d') (hs : Service.step d.sys l = some s)
    (hc : s.service.record.calls = d.sys.service.record.calls ++ qs)
    (hr : E.records s.service.publisher.1 = E.records d.sys.service.publisher.1 ++ rs) :
    d' = ⟨s, d.handed ++ handedOver d.sys l, d.asked ++ contribute l.task qs,
      d.queued ++ contribute l.task rs⟩ := by
  unfold Desk.step at h
  rw [hs, Option.map_some, hc, hr, List.drop_left, List.drop_left] at h
  exact (Option.some.inj h).symm

/-- A step in which nothing goes through a task. -/
theorem Desk.Sound.same {s : Sys P (recording Q)} (h : d.Sound E conf)
    (hs : Service.step d.sys l = some s) (hd : d.step E l = some d')
    (hl : handedOver d.sys l = []) (hclients : s.clients = d.sys.clients)
    (hkept : s.service.record.calls = d.sys.service.record.calls ∧
      E.records s.service.publisher.1 = E.records d.sys.service.publisher.1)
    (hcall : ∀ b pc, (s.tasks b).call = some pc → (d.sys.tasks b).call = some pc ∨
      pc.inLoop = false ∧ (b < d.sys.clients ∨
        ∃ pc', (d.sys.tasks b).call = some pc' ∧ pc'.inLoop = false)) : d'.Sound E conf := by
  have hd' := Desk.step_adds hd hs (hkept.1.trans (List.append_nil _).symm)
    (hkept.2.trans (List.append_nil _).symm)
  rw [hl, contribute_nil, contribute_nil, List.append_nil, List.append_nil, List.append_nil] at hd'
  subst hd'
  refine ⟨⟨h.calls.trans hkept.1.symm, h.records.trans hkept.2.symm, h.inOrder, fun b pc hpc => ?_,
    h.queued⟩, fun b => ?_, h.apart.step hs, fun t ht => h.clients t (hclients ▸ ht)⟩
  · rcases hcall b pc hpc with hold | ⟨hout, hb | ⟨pc', hpc', hout'⟩⟩
    · exact h.all b pc hold
    · obtain ⟨hh, ha, -⟩ := h.clients b hb
      rw [(Pc.outside (E := E) hout).1]
      show share b d.asked ++ _ = _
      rw [ha, show share b d.handed = [] from hh]
      rfl
    · have hall := h.all b pc' hpc'
      rw [(Pc.outside (E := E) hout').1] at hall
      rw [(Pc.outside (E := E) hout).1]
      exact hall
  · dsimp only
    cases hc : (s.tasks b).call with
    | none =>
      rw [Option.elim_none, List.append_nil]
      exact h.queued b
    | some pc =>
      rcases hcall b pc hc with hold | ⟨hout, -⟩
      · have hp := h.pending b
        rwa [hold] at hp
      · rw [Option.elim_some, (Pc.outside hout).2, List.append_nil]
        exact h.queued b

/-- A segment of the loop of task `t`. -/
theorem Desk.Sound.segment {s : Sys P (recording Q)} {t : TaskId} {pc : Pc P (recording Q)}
    {w : Resume P} {r : IngestionService P (recording Q) × Act P (recording Q)} {qs : List Request}
    {rs : List R} (h : d.Sound E conf) (hs : Service.step d.sys (.resume t w) = some s)
    (hd : d.step E (.resume t w) = some d') (hset : Settled d.sys s t r)
    (hpc : (d.sys.tasks t).call = some pc) (hin : pc.inLoop = true)
    (hp : Publishes E conf d.sys.service (pc.pending E)
      (pc.atHand ++ batch d.sys.outcome d.sys.service t pc w) r qs rs) : d'.Sound E conf := by
  have hd' := Desk.step_adds hd hs (by rw [hset.service]; exact hp.calls)
    (by rw [hset.service]; exact hp.records)
  have hover : handedOver d.sys (.resume t w) =
      contribute t (batch d.sys.outcome d.sys.service t pc w) := by
    simp only [handedOver, hpc, Option.elim_some]
  have htask : (Label.resume t w : Label P).task = t := rfl
  rw [hover, htask] at hd'
  subst hd'
  have hdue : share t d.asked ++
      (pc.atHand ++ batch d.sys.outcome d.sys.service t pc w).filterMap (dueFor conf) =
      (share t d.handed ++ batch d.sys.outcome d.sys.service t pc w).filterMap (dueFor conf) := by
    rw [List.filterMap_append, List.filterMap_append, ← List.append_assoc, h.all t pc hpc]
  have hqueued : (share t d.queued ++ rs ++ r.2.pending E).Sublist
      ((share t d.asked ++ qs).filterMap E.record) := by
    have hold := h.pending t
    rw [hpc, Option.elim_some] at hold
    rw [List.filterMap_append, List.append_assoc]
    refine ((List.Sublist.refl (share t d.queued)).append hp.queued).trans ?_
    rw [← List.append_assoc]
    exact hold.append (.refl _)
  have hother : ∀ {α : Type} (b : TaskId) (xs : List (TaskId × α)) (ys : List α), b ≠ t →
      share b (xs ++ contribute t ys) = share b xs := by
    intro α b xs ys hb
    rw [share_append, share_contribute_of_ne (Ne.symm hb), List.append_nil]
  have hself : ∀ {α : Type} (xs : List (TaskId × α)) (ys : List α),
      share t (xs ++ contribute t ys) = share t xs ++ ys := by
    intro α xs ys
    rw [share_append, share_contribute]
  refine ⟨⟨?_, ?_, fun b => ?_, fun b pc' hpc' => ?_, fun b => ?_⟩, fun b => ?_,
    h.apart.step hs, fun u hu => ?_⟩
  all_goals dsimp only at *
  · rw [List.map_append, h.calls, map_snd_contribute, hset.service, hp.calls]
  · rw [List.map_append, h.records, map_snd_contribute, hset.service, hp.records]
  · by_cases hb : b = t
    · subst hb
      rw [hself, hself, ← hdue]
      exact (List.prefix_append_right_inj _).2 hp.due
    · rw [hother b _ _ hb, hother b _ _ hb]
      exact h.inOrder b
  · by_cases hb : b = t
    · subst hb
      rw [hset.call] at hpc'
      rw [hself, hself, ← hdue, List.append_assoc, hp.all pc' hpc']
    · rw [(hset.others b hb).1] at hpc'
      rw [hother b _ _ hb, hother b _ _ hb]
      exact h.all b pc' hpc'
  · by_cases hb : b = t
    · subst hb
      rw [hself, hself]
      exact (List.sublist_append_left _ _).trans hqueued
    · rw [hother b _ _ hb, hother b _ _ hb]
      exact h.queued b
  · by_cases hb : b = t
    · subst hb
      rw [hself, hself, hset.call]
      exact hqueued
    · rw [hother b _ _ hb, hother b _ _ hb, (hset.others b hb).1]
      exact h.pending b
  · rw [hset.clients] at hu
    have hne : u ≠ t := by
      rintro rfl
      have hout := h.apart u hu pc hpc
      rw [hin] at hout
      cases hout
    rw [hother u _ _ hne, hother u _ _ hne, hother u _ _ hne]
    exact h.clients u hu

/-- **One step**: what it asks for, it asks for while the service is running. -/
theorem Desk.Sound.step (hP : ∀ c, P.config c = conf) (h : d.Sound E conf)
    (hd : d.step E l = some d') :
    d'.Sound E conf ∧ (d.sys.service.running = false → d'.asked = d.asked) := by
  obtain ⟨s, hs, -⟩ := Option.map_eq_some_iff.1 hd
  have hquiet : handedOver d.sys l = [] → s.clients = d.sys.clients →
      s.service.record.calls = d.sys.service.record.calls ∧
        E.records s.service.publisher.1 = E.records d.sys.service.publisher.1 →
      (∀ b pc, (s.tasks b).call = some pc → (d.sys.tasks b).call = some pc ∨ pc.inLoop = false ∧
        (b < d.sys.clients ∨ ∃ pc', (d.sys.tasks b).call = some pc' ∧ pc'.inLoop = false)) →
      d'.Sound E conf ∧ (d.sys.service.running = false → d'.asked = d.asked) := by
    intro hl hclients hkept hcall
    refine ⟨h.same hs hd hl hclients hkept hcall, fun _ => ?_⟩
    rw [Desk.step_adds hd hs (hkept.1.trans (List.append_nil _).symm)
      (hkept.2.trans (List.append_nil _).symm), contribute_nil]
    exact List.append_nil _
  cases step_effect hs with
  | @first t op _ ht _ _ hset =>
    have hflushed : Flushed d.sys.service (call d.sys.outcome d.sys.service t op).1 :=
      call_flushed op
    have hkept := hflushed.publishes_nothing E
    rw [← hset.service] at hkept
    refine hquiet rfl hset.clients hkept fun b pc hpc => ?_
    by_cases hb : b = t
    · subst hb
      rw [hset.call] at hpc
      exact .inr ⟨call_outside pc hpc, .inl ht⟩
    · rw [(hset.others b hb).1] at hpc
      exact .inl hpc
  | @later t pc w r _ _ _ hc _ hr hset =>
    cases hin : pc.inLoop with
    | false =>
      have hkept := (segment_flushed hin hr).publishes_nothing E
      rw [← hset.service] at hkept
      have hl : handedOver d.sys (.resume t w) = [] := by
        simp only [handedOver, hc, Option.elim_some]
        cases pc <;> first | rfl | cases hin
      refine hquiet hl hset.clients hkept fun b pc' hpc' => ?_
      by_cases hb : b = t
      · subst hb
        rw [hset.call] at hpc'
        exact .inr ⟨(segment_inLoop_eq hr hpc').trans hin, .inr ⟨pc, hc, hin⟩⟩
      · rw [(hset.others b hb).1] at hpc'
        exact .inl hpc'
    | true =>
      obtain ⟨qs, rs, hp⟩ := segment_publishes (E := E) hP hin hr
      refine ⟨h.segment hs hd hset hc hin hp, fun hrun => ?_⟩
      rw [Desk.step_adds hd hs (by rw [hset.service]; exact hp.calls)
        (by rw [hset.service]; exact hp.records), hp.running hrun]
      exact List.append_nil _
  | quiet hl hservice hclients hcall _ =>
    refine hquiet ?_ hclients (by rw [hservice]; exact ⟨rfl, rfl⟩) fun b pc hpc => .inl ?_
    · cases l with
      | resume t w => exact absurd rfl (hl t w)
      | _ => rfl
    · rw [← hcall]
      exact hpc

theorem Desk.sound_init {c : P.State} {q : Q.State} {maxConsecutiveFailures clients : Nat}
    (hq : E.records q = []) :
    (Desk.init (R := R) (Sys.init (P := P) (Q := recording Q) c (q, Record.empty)
      maxConsecutiveFailures clients)).Sound E conf where
  calls := rfl
  records := hq.symm
  inOrder _ := List.prefix_rfl
  all b pc hpc := by
    obtain ⟨-, hpc⟩ := Option.ite_none_left_eq_some.1 hpc
    cases hpc
    rfl
  queued _ := .slnil
  pending b := by
    by_cases hb : b < clients <;> simp [Desk.init, Sys.init, hb, Pc.pending]
  apart := Sys.apart_init
  clients _ _ := ⟨rfl, rfl, rfl⟩

/-! ## The Kafka adapter -/

/-- An attempt queues the record, or it does not. -/
theorem attempt_queues (K : Kafka.Producer) (a : Kafka.Adapter) (r : Kafka.Record) (n : Nat) :
    ∃ rs, (Kafka.attempt K a r n).1.records = a.records ++ rs ∧
      (rs ++ (Kafka.attempt K a r n).2.pending Kafka.PublishPc.record).Sublist [r] := by
  unfold Kafka.attempt
  split
  · cases K.produce a.produces with
    | none =>
      refine ⟨[r], ?_⟩
      unfold Kafka.enqueued Kafka.poll
      dsimp only
      cases K.poll a.polls <;> exact ⟨rfl, .refl _⟩
    | some e =>
      refine ⟨[], ?_⟩
      cases e with
      | bufferError =>
        unfold Kafka.bufferFull Kafka.poll
        dsimp only
        cases K.poll a.polls with
        | none => exact ⟨(List.append_nil _).symm, .refl _⟩
        | some e => exact ⟨(List.append_nil _).symm, List.nil_sublist _⟩
      | _ => exact ⟨(List.append_nil _).symm, List.nil_sublist _⟩
  · exact ⟨[], (List.append_nil _).symm, List.nil_sublist _⟩

/-- The queue of the producer. -/
def kafkaQueue (K : Kafka.Producer) : Queue (Kafka.publisher K) Kafka.Record where
  records := Kafka.Adapter.records
  record x :=
    match K.serialize x.proto with
    | .ok value => some ⟨x.topic, x.key, value⟩
    | .error _ => none
  attempted := Kafka.PublishPc.record
  publish a x := by
    simp only [Kafka.publisher, Kafka.publish]
    cases K.serialize x.proto with
    | ok value => exact attempt_queues K a ⟨x.topic, x.key, value⟩ 0
    | error e => exact ⟨[], (List.append_nil _).symm, .slnil⟩
  resumePublish a pc w a' n h := by
    cases w with
    | done =>
      have hn : Kafka.next (Kafka.attempt K a pc.record pc.retryCount) = (a', n) :=
        Option.some.inj h
      obtain ⟨rs, hrs, hsub⟩ := attempt_queues K a pc.record pc.retryCount
      generalize Kafka.attempt K a pc.record pc.retryCount = x at hn hrs hsub
      obtain ⟨a₁, _ | _ | _⟩ := x <;> cases hn <;> exact ⟨rs, hrs, hsub⟩
    | cancelled =>
      cases h
      exact ⟨[], (List.append_nil _).symm, List.nil_sublist _⟩
    | raised | input => cases h
  flush a := by
    simp only [Kafka.publisher, Kafka.flush]
    split <;> rfl
  resumeFlush _ pc := nomatch pc

/-- **From the stream to the Kafka queue**: in every run of any number of clients and consumption
tasks, with whatever cancellations and whatever the connector, the producer and the serialization
do, each task asks for what is due for the messages it has got, in order and once, up to the last
one unless it is over; its records in the queue are those of its requests, in order and at most
once; nothing else is queued; and nothing is asked for while the service is stopped. -/
theorem atMostOnce_of_run {K : Kafka.Producer} {conf : Option (ExchangeConfig U)} {c : P.State}
    {maxConsecutiveFailures clients : Nat} {ls : List (Label P)}
    {d : Desk P (Kafka.publisher K) Kafka.Record} (hP : ∀ c, P.config c = conf)
    (h : run (Desk.step (kafkaQueue K)) (.init (Sys.init c (Kafka.Adapter.init, Record.empty)
      maxConsecutiveFailures clients)) ls = some d) :
    AtMostOnce (kafkaQueue K) conf d ∧
      ∀ l d', d.step (kafkaQueue K) l = some d' → d.sys.service.running = false →
        d'.asked = d.asked := by
  have hd : d.Sound (kafkaQueue K) conf :=
    run_invariant (fun _ _ _ hi hs => (hi.step hP hs).1) (Desk.sound_init rfl) h
  exact ⟨hd.toAtMostOnce, fun l d' hs => (hd.step hP hs).2⟩

/-- Task 2 finds the queue full; the service is stopped and started again, and task 3 queues its
message before task 2 tries again. -/
def fullThenStarted : List (Label mockConnector) :=
  [.call 0 .start, .resume 2 (.wake .done), .resume 2 (.wake (.input (tradeMessage "KRW-BTC" []))),
    .call 1 .stop, .call 0 .start, .resume 3 (.wake .done),
    .resume 3 (.wake (.input (tradeMessage "krw-btc" []))), .resume 2 (.wake .done)]

theorem fullThenStarted_isSome : (run (Desk.step (kafkaQueue Kafka.fullOnce))
    (.init (Sys.init () (Kafka.Adapter.init, Record.empty) 10 2)) fullThenStarted).isSome = true :=
  rfl

def fullThenStartedEnd : Desk mockConnector (Kafka.publisher Kafka.fullOnce) Kafka.Record :=
  Option.get _ fullThenStarted_isSome

/-- `atMostOnce_of_run` of that run: the tasks 2 and 3 ask in this order, and queue in the other. -/
theorem atMostOnce_fullThenStarted :
    fullThenStartedEnd.asked.map Prod.fst = [2, 3] ∧
      fullThenStartedEnd.queued.map Prod.fst = [3, 2] ∧
      AtMostOnce (kafkaQueue Kafka.fullOnce) (some krwBtcConfig) fullThenStartedEnd :=
  ⟨rfl, rfl, (atMostOnce_of_run (fun _ => rfl) (Option.some_get fullThenStarted_isSome).symm).1⟩

end FlinkPractices.Service
