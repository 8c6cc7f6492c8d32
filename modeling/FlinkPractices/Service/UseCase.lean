import FlinkPractices.Service.Ledger

/-!
# A dead consumption loop

The use case `stream_market_data`, alone on its service: `start()`, then a sleep of one second
again and again.  `Sys.Reported` says that a finished consumption loop shows: the status is not
running, and after its sleep the use case leaves its loop with the loop's exception.

`_running` is written by `start()` and `stop()` only, and nobody awaits the background task before
`stop()`.  `loopEnds` are the ways the loop ends, in terms of what the connector and the publisher
answer.  Principal result: `reported_iff` — a run always reports iff the background task never
ends while the service is running.

## Proof

* `Node.ends` — from this place on the loop ends; `Looping` follows it along the arcs, with the
  flags and the lock left alone, so that a segment of the loop ends it iff `loopEnds` says so
  (`segment_inLoop`)
* `Client` — the same for the client: it may clear the flag, it may create a loop, and it leaves the
  background task alone otherwise (`call_client`, `segment_client`)
* `Sys.Single` — one client, which stays out of the loop and finds the flag set when it goes to
  sleep; all other tasks are consumption loops
* `Sys.Single.step` — one step: the finished loop is still reported iff it was not the loop of a
  running service that has ended

`deadLoop_not_reported` is a run in which the loop gives up and the use case sleeps on.
-/

set_option autoImplicit false

namespace FlinkPractices.Service

open Lib
open Connector (TaskId)

variable {U : UpperTable} {P : ConnectorPort U} {Q : PublisherPort}

/-! ## What is reported -/

/-- After its current sleep the client `t` leaves the sleep loop: the `finally` block runs, with
the exception of the loop `b` if it had one. -/
def Sys.LeavesLoop (s : Sys P Q) (t b : TaskId) : Prop :=
  ∃ pending, advance s.outcome s.service t .sleeping .timeout =
      some (stop s.service t (.useCase pending)) ∧
    ∀ e, s.outcome b = some (.raised e) → pending = .raised e

/-- A finished background task is never reported as running, and a sleeping use case goes on to
leave its loop. -/
def Sys.Reported (s : Sys P Q) : Prop :=
  ∀ b, s.service.backgroundTask = some b → (s.outcome b).isSome →
    s.service.getStatus.1 = false ∧
      ∀ t, (s.tasks t).call = some .sleeping → s.LeavesLoop t b

/-- Nothing but the use case is called. -/
def Label.IsUseCase : Label P → Prop
  | .call _ op => op = .useCase
  | _ => True

/-! ## How the consumption loop ends -/

/-- The generator ends, or raises, when it is asked for a message. -/
def generatorEnds : Start P.StreamPc → Bool
  | .suspend _ => false
  | _ => true

/-- The loop ends while it handles the messages that the generator has: there is no attribute
`config`, a `publish()` fails otherwise than with `PublishException` or once too often in a row
(`n` have failed before), or the generator has no more. -/
def batchEnds (outcome : TaskId → Option Outcome) (maxConsecutiveFailures : Nat) (b : TaskId)
    (c : P.State) : Q.State → Nat → List MarketDataMessage → Bool
  | _, _, [] => generatorEnds (P.stream outcome c b).2
  | q, n, m :: ms =>
    match isSubscribedMarket (P.config c) m with
    | .error _ => true
    | .ok false => batchEnds outcome maxConsecutiveFailures b c q n ms
    | .ok true =>
      match convertToProtobuf U m with
      | .error _ => batchEnds outcome maxConsecutiveFailures b c q n ms
      | .ok proto =>
        match Q.publish q (getTopicForMessage m) (keyForMessage U m) proto with
        | (_, .suspend _) => false
        | (q, .returned) => batchEnds outcome maxConsecutiveFailures b c q 0 ms
        | (q, .raised e) =>
          !e.isPublishException || decide (maxConsecutiveFailures ≤ n + 1) ||
            batchEnds outcome maxConsecutiveFailures b c q (n + 1) ms

/-- The loop ends when a suspended `publish()` has ended so. -/
def publishedEnds (outcome : TaskId → Option Outcome) (maxConsecutiveFailures : Nat) (b : TaskId)
    (c : P.State) (q : Q.State) (n : Nat) (ms : List MarketDataMessage) : Outcome → Bool
  | .returned => batchEnds outcome maxConsecutiveFailures b c q 0 ms
  | .raised e =>
    !e.isPublishException || decide (maxConsecutiveFailures ≤ n + 1) ||
      batchEnds outcome maxConsecutiveFailures b c q (n + 1) ms
  | .cancelled => true

/-- The consumption loop `b` ends when it is resumed so. -/
def loopEnds (outcome : TaskId → Option Outcome) (s : IngestionService P Q) (b : TaskId) :
    Pc P Q → Resume P → Bool
  | .ready, .wake .cancelled => true
  | .ready, .wake .done => generatorEnds (P.stream outcome s.connector b).2
  | .receiving pc, .wake w =>
    match P.resumeStream outcome s.connector b pc w with
    | some (_, .finish _) => true
    | some (c, .batch m ms) =>
      batchEnds outcome s.maxConsecutiveFailures b c s.publisher s.consecutiveFailures (m :: ms)
    | _ => false
  | .publishing pc ms, .wake w =>
    match w.plain.bind (Q.resumePublish s.publisher pc) with
    | some (q, .finish r) =>
      publishedEnds outcome s.maxConsecutiveFailures b s.connector q s.consecutiveFailures ms r
    | _ => false
  | _, _ => false

/-- The background task ends while the service is running. -/
def Sys.LoopDies (s : Sys P Q) : Label P → Prop
  | .resume b w => s.service.running = true ∧ s.service.backgroundTask = some b ∧
      ∃ pc, (s.tasks b).call = some pc ∧ loopEnds s.outcome s.service b pc w = true
  | _ => False

/-! ## The segments of the consumption loop -/

def Act.isFinish : Act P Q → Bool
  | .finish _ => true
  | _ => false

/-- The segment is one of the loop: it leaves the flags and the lock as they are, and
ends the loop or not. -/
structure InLoop (s : IngestionService P Q) (ends : Bool)
    (r : IngestionService P Q × Act P Q) : Prop extends Frame s r.1 where
  pc : ∀ pc, r.2.pc = some pc → pc.inLoop = true
  finish : s.running = true → r.2.isFinish = ends

variable {outcome : TaskId → Option Outcome} {t : TaskId}

/-- From this place on, the loop ends. -/
def Node.ends (outcome : TaskId → Option Outcome) (s : IngestionService P Q) (b : TaskId) :
    Node P Q → Bool
  | .resumed pc w => loopEnds outcome s b pc w
  | .next => generatorEnds (P.stream outcome s.connector b).2
  | .streamed (.batch m ms) =>
    batchEnds outcome s.maxConsecutiveFailures b s.connector s.publisher s.consecutiveFailures
      (m :: ms)
  | .turned ms .next =>
    batchEnds outcome s.maxConsecutiveFailures b s.connector s.publisher s.consecutiveFailures ms
  | .streamed (.finish _) => true
  | .turned _ (.finish _) => true
  | .finished _ => true
  | _ => false

theorem endTurn_ends (s : IngestionService P Q) (ms : List MarketDataMessage) (o : Outcome) :
    (Node.turned ms (endTurn s o).2).ends outcome (endTurn s o).1 t =
      publishedEnds outcome s.maxConsecutiveFailures t s.connector s.publisher
        s.consecutiveFailures ms o := by
  cases o with
  | returned | cancelled => rfl
  | raised e =>
    cases he : e.isPublishException with
    | false => simp [endTurn, countPublish, publishedEnds, Node.ends, he]
    | true =>
      by_cases hm : s.maxConsecutiveFailures ≤ s.consecutiveFailures + 1 <;>
        simp [endTurn, countPublish, publishedEnds, Node.ends, he, hm]

theorem turn_ends {s : IngestionService P Q} (hr : s.running = true) (m : MarketDataMessage)
    (ms : List MarketDataMessage) :
    (Node.turned ms (turn t s m).2).ends outcome (turn t s m).1 t =
      batchEnds outcome s.maxConsecutiveFailures t s.connector s.publisher s.consecutiveFailures
        (m :: ms) := by
  unfold turn
  rw [if_pos hr]
  cases hm : isSubscribedMarket (P.config s.connector) m with
  | error e => simp only [batchEnds, hm, Node.ends]
  | ok subscribed =>
    cases subscribed with
    | false => simp only [batchEnds, hm, Node.ends]
    | true =>
      cases hc : convertToProtobuf U m with
      | error e => simp only [batchEnds, hm, hc, Node.ends]
      | ok proto =>
        simp only [batchEnds, hm, hc]
        rcases Q.publish s.publisher (getTopicForMessage m) (keyForMessage U m) proto with
          ⟨q, pc | _ | e⟩
        · rfl
        · exact endTurn_ends _ ms .returned
        · exact endTurn_ends _ ms (.raised e)

/-- On the way through a segment of the loop, which ends the loop if `ends`. -/
structure Looping (outcome : TaskId → Option Outcome) (b : TaskId) (s : IngestionService P Q)
    (ends : Bool) (p : Node P Q) (v : IngestionService P Q) : Prop extends Frame s v where
  ends : s.running = true → p.ends outcome v b = ends

theorem Looping.arc {s v v' : IngestionService P Q} {ends : Bool} {p p' : Node P Q}
    (ha : Arc outcome t p v p' v') (hp : p.inLoop = true) (h : Looping outcome t s ends p v) :
    Looping outcome t s ends p' v' := by
  obtain ⟨⟨hs, hl⟩, he⟩ := h
  cases ha with
  | @turn _ m ms _ _ ht =>
    obtain ⟨hf, -⟩ := turn_counted ht
    refine ⟨⟨hs.trans hf.toFlags, hf.lock.trans hl⟩, fun hr => ?_⟩
    have hturn : (Node.turned ms (Service.turn t v m).2).ends outcome (Service.turn t v m).1 t = _ :=
      turn_ends (hs.running.trans hr) m ms
    rw [ht] at hturn
    rw [← he hr]
    exact hturn
  | @publishEnded _ _ ms _ q o _ _ hq ht =>
    obtain ⟨hf, -⟩ := endTurn_counted ht
    refine ⟨⟨hs.trans { hf.toFlags with }, hf.lock.trans hl⟩, fun hr => ?_⟩
    have hturn : (Node.turned ms (endTurn { v with publisher := q } o).2).ends outcome
        (endTurn { v with publisher := q } o).1 t = _ := endTurn_ends _ ms o
    rw [ht] at hturn
    rw [← he hr, hturn]
    simp only [Node.ends, loopEnds, hq]
  | @streamFirst _ _ a hc =>
    refine ⟨⟨{ hs with }, hl⟩, fun hr => ?_⟩
    rw [← he hr]
    simp only [Node.ends, hc]
    cases a <;> rfl
  | @streamLater _ _ _ _ x hc =>
    refine ⟨⟨{ hs with }, hl⟩, fun hr => ?_⟩
    rw [← he hr]
    simp only [Node.ends, loopEnds, hc]
    cases x <;> rfl
  | publishLater hq =>
    refine ⟨⟨{ hs with }, hl⟩, fun hr => ?_⟩
    rw [← he hr]
    simp only [Node.ends, loopEnds, hq]
  | loopFirst | loopCancelled | streamSuspend | streamFinish | streamBatch | turnNone | turnSuspend
  | turnFinish => exact ⟨⟨hs, hl⟩, he⟩
  | _ => cases hp

/-- **A segment of the consumption loop.** -/
theorem segment_inLoop {s : IngestionService P Q} {pc : Pc P Q} {w : Resume P}
    {r : IngestionService P Q × Act P Q} (hp : pc.inLoop = true)
    (h : advance outcome s t pc w = some r) : InLoop s (loopEnds outcome s t pc w) r := by
  obtain ⟨hin, hf, he⟩ := (advance_leads h).keeps_inside Looping.arc hp
    (⟨.refl s, fun _ => rfl⟩ : Looping outcome t s (loopEnds outcome s t pc w) _ s)
  refine ⟨hf, fun pc' hpc => (segment_inLoop_eq h hpc).trans hp, fun hs => ?_⟩
  rw [← he hs]
  obtain ⟨v, a⟩ := r
  cases a <;> rfl

/-! ## The segments of the client -/

/-- A suspension point of the client other than its sleep. -/
def Pc.awake : Pc P Q → Bool
  | .ready => false
  | .receiving _ => false
  | .publishing _ _ => false
  | .sleeping => false
  | _ => true

/-- A segment of `start()` or `stop()` leaves the background task as it is, may clear the flag, and
does not lead to the sleep. -/
structure Stays (running : Bool) (b : Option TaskId) (n : TaskId)
    (r : IngestionService P Q × Act P Q) : Prop where
  running : r.1.running = running ∨ r.1.running = false
  backgroundTask : r.1.backgroundTask = b
  nextTask : r.1.nextTask = n
  awake : ∀ pc, r.2.pc = some pc → pc.awake = true

/-- A segment in which `connect()` has returned: the new background task is the next one. -/
structure Starts (n : TaskId) (r : IngestionService P Q × Act P Q) : Prop where
  running : r.1.running = true
  backgroundTask : r.1.backgroundTask = some n
  nextTask : r.1.nextTask = n + 1
  client : ∀ pc, r.2.pc = some pc → pc.inLoop = false

/-- The places of the client from which its sleep is not next. -/
def Node.awake : Node P Q → Bool
  | .resumed pc _ => pc.awake
  | .suspended pc => pc.awake
  | .cancels pc _ => pc.awake
  | .started _ .returned => false
  | .next => false
  | .streamed _ => false
  | .turned _ _ => false
  | _ => true

/-- On the way through a segment of the client. -/
inductive Client (running : Bool) (b : Option TaskId) (n : TaskId) :
    Node P Q → IngestionService P Q → Prop
  | stays {p v} : p.awake = true → (v.running = running ∨ v.running = false) →
      v.backgroundTask = b → v.nextTask = n → Client running b n p v
  | starts {p v} : ((∃ k, p = .started k .returned) ∨ (∃ o, p = .finished o) ∨
      p = .suspended .sleeping) → v.running = true → v.backgroundTask = some n →
      v.nextTask = n + 1 → Client running b n p v

theorem Client.arc {x : Bool} {bg : Option TaskId} {n : TaskId} {p p' : Node P Q}
    {v v' : IngestionService P Q} (hx : Client x bg n p v) (ha : Arc outcome t p v p' v') :
    Client x bg n p' v' := by
  cases hx with
  | starts hp hr hb hn =>
    rcases hp with ⟨k, rfl⟩ | ⟨o, rfl⟩ | rfl
    · cases ha with
      | startedClient => exact .starts (.inr (.inl ⟨_, rfl⟩)) hr hb hn
      | startedSleep => exact .starts (.inr (.inr rfl)) hr hb hn
      | startedStop hne => exact absurd rfl hne
    · cases ha
    · cases ha
  | stays hp hr hb hn =>
    cases ha with
    | connectReturned => exact .starts (.inl ⟨_, rfl⟩) rfl (congrArg some hn) (congrArg (· + 1) hn)
    | stopWait | stopNoTask => exact .stays rfl (.inr rfl) hb hn
    | @connectFailed _ _ o hne =>
      cases o with
      | returned => exact absurd rfl hne
      | raised | cancelled => exact .stays rfl hr hb hn
    | startedSleep | sleepAgain | sleepCancelled | loopFirst | loopCancelled | streamFirst
    | streamLater | streamSuspend | streamFinish | streamBatch | publishLater | publishEnded | turn
    | turnNone | turnSuspend | turnFinish => cases hp
    | _ => exact .stays rfl hr hb hn

/-- The end of a segment of the client. -/
theorem Client.ends {x : Bool} {bg : Option TaskId} {n : TaskId}
    {r : IngestionService P Q × Act P Q} (hx : Client x bg n r.2.node r.1) :
    Stays x bg n r ∨ Starts n r := by
  obtain ⟨v, a⟩ := r
  cases hx with
  | stays hp hr hb hn =>
    refine .inl ⟨hr, hb, hn, fun pc hpc => ?_⟩
    cases a with
    | suspend | cancelling =>
      cases hpc
      exact hp
    | finish => cases hpc
  | starts hp hr hb hn =>
    refine .inr ⟨hr, hb, hn, fun pc hpc => ?_⟩
    cases a with
    | suspend =>
      cases hpc
      rcases hp with ⟨k, hk⟩ | ⟨o, ho⟩ | hs
      · cases hk
      · cases ho
      · cases hs
        rfl
    | cancelling =>
      rcases hp with ⟨k, hk⟩ | ⟨o, ho⟩ | hs
      · cases hk
      · cases ho
      · cases hs
    | finish => cases hpc

/-- **A first segment of the client.** -/
theorem call_client (outcome : TaskId → Option Outcome) (s : IngestionService P Q) (t : TaskId)
    (op : Op) :
    Stays s.running s.backgroundTask s.nextTask (call outcome s t op) ∨
      Starts s.nextTask (call outcome s t op) :=
  ((call_leads op).keeps (fun ha hx => Client.arc hx ha) (.stays rfl (.inl rfl) rfl rfl)).ends

/-- **A later segment of the client**, other than the next round of its sleep. -/
theorem segment_client {s : IngestionService P Q} {pc : Pc P Q} {w : Resume P}
    {r : IngestionService P Q × Act P Q} (hp : pc.inLoop = false)
    (h : advance outcome s t pc w = some r) :
    Stays s.running s.backgroundTask s.nextTask r ∨ Starts s.nextTask r ∨
      pc = .sleeping ∧ r = (s, .suspend .sleeping) := by
  have ends {p : Node P Q} (hl : Leads outcome t p s r) (hawake : p.awake = true) :
      Stays s.running s.backgroundTask s.nextTask r ∨ Starts s.nextTask r :=
    (hl.keeps (fun ha hx => Client.arc hx ha) (.stays hawake (.inl rfl) rfl rfl)).ends
  cases pc with
  | sleeping =>
    rcases w with (_ | _ | _ | _) | _
    case timeout =>
      cases h
      exact .inr (.inr ⟨rfl, rfl⟩)
    case wake.cancelled =>
      cases h
      exact (ends (stop_leads _) rfl).imp_right .inl
    all_goals cases h
  | ready | receiving | publishing => cases hp
  | _ => exact (ends (advance_leads h) rfl).imp_right .inl

/-! ## The runs -/

/-- One client, task 0, that runs the use case; the other tasks are consumption loops. -/
structure Sys.Single (s : Sys P Q) : Prop where
  clients : s.clients = 1
  loops : ∀ t pc, t ≠ 0 → (s.tasks t).call = some pc → pc.inLoop = true
  client : ∀ pc, (s.tasks 0).call = some pc → pc.inLoop = false
  sleeping : (s.tasks 0).call = some .sleeping → s.service.running = true
  unborn : ∀ t, s.service.nextTask ≤ t → s.outcome t = none
  next : 0 < s.service.nextTask
  background : ∀ b, s.service.backgroundTask = some b → b ≠ 0

theorem single_init (connector : P.State) (publisher : Q.State) (maxConsecutiveFailures : Nat) :
    (Sys.init connector publisher maxConsecutiveFailures 1).Single where
  clients := rfl
  loops t pc ht h := by
    have hlt : ¬t < 1 := Nat.not_lt.2 (Nat.one_le_iff_ne_zero.2 ht)
    simp only [Sys.init, if_neg hlt, Option.some.injEq] at h
    rw [← h]; rfl
  client := nofun
  sleeping := nofun
  unborn _ _ := rfl
  next := Nat.one_pos
  background := nofun

/-- Where nothing but the use case is called, a finished loop is reported iff the service is not
running. -/
theorem Sys.Single.reported_alive {s : Sys P Q} (h : s.Single) :
    s.Reported ↔ ∀ b, s.service.running = true → s.service.backgroundTask = some b →
      s.outcome b = none := by
  constructor
  · intro hr b hrun hb
    cases ho : s.outcome b with
    | none => rfl
    | some o =>
      have := (hr b hb (by rw [ho]; rfl)).1
      rw [IngestionService.getStatus, hrun] at this
      cases this
  · intro hn b hb hd
    have hrun : s.service.running = false := by
      cases hrun : s.service.running with
      | false => rfl
      | true => rw [hn b hrun hb] at hd; cases hd
    refine ⟨hrun, fun t ht => ?_⟩
    by_cases h0 : t = 0
    · subst h0
      have := h.sleeping ht
      rw [hrun] at this
      cases this
    · have := h.loops t _ h0 ht
      cases this

/-- A segment of the client: the flags, its place, and the loop are in order afterwards. -/
theorem Sys.Single.client_segment {s s' : Sys P Q} {r : IngestionService P Q × Act P Q}
    (hi : s.Single) (hs : Settled s s' 0 r)
    (hr : Stays s.service.running s.service.backgroundTask s.service.nextTask r ∨
      Starts s.service.nextTask r) : s'.Single ∧ (s.Reported → s'.Reported) := by
  have hout : ∀ t, s.outcome t = none → s'.outcome t = none := by
    intro t ht
    by_cases h0 : t = 0
    · subst h0
      rw [hs.outcome]
      split
      · rw [if_pos (by rw [hi.clients]; exact Nat.one_pos)]
      · rfl
    · rw [(hs.others t h0).2, ht]
  have hloops : ∀ t pc, t ≠ 0 → (s'.tasks t).call = some pc → pc.inLoop = true := by
    intro t pc ht hc
    rw [(hs.others t ht).1] at hc
    exact hi.loops t pc ht hc
  have hcl : s'.clients = 1 := hs.clients.trans hi.clients
  rcases hr with hr | hr
  · have hsingle : s'.Single := by
      refine ⟨hcl, hloops, fun pc hc => ?_, fun hc => ?_, fun t ht => ?_, ?_, fun b hb => ?_⟩
      · rw [hs.call] at hc
        have := hr.awake pc hc
        cases pc <;> first | rfl | cases this
      · rw [hs.call] at hc
        cases hr.awake _ hc
      · rw [hs.service, hr.nextTask] at ht
        exact hout t (hi.unborn t ht)
      · rw [hs.service, hr.nextTask]; exact hi.next
      · rw [hs.service, hr.backgroundTask] at hb
        exact hi.background b hb
    refine ⟨hsingle, fun hrep => ?_⟩
    rw [hsingle.reported_alive, hs.service, hr.backgroundTask]
    intro b hrun hb
    rcases hr.running with hr' | hr'
    · exact hout b (hi.reported_alive.1 hrep b (by rw [← hr', hrun]) hb)
    · rw [hr'] at hrun; cases hrun
  · have hsingle : s'.Single := by
      refine ⟨hcl, hloops, fun pc hc => ?_, fun _ => ?_, fun t ht => ?_, ?_, fun b hb => ?_⟩
      · rw [hs.call] at hc
        exact hr.client pc hc
      · rw [hs.service, hr.running]
      · rw [hs.service, hr.nextTask] at ht
        exact hout t (hi.unborn t (Nat.le_of_succ_le ht))
      · rw [hs.service, hr.nextTask]; exact Nat.succ_pos _
      · rw [hs.service, hr.backgroundTask] at hb
        cases hb; exact Nat.pos_iff_ne_zero.1 hi.next
    refine ⟨hsingle, fun _ => ?_⟩
    rw [hsingle.reported_alive, hs.service, hr.backgroundTask]
    intro b _ hb
    cases hb
    exact hout _ (hi.unborn _ (Nat.le_refl _))

/-- A segment of a consumption loop keeps the flags, and ends the loop or not. -/
theorem Sys.Single.loop_segment {s s' : Sys P Q} {b : TaskId} {ends : Bool}
    {r : IngestionService P Q × Act P Q} (hi : s.Single) (hb0 : b ≠ 0)
    (hlt : b < s.service.nextTask) (ho : s.outcome b = none) (hs : Settled s s' b r)
    (hr : InLoop s.service ends r) :
    s'.Single ∧ (s.Reported →
      (s'.Reported ↔
        ¬(s.service.running = true ∧ s.service.backgroundTask = some b ∧ ends = true))) := by
  have hsingle : s'.Single := by
    refine ⟨hs.clients.trans hi.clients, fun t pc ht hc => ?_, fun pc hc => ?_, fun hc => ?_,
      fun t ht => ?_, ?_, fun c hc => ?_⟩
    · by_cases htb : t = b
      · subst htb
        rw [hs.call] at hc
        exact hr.pc pc hc
      · rw [(hs.others t htb).1] at hc
        exact hi.loops t pc ht hc
    · rw [(hs.others 0 hb0.symm).1] at hc
      exact hi.client pc hc
    · rw [(hs.others 0 hb0.symm).1] at hc
      rw [hs.service, hr.running]
      exact hi.sleeping hc
    · rw [hs.service, hr.nextTask] at ht
      rw [(hs.others t (Nat.ne_of_gt (Nat.lt_of_lt_of_le hlt ht))).2]
      exact hi.unborn t ht
    · rw [hs.service, hr.nextTask]; exact hi.next
    · rw [hs.service, hr.backgroundTask] at hc
      exact hi.background c hc
  refine ⟨hsingle, fun hrep => ?_⟩
  have hout : s'.outcome b = none ↔ r.2.isFinish = false := by
    have hnot : ¬b < s.clients := by
      rw [hi.clients]; exact Nat.not_lt.2 (Nat.one_le_iff_ne_zero.2 hb0)
    rw [hs.outcome]
    cases r.2 with
    | finish o => simp [Act.isFinish, hnot]
    | suspend pc => simp [Act.isFinish]
    | cancelling pc c => simp [Act.isFinish]
  rw [hsingle.reported_alive, hs.service, hr.running, hr.backgroundTask]
  constructor
  · rintro h ⟨hrun, hb, he⟩
    have := hout.1 (h b hrun hb)
    rw [hr.finish hrun, he] at this
    cases this
  · intro h c hrun hc
    by_cases hcb : c = b
    · subst hcb
      rw [hout, hr.finish hrun, Bool.eq_false_iff]
      exact fun he => h ⟨hrun, hc, he⟩
    · rw [(hs.others c hcb).2]
      exact hi.reported_alive.1 hrep c hrun hc

/-- **One step**: the finished loop is still reported iff it was not the loop of a running
service that has ended. -/
theorem Sys.Single.step {s s' : Sys P Q} {l : Label P} (hi : s.Single) (hl : l.IsUseCase)
    (h : Service.step s l = some s') :
    s'.Single ∧ (s.Reported → (s'.Reported ↔ ¬s.LoopDies l)) := by
  have zero : ∀ {t}, t < s.clients → t = 0 := by
    intro t ht
    rw [hi.clients] at ht
    exact Nat.lt_one_iff.1 ht
  cases step_effect h with
  | @first t op _ ht ho hc hs =>
    cases zero ht
    cases (show op = .useCase from hl)
    obtain ⟨h₁, h₂⟩ := hi.client_segment hs (call_client ..)
    exact ⟨h₁, fun hrep => iff_of_true (h₂ hrep) (fun hd => hd)⟩
  | @later t pc w r _ hlt ho hc ha hr hs =>
    by_cases ht : t = 0
    · subst ht
      have hp := hi.client pc hc
      have hnot : ¬s.LoopDies (.resume 0 w) := fun hd => hi.background 0 hd.2.1 rfl
      rcases segment_client hp hr with hr' | hr' | ⟨rfl, rfl⟩
      · obtain ⟨h₁, h₂⟩ := hi.client_segment hs (.inl hr')
        exact ⟨h₁, fun hrep => iff_of_true (h₂ hrep) hnot⟩
      · obtain ⟨h₁, h₂⟩ := hi.client_segment hs (.inr hr')
        exact ⟨h₁, fun hrep => iff_of_true (h₂ hrep) hnot⟩
      · have hsame : ∀ u, (s'.tasks u).call = (s.tasks u).call ∧ s'.outcome u = s.outcome u := by
          intro u
          by_cases hu : u = 0
          · subst hu
            exact ⟨by rw [hs.call, hc]; rfl, by rw [hs.outcome, ho]⟩
          · exact hs.others u hu
        have hsingle : s'.Single :=
          { clients := hs.clients.trans hi.clients
            loops := fun u pc hu hc => hi.loops u pc hu ((hsame u).1 ▸ hc)
            client := fun pc hc => hi.client pc ((hsame 0).1 ▸ hc)
            sleeping := fun hc => by rw [hs.service]; exact hi.sleeping ((hsame 0).1 ▸ hc)
            unborn := fun u hu => by
              rw [(hsame u).2]; rw [hs.service] at hu; exact hi.unborn u hu
            next := by rw [hs.service]; exact hi.next
            background := fun b hb => by rw [hs.service] at hb; exact hi.background b hb }
        refine ⟨hsingle, fun hrep => iff_of_true ?_ hnot⟩
        rw [hsingle.reported_alive, hs.service]
        intro b hrun hb
        rw [(hsame b).2]
        exact hi.reported_alive.1 hrep b hrun hb
    · have hseg := segment_inLoop (hi.loops t pc ht hc) hr
      obtain ⟨h₁, h₂⟩ := hi.loop_segment ht hlt ho hs hseg
      refine ⟨h₁, fun hrep => (h₂ hrep).trans (not_congr ?_)⟩
      constructor
      · rintro ⟨hrun, hb, he⟩
        exact ⟨hrun, hb, pc, hc, he⟩
      · rintro ⟨hrun, hb, pc', hc', he⟩
        rw [hc] at hc'; cases hc'
        exact ⟨hrun, hb, he⟩
  | quiet hres hs hcl hc ho =>
    have hout : ∀ t, t ≠ 0 → s'.outcome t = s.outcome t := by
      intro t ht
      rcases ho t with ho | ho
      · exact ho
      · exact absurd (zero ho.1) ht
    have hsingle : s'.Single :=
      { clients := hcl.trans hi.clients
        loops := fun u pc hu hu' => hi.loops u pc hu ((hc u) ▸ hu')
        client := fun pc hu => hi.client pc ((hc 0) ▸ hu)
        sleeping := fun hu => by rw [hs]; exact hi.sleeping ((hc 0) ▸ hu)
        unborn := fun u hu => by
          rw [hs] at hu
          have : u ≠ 0 := Nat.ne_of_gt (Nat.lt_of_lt_of_le hi.next hu)
          rw [hout u this]; exact hi.unborn u hu
        next := by rw [hs]; exact hi.next
        background := fun b hb => by rw [hs] at hb; exact hi.background b hb }
    have hnot : ¬s.LoopDies l := by
      cases l with
      | resume t w => exact absurd rfl (hres t w)
      | _ => exact fun hd => hd
    refine ⟨hsingle, fun hrep => iff_of_true ?_ hnot⟩
    rw [hsingle.reported_alive, hs]
    intro b hrun hb
    rw [hout b (hi.background b hb)]
    exact hi.reported_alive.1 hrep b hrun hb

/-- **When a dead loop is reported.**  In any run of the use case, over any connector and
publisher, a finished background task is always reported (the status is not running, and a
sleeping use case goes on to leave its loop with the task's exception) iff the background task
never ends while the service is running. -/
theorem reported_iff {connector : P.State} {publisher : Q.State} {maxConsecutiveFailures : Nat}
    {ls : List (Label P)} {s : Sys P Q} (hl : ∀ l ∈ ls, l.IsUseCase)
    (h : run Service.step (Sys.init connector publisher maxConsecutiveFailures 1) ls = some s) :
    Always Service.step Sys.Reported
        (Sys.init (Q := Q) connector publisher maxConsecutiveFailures 1) ls ↔
      Guarded Service.step (fun s l => ¬s.LoopDies l)
        (Sys.init connector publisher maxConsecutiveFailures 1) ls :=
  always_iff_guarded (I := Sys.Single) (H := fun _ l => l.IsUseCase)
    (fun _ _ _ hi hl _ hs => (hi.step hl hs).1) (fun _ _ _ hi hl hp hs => (hi.step hl hs).2 hp)
    (single_init connector publisher maxConsecutiveFailures) (fun _ hb => by cases hb)
    (.of_mem hl) h

/-! ## A loop that has died -/

/-- The use case starts and sleeps; its stream loses the connection and gives up. -/
def deadLoop : List (Label testConnector) :=
  [.call 0 .useCase, .resume 0 (.wake .done), .resume 1 (.wake .done),
    .resume 1 (.wake (.raised .connectionClosed)), .resume 1 (.wake .done),
    .resume 1 (.wake .done), .resume 1 (.wake (.raised .osError)),
    .resume 1 (.wake .done), .resume 1 (.wake (.raised .osError)),
    .resume 1 (.wake .done), .resume 1 (.wake (.raised .osError)), .resume 0 .timeout]

theorem run_deadLoop : (run step testService deadLoop).map (fun s =>
      (s.service.backgroundTask, s.outcome 1, s.service.getStatus.1)) =
    some (some 1, some (.raised (.connectionClosedError "Failed to reconnect after 3 attempts")),
      true) := rfl

/-- **A dead loop is not reported**: the background task has raised, the status is running, and
the use case has gone to sleep once more. -/
theorem deadLoop_not_reported : ∃ s, run step testService deadLoop = some s ∧
    (∀ l ∈ deadLoop, l.IsUseCase) ∧ ¬s.Reported := by
  obtain ⟨s, hs, he⟩ := Option.map_eq_some_iff.1 run_deadLoop
  simp only [Prod.mk.injEq] at he
  refine ⟨s, hs, by simp [deadLoop, Label.IsUseCase], fun hr => ?_⟩
  have := (hr 1 he.1 (by rw [he.2.1]; rfl)).1
  rw [he.2.2] at this
  cases this

/-- The use case is cancelled; its loop ends with the next message. -/
def cancelledUseCase : List (Label testConnector) :=
  [.call 0 .useCase, .resume 0 (.wake .done), .resume 1 (.wake .done), .cancel 0,
    .resume 0 (.wake .cancelled), .resume 1 (.wake (.input "KRW-BTC")), .resume 0 (.wake .done),
    .resume 0 (.wake .done)]

/-- `reported_iff` at that run. -/
theorem reported_iff_cancelledUseCase :
    Always step Sys.Reported testService cancelledUseCase ↔
      Guarded step (fun s l => ¬s.LoopDies l) testService cancelledUseCase := by
  have hl : ∀ l ∈ cancelledUseCase, l.IsUseCase := by simp [cancelledUseCase, Label.IsUseCase]
  have hr : run step testService cancelledUseCase =
      some ((run step testService cancelledUseCase).get rfl) := (Option.some_get _).symm
  exact reported_iff hl hr

end FlinkPractices.Service
