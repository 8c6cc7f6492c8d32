import FlinkPractices.Kafka.Producer
import FlinkPractices.Lib.System
import FlinkPractices.Service.Ingestion
import Mathlib.Data.List.Infix

/-!
# What the consumption loop counts

One `_consume_and_publish()`, message by message.  `turn` is the body of its loop, and `Loop.step`
the loop as its environment sees it: the stream yields a message, a suspended `publish()` goes on,
or other tasks run.  The publisher keeps a `Record` of the calls it gets and of how they end.

`accounts_of_run`: after every message the counters are those of the record, the calls are the
messages that are due, and the loop has ended iff the limit is reached.

## Proof

* `request` — the call that is due for a message, if any
* `turn_skips`, `turn_publishes` — the body of the loop in the two cases
* `InProgress` — a `publish()` is in progress, the last one in the record; `InProgress.accounts` is
  what its end makes of the accounts (`succeeds`, `rejected`)
* `Counting` — the invariant: the accounts are right at the top of the loop, or a call is in
  progress, or the loop has ended as it should
* `Counting.step` — one step of the loop, and with it `run_counting`

The runs of this loop are those of the service: `consume`, the loop of the model, is `turn` message
after message, and `Service.LoopRuns` carries `accounts_of_run` over to runs of the whole system
(`Follows.accounts`).
-/

set_option autoImplicit false

namespace FlinkPractices.Service

open Lib
open Connector (TaskId)

variable {U : UpperTable} {P : ConnectorPort U} {Q : PublisherPort}

/-! ## A publisher that keeps a record -/

/-- The arguments of a `publish()`. -/
structure Request where
  topic : String
  key : ByteArray
  proto : ProtoMessage

/-- The calls of `publish()`, and how those that are over have ended. -/
structure Record where
  calls : List Request
  outcomes : List Outcome

def Record.empty : Record := ⟨[], []⟩

def Record.call (r : Record) (q : Request) : Record := { r with calls := r.calls ++ [q] }

def Record.ended (r : Record) (o : Outcome) : Record := { r with outcomes := r.outcomes ++ [o] }

def recording (Q : PublisherPort) : PublisherPort where
  State := Q.State × Record
  PublishPc := Q.PublishPc
  FlushPc := Q.FlushPc
  publish s topic key proto :=
    match Q.publish s.1 topic key proto with
    | (q, .suspend pc) => ((q, s.2.call ⟨topic, key, proto⟩), .suspend pc)
    | (q, .returned) => ((q, (s.2.call ⟨topic, key, proto⟩).ended .returned), .returned)
    | (q, .raised e) => ((q, (s.2.call ⟨topic, key, proto⟩).ended (.raised e)), .raised e)
  resumePublish s pc w :=
    match Q.resumePublish s.1 pc w with
    | some (q, .suspend pc) => some ((q, s.2), .suspend pc)
    | some (q, .finish r) => some ((q, s.2.ended r), .finish r)
    | none => none
  flush s := (((Q.flush s.1).1, s.2), (Q.flush s.1).2)
  resumeFlush s pc w := (Q.resumeFlush s.1 pc w).map fun x => ((x.1, s.2), x.2)

def IngestionService.record (s : IngestionService P (recording Q)) : Record := s.publisher.2

/-! ## The loop, message by message -/

/-- Where the loop is suspended. -/
inductive LoopPlace (Q : PublisherPort) where
  /-- waiting for the stream -/
  | asks
  | publishing (pc : Q.PublishPc)
  | ended (r : Outcome)

structure Loop (P : ConnectorPort U) (Q : PublisherPort) where
  service : IngestionService P Q
  place : LoopPlace Q

/-- What happens to the loop: the stream yields `m`, a suspended `publish()` gets `w`, or other
tasks leave the service as `v`. -/
inductive LoopLabel (P : ConnectorPort U) (Q : PublisherPort) where
  | yields (m : MarketDataMessage)
  | wakes (w : Wake Empty)
  | others (v : IngestionService P Q)

def Turn.place : Turn Q → LoopPlace Q
  | .next => .asks
  | .suspend pc => .publishing pc
  | .finish r => .ended r

/-- One step of the loop of task `b`. -/
def Loop.step (b : TaskId) (x : Loop P Q) : LoopLabel P Q → Option (Loop P Q)
  | .yields m =>
    match x.place with
    | .asks => some ⟨(turn b x.service m).1, (turn b x.service m).2.place⟩
    | _ => none
  | .wakes w =>
    match x.place with
    | .publishing pc =>
      match Q.resumePublish x.service.publisher pc w with
      | some (q, .suspend pc) => some ⟨{ x.service with publisher := q }, .publishing pc⟩
      | some (q, .finish r) =>
        some ⟨(endTurn { x.service with publisher := q } r).1,
          (endTurn { x.service with publisher := q } r).2.place⟩
      | none => none
    | _ => none
  | .others v => some { x with service := v }

/-- The messages yielded. -/
def messagesOf (ls : List (LoopLabel P Q)) : List MarketDataMessage :=
  ls.filterMap fun l =>
    match l with
    | .yields m => some m
    | _ => none

theorem messagesOf_append (ls ks : List (LoopLabel P Q)) :
    messagesOf (ls ++ ks) = messagesOf ls ++ messagesOf ks :=
  List.filterMap_append

/-! ## What it should do -/

/-- The call that is due for a message: none if its market is not subscribed or it cannot be
converted. -/
def request (cfg : ExchangeConfig U) (m : MarketDataMessage) : Option Request :=
  if cfg.subscribedMarkets.contains (m.code U) then
    match convertToProtobuf U m with
    | .ok proto => some ⟨getTopicForMessage m, keyForMessage U m, proto⟩
    | .error _ => none
  else none

/-- The rejections since the last successful `publish()`. -/
def rejectionsSince (os : List Outcome) : Nat := (os.reverse.takeWhile (· != .returned)).length

/-- A success, or a rejection with `PublishException`. -/
def Ordinary (r : Outcome) : Prop :=
  r = .returned ∨ ∃ message, r = .raised (.publishException message)

instance : DecidablePred Ordinary
  | .returned => .isTrue (.inl rfl)
  | .raised e =>
    match h : e.isPublishException with
    | true => .isTrue <| .inr <| by
      cases e with
      | publishException message => exact ⟨message, rfl⟩
      | _ => cases h
    | false => .isFalse <| by
      rintro (h' | ⟨_, h'⟩) <;> cases h'
      cases h
  | .cancelled => .isFalse <| by rintro (h | ⟨_, h⟩) <;> cases h

/-- Where the loop stands after `os`, with the limit `m`. -/
def LoopPlace.Stands (m : Nat) (calls : List Request) (os : List Outcome) : LoopPlace Q → Prop
  | .asks => os.length = calls.length ∧ rejectionsSince os < m
  | .publishing _ => os.length + 1 = calls.length ∧ rejectionsSince os < m
  | .ended r => os.length = calls.length ∧ rejectionsSince os = m ∧ os.getLast? = some r ∧
      ∃ message, r = .raised (.publishException message)

/-- What the loop has done with the messages `ms`, when the limit is `m`. -/
structure Accounts (cfg : ExchangeConfig U) (m : Nat) (ms : List MarketDataMessage)
    (x : Loop P (recording Q)) : Prop where
  /-- one call for each message that is due, in order -/
  calls : x.service.record.calls = ms.filterMap (request cfg)
  processed : x.service.processedCount = x.service.record.outcomes.count .returned
  failures : x.service.consecutiveFailures = rejectionsSince x.service.record.outcomes
  /-- the limit has not been reached before -/
  before : ∀ os, os <+: x.service.record.outcomes → os ≠ x.service.record.outcomes →
    rejectionsSince os < m
  place : x.place.Stands m x.service.record.calls x.service.record.outcomes

/-- Other tasks touch neither the counters nor the record. -/
structure Untouched (s s' : IngestionService P (recording Q)) : Prop where
  processedCount : s'.processedCount = s.processedCount
  consecutiveFailures : s'.consecutiveFailures = s.consecutiveFailures
  maxConsecutiveFailures : s'.maxConsecutiveFailures = s.maxConsecutiveFailures
  record : s'.record = s.record

/-- The service is running when a message is yielded, every `publish()` that ends succeeds or is
rejected, and the other tasks do what they do. -/
def Allowed (b : TaskId) (x : Loop P (recording Q)) (l : LoopLabel P (recording Q)) : Prop :=
  (∀ x', x.step b l = some x' → ∀ r ∈ x'.service.record.outcomes, Ordinary r) ∧
  match l with
  | .yields _ => x.service.running = true
  | .wakes _ => True
  | .others v => Untouched x.service v

/-! ## One turn -/

theorem rejectionsSince_returned (os : List Outcome) :
    rejectionsSince (os ++ [.returned]) = 0 := by
  simp [rejectionsSince]

theorem rejectionsSince_raised (os : List Outcome) (e : PyExn) :
    rejectionsSince (os ++ [.raised e]) = rejectionsSince os + 1 := by
  simp [rejectionsSince]

variable {b : TaskId} {cfg : ExchangeConfig U} {m : Nat} {ms : List MarketDataMessage}

theorem turn_skips {s : IngestionService P Q} {a : MarketDataMessage} (hr : s.running = true)
    (hP : P.config s.connector = some cfg) (h : request cfg a = none) :
    turn b s a = (s, .next) := by
  unfold request at h
  simp only [turn, hr, if_true, isSubscribedMarket, hP]
  split at h
  · rename_i hc
    rw [hc]
    split at h
    · cases h
    · rename_i e he
      simp only [he]
  · rename_i hc
    simp only [Bool.not_eq_true] at hc
    rw [hc]

/-- A message that is due is published. -/
theorem turn_publishes {s : IngestionService P Q} {a : MarketDataMessage} {q : Request}
    (hr : s.running = true) (hP : P.config s.connector = some cfg) (h : request cfg a = some q) :
    turn b s a = match Q.publish s.publisher q.topic q.key q.proto with
      | (p, .suspend pc) => ({ s with publisher := p }.log (.publish b), .suspend pc)
      | (p, .returned) => endTurn ({ s with publisher := p }.log (.publish b)) .returned
      | (p, .raised e) => endTurn ({ s with publisher := p }.log (.publish b)) (.raised e) := by
  unfold request at h
  split at h
  · rename_i hc
    split at h
    · rename_i proto hp
      cases h
      rcases hq : Q.publish s.publisher (getTopicForMessage a) (keyForMessage U a) proto with
        ⟨p, pc | _ | e⟩ <;>
        simp only [turn, hr, if_true, isSubscribedMarket, hP, hc, hp, hq]
    · cases h
  · cases h

/-- A `publish()` is in progress, the last one in the record. -/
structure InProgress (cfg : ExchangeConfig U) (m : Nat) (ms : List MarketDataMessage)
    (processed failures : Nat) (r : Record) : Prop where
  calls : r.calls = ms.filterMap (request cfg)
  processed : processed = r.outcomes.count .returned
  failures : failures = rejectionsSince r.outcomes
  before : ∀ os, os <+: r.outcomes → os ≠ r.outcomes → rejectionsSince os < m
  length : r.outcomes.length + 1 = r.calls.length
  below : rejectionsSince r.outcomes < m

namespace InProgress

variable {r : Record} {processed failures : Nat}

theorem before_ended (h : InProgress cfg m ms processed failures r) (o : Outcome) :
    ∀ os, os <+: (r.ended o).outcomes → os ≠ (r.ended o).outcomes → rejectionsSince os < m := by
  intro os hos hne
  have hpre := (List.prefix_concat_iff.1 hos).resolve_left hne
  by_cases he : os = r.outcomes
  · rw [he]
    exact h.below
  · exact h.before os hpre he

theorem length_ended (h : InProgress cfg m ms processed failures r) (o : Outcome) :
    (r.ended o).outcomes.length = (r.ended o).calls.length := by
  have hlen := h.length
  simp only [Record.ended, List.length_append, List.length_singleton]
  omega

variable {s : IngestionService P (recording Q)} {message : String}

/-- A success is counted, and the loop goes on. -/
theorem succeeds (h : InProgress cfg m ms s.processedCount s.consecutiveFailures r)
    (hs : s.record = r.ended .returned) :
    Accounts cfg m ms (⟨(endTurn s .returned).1, (endTurn s .returned).2.place⟩ :
      Loop P (recording Q)) := by
  refine ⟨(congrArg Record.calls hs).trans h.calls, ?_, ?_, ?_, ?_⟩
  · show s.processedCount + 1 = s.record.outcomes.count .returned
    rw [hs, h.processed]
    simp [Record.ended]
  · show 0 = rejectionsSince s.record.outcomes
    rw [hs]
    exact (rejectionsSince_returned _).symm
  · show ∀ os, os <+: s.record.outcomes → os ≠ s.record.outcomes → rejectionsSince os < m
    rw [hs]
    exact h.before_ended _
  · show (LoopPlace.asks : LoopPlace (recording Q)).Stands m s.record.calls s.record.outcomes
    rw [hs]
    have hzero : rejectionsSince (r.ended .returned).outcomes = 0 := rejectionsSince_returned _
    have hbelow := h.below
    exact ⟨h.length_ended _, by omega⟩

theorem endTurn_rejected (s : IngestionService P Q) (message : String) :
    endTurn s (.raised (.publishException message)) =
      ({ s with consecutiveFailures := s.consecutiveFailures + 1 },
        if s.maxConsecutiveFailures ≤ s.consecutiveFailures + 1
          then .finish (.raised (.publishException message)) else .next) := by
  by_cases hlim : s.maxConsecutiveFailures ≤ s.consecutiveFailures + 1 <;>
    simp [endTurn, countPublish, PyExn.isPublishException, hlim]

/-- A rejection is counted, and ends the loop if it is the last one allowed. -/
theorem rejected (h : InProgress cfg m ms s.processedCount s.consecutiveFailures r)
    (hm : s.maxConsecutiveFailures = m)
    (hs : s.record = r.ended (.raised (.publishException message))) :
    Accounts cfg m ms (⟨(endTurn s (.raised (.publishException message))).1,
      (endTurn s (.raised (.publishException message))).2.place⟩ : Loop P (recording Q)) := by
  have hcount : s.record.outcomes.count .returned = s.processedCount := by
    rw [hs, h.processed]
    simp [Record.ended]
  have hfail : rejectionsSince s.record.outcomes = s.consecutiveFailures + 1 := by
    rw [hs, h.failures]
    exact rejectionsSince_raised _ _
  rw [endTurn_rejected]
  refine ⟨(congrArg Record.calls hs).trans h.calls, hcount.symm, hfail.symm, ?_, ?_⟩
  · show ∀ os, os <+: s.record.outcomes → os ≠ s.record.outcomes → rejectionsSince os < _
    rw [hs]
    exact h.before_ended _
  · have hbelow := h.below
    rw [← h.failures] at hbelow
    have hlen : s.record.outcomes.length = s.record.calls.length := by
      rw [hs]
      exact h.length_ended _
    have hlast : s.record.outcomes.getLast? = some (.raised (.publishException message)) := by
      rw [hs]
      exact List.getLast?_concat
    dsimp only
    split
    · rename_i hlim
      have hlimit : s.consecutiveFailures + 1 = m := by omega
      exact ⟨hlen, hfail.trans hlimit, hlast, message, rfl⟩
    · rename_i hlim
      have hless : s.consecutiveFailures + 1 < m := by omega
      exact ⟨hlen, hfail.trans_lt hless⟩

/-- It ends, and is counted. -/
theorem ends {o : Outcome} (h : InProgress cfg m ms s.processedCount s.consecutiveFailures r)
    (hm : s.maxConsecutiveFailures = m) (ho : Ordinary o) (hs : s.record = r.ended o) :
    Accounts cfg m ms (⟨(endTurn s o).1, (endTurn s o).2.place⟩ : Loop P (recording Q)) := by
  rcases ho with rfl | ⟨message, rfl⟩
  · exact h.succeeds hs
  · exact h.rejected hm hs

end InProgress

/-! ## Runs -/

theorem Accounts.untouched {s v : IngestionService P (recording Q)} {l : LoopPlace (recording Q)}
    (h : Accounts cfg m ms ⟨s, l⟩) (hu : Untouched s v) : Accounts cfg m ms ⟨v, l⟩ := by
  obtain ⟨hc, hp, hf, hb, hl⟩ := h
  refine ⟨?_, ?_, ?_, ?_, ?_⟩
  · show v.record.calls = _
    rw [hu.record]
    exact hc
  · show v.processedCount = v.record.outcomes.count .returned
    rw [hu.record, hu.processedCount]
    exact hp
  · show v.consecutiveFailures = rejectionsSince v.record.outcomes
    rw [hu.record, hu.consecutiveFailures]
    exact hf
  · show ∀ os, os <+: v.record.outcomes → os ≠ v.record.outcomes → rejectionsSince os < m
    rw [hu.record]
    exact hb
  · show l.Stands m v.record.calls v.record.outcomes
    rw [hu.record]
    exact hl

/-- The invariant of the loop. -/
structure Counting (cfg : ExchangeConfig U) (m : Nat) (ms : List MarketDataMessage)
    (x : Loop P (recording Q)) : Prop where
  accounts : Accounts cfg m ms x
  limit : x.service.maxConsecutiveFailures = m

/-- Counting changes the two counters only. -/
theorem countPublish_rest (s : IngestionService P Q) (o : Outcome) :
    (countPublish s o).1.maxConsecutiveFailures = s.maxConsecutiveFailures ∧
      (countPublish s o).1.publisher = s.publisher := by
  unfold countPublish
  split
  · exact ⟨rfl, rfl⟩
  · split
    · dsimp only
      split <;> exact ⟨rfl, rfl⟩
    · exact ⟨rfl, rfl⟩
  · exact ⟨rfl, rfl⟩

theorem endTurn_rest (s : IngestionService P Q) (o : Outcome) :
    (endTurn s o).1.maxConsecutiveFailures = s.maxConsecutiveFailures ∧
      (endTurn s o).1.publisher = s.publisher := by
  have h := countPublish_rest s o
  unfold endTurn
  split
  · rename_i he
    rwa [he] at h
  · rename_i he
    rwa [he] at h

/-- A call begins. -/
theorem Accounts.call {s : IngestionService P (recording Q)} {a : MarketDataMessage} {q : Request}
    (h : Accounts cfg m ms ⟨s, .asks⟩) (hq : request cfg a = some q) :
    InProgress cfg m (ms ++ [a]) s.processedCount s.consecutiveFailures (s.record.call q) where
  calls := by
    rw [List.filterMap_append, List.filterMap_cons_some hq, List.filterMap_nil]
    exact congrArg (· ++ [q]) h.calls
  processed := h.processed
  failures := h.failures
  before := h.before
  length := by
    rw [Record.call, List.length_append, List.length_singleton]
    exact congrArg (· + 1) h.place.1
  below := h.place.2

theorem InProgress.accounts {s : IngestionService P (recording Q)}
    (h : InProgress cfg m ms s.processedCount s.consecutiveFailures s.record)
    (pc : Q.PublishPc) : Accounts cfg m ms (⟨s, .publishing pc⟩ : Loop P (recording Q)) :=
  ⟨h.calls, h.processed, h.failures, h.before, h.length, h.below⟩

theorem Accounts.inProgress {s : IngestionService P (recording Q)} {pc : Q.PublishPc}
    (h : Accounts cfg m ms (⟨s, .publishing pc⟩ : Loop P (recording Q))) :
    InProgress cfg m ms s.processedCount s.consecutiveFailures s.record :=
  ⟨h.calls, h.processed, h.failures, h.before, h.place.1, h.place.2⟩

/-- A `publish()` has ended with `o`. -/
theorem Counting.ended {s : IngestionService P (recording Q)} {r : Record} {o : Outcome}
    (h : InProgress cfg m ms s.processedCount s.consecutiveFailures r)
    (hm : s.maxConsecutiveFailures = m) (hs : s.record = r.ended o)
    (ho : ∀ r ∈ (endTurn s o).1.record.outcomes, Ordinary r) :
    Counting cfg m ms (⟨(endTurn s o).1, (endTurn s o).2.place⟩ : Loop P (recording Q)) := by
  refine ⟨h.ends hm (ho o ?_) hs, (endTurn_rest s o).1.trans hm⟩
  rw [IngestionService.record, (endTurn_rest s o).2]
  show o ∈ s.record.outcomes
  rw [hs]
  exact List.mem_append_right _ (List.mem_singleton.2 rfl)

/-- **One step of the loop.** -/
theorem Counting.step {x x' : Loop P (recording Q)} {l : LoopLabel P (recording Q)}
    (hP : ∀ c, P.config c = some cfg) (h : Counting cfg m ms x) (hl : Allowed b x l)
    (hs : x.step b l = some x') : Counting cfg m (ms ++ messagesOf [l]) x' := by
  obtain ⟨s, place⟩ := x
  obtain ⟨hacc, hm⟩ := h
  obtain ⟨hord, hl⟩ := hl
  have hord := hord x' hs
  cases l with
  | yields a =>
    cases place with
    | publishing | ended => cases hs
    | asks =>
      cases hs
      have hmessages : messagesOf [LoopLabel.yields (P := P) (Q := recording Q) a] = [a] := rfl
      rw [hmessages]
      cases hq : request cfg a with
      | none =>
        rw [turn_skips hl (hP _) hq]
        refine ⟨⟨?_, hacc.processed, hacc.failures, hacc.before, hacc.place⟩, hm⟩
        rw [List.filterMap_append, List.filterMap_cons_none hq, List.filterMap_nil, List.append_nil]
        exact hacc.calls
      | some q =>
        have hcall := hacc.call hq
        rw [turn_publishes hl (hP _) hq] at hord ⊢
        revert hord
        simp only [recording]
        cases hpub : Q.publish s.publisher.1 q.topic q.key q.proto with
        | mk p r =>
          cases r with
          | suspend pc => exact fun _ => ⟨InProgress.accounts hcall pc, hm⟩
          | returned => exact fun hord => Counting.ended hcall hm rfl hord
          | raised e => exact fun hord => Counting.ended hcall hm rfl hord
  | wakes w =>
    cases place with
    | asks | ended => cases hs
    | publishing pc =>
      have hmessages : messagesOf [LoopLabel.wakes (P := P) (Q := recording Q) w] = [] := rfl
      rw [hmessages, List.append_nil]
      have hcall := hacc.inProgress
      simp only [Loop.step, recording] at hs
      cases hres : Q.resumePublish s.publisher.1 pc w with
      | none =>
        rw [hres] at hs
        cases hs
      | some p =>
        obtain ⟨p, r⟩ := p
        rw [hres] at hs
        cases r with
        | suspend pc' =>
          cases hs
          exact ⟨InProgress.accounts (s := { s with publisher := (p, s.publisher.2) }) hcall pc',
            hm⟩
        | finish o =>
          cases hs
          exact Counting.ended hcall hm rfl hord
  | others v =>
    cases hs
    have hmessages : messagesOf [LoopLabel.others (P := P) (Q := recording Q) v] = [] := rfl
    rw [hmessages, List.append_nil]
    exact ⟨hacc.untouched hl, hl.maxConsecutiveFailures.trans hm⟩

theorem run_counting (hP : ∀ c, P.config c = some cfg) {ls : List (LoopLabel P (recording Q))}
    {ms : List MarketDataMessage} {x x' : Loop P (recording Q)} (h : Counting cfg m ms x)
    (hg : Guarded (Loop.step b) (Allowed b) x ls) (hr : run (Loop.step b) x ls = some x') :
    Counting cfg m (ms ++ messagesOf ls) x' :=
  run_collects (P := fun x ms => Counting cfg m ms x)
    (fun _ l _ _ h hl hs => by
      have hstep := h.step hP hl hs
      cases l <;> exact hstep)
    h hg hr

/-- A loop that begins, with its counters and its record empty. -/
structure Loop.Begins (m : Nat) (x : Loop P (recording Q)) : Prop where
  place : x.place = .asks
  processedCount : x.service.processedCount = 0
  consecutiveFailures : x.service.consecutiveFailures = 0
  maxConsecutiveFailures : x.service.maxConsecutiveFailures = m
  record : x.service.record = Record.empty

theorem Loop.Begins.counting {x : Loop P (recording Q)} (hx : x.Begins m) (hm : 1 ≤ m) :
    Counting cfg m [] x := by
  obtain ⟨s, place⟩ := x
  obtain ⟨hplace, hproc, hfail, hmax, hrec⟩ := hx
  obtain rfl : place = .asks := hplace
  refine ⟨⟨?_, ?_, ?_, ?_, ?_⟩, hmax⟩ <;> dsimp only at *
  · rw [hrec]
    rfl
  · rw [hrec, hproc]
    rfl
  · rw [hrec, hfail]
    rfl
  · rw [hrec]
    exact fun os hos hne => absurd (List.prefix_nil.1 hos) hne
  · rw [hrec]
    exact ⟨rfl, hm⟩

/-- **What the loop counts**, for every sequence of messages. -/
theorem accounts_of_run {x x' : Loop P (recording Q)} {ls : List (LoopLabel P (recording Q))}
    (hP : ∀ c, P.config c = some cfg) (hm : 1 ≤ m) (hx : x.Begins m)
    (hg : Guarded (Loop.step b) (Allowed b) x ls) (hr : run (Loop.step b) x ls = some x') :
    Accounts cfg m (messagesOf ls) x' := by
  have h := (run_counting hP (hx.counting hm) hg hr).accounts
  rwa [List.nil_append] at h

/-! ### Two rejections -/

/-- The connector of the service's tests: it yields what it is given. -/
def mockConnector : ConnectorPort asciiTable where
  State := Unit
  ConnectPc := Empty
  DisconnectPc := Empty
  StreamPc := Unit
  Input := MarketDataMessage
  config _ := some krwBtcConfig
  connect _ c _ := (c, .returned)
  resumeConnect _ _ _ pc _ := nomatch pc
  disconnect c _ := (c, .returned)
  resumeDisconnect _ _ pc _ := nomatch pc
  stream _ c _ := (c, .suspend ())
  resumeStream _ c _ _ w :=
    match w with
    | .input m => some (c, .batch m [])
    | _ => none
  connectAwaits pc := nomatch pc
  streamAwaits _ := none

/-- A producer that accepts one record only. -/
def oneRecordProducer : Kafka.Producer where
  serialize _ := .ok ByteArray.empty
  produce n := if n = 0 then none else some .kafkaException
  poll _ := none
  flush _ := .ok 0

def tradeMessage (code : String) (rawData : Dict) : MarketDataMessage where
  exchange := "upbit"
  dataType := .trade
  rawCode := code
  receivedTimestamp := DateTime.epoch
  eventTimestamp := DateTime.epoch
  streamType := .realtime
  rawData := rawData

/-- A running service with the limit 2, at the top of its loop. -/
def mockLoop : Loop mockConnector (recording (Kafka.publisher oneRecordProducer)) :=
  ⟨{ IngestionService.init mockConnector (recording (Kafka.publisher oneRecordProducer)) ()
      (Kafka.Adapter.init, Record.empty) 2 1 with running := true }, .asks⟩

/-- Two rejections, with a message between them that is not subscribed; before them a message that
cannot be converted and one that is published. -/
def twoRejections :
    List (LoopLabel mockConnector (recording (Kafka.publisher oneRecordProducer))) :=
  [.yields (tradeMessage "KRW-BTC" [("ask_bid", .list [])]), .yields (tradeMessage "KRW-BTC" []),
    .yields (tradeMessage "KRW-BTC" []), .yields (tradeMessage "KRW-ETH" []),
    .yields (tradeMessage "krw-btc" [])]

theorem twoRejections_isSome : (run (Loop.step 1) mockLoop twoRejections).isSome = true := rfl

def afterTwoRejections : Loop mockConnector (recording (Kafka.publisher oneRecordProducer)) :=
  (run (Loop.step 1) mockLoop twoRejections).get twoRejections_isSome

theorem allowed_yields {x x' : Loop P (recording Q)} {a : MarketDataMessage}
    (hs : x.step b (.yields a) = some x') (hr : x.service.running = true)
    (ho : ∀ r ∈ x'.service.record.outcomes, Ordinary r) : Allowed b x (.yields a) := by
  refine ⟨fun x₁ hs₁ => ?_, hr⟩
  rw [hs] at hs₁
  cases hs₁
  exact ho

theorem twoRejections_allowed : Guarded (Loop.step 1) (Allowed 1) mockLoop twoRejections := by
  refine .cons (allowed_yields rfl rfl ?_) rfl (.cons (allowed_yields rfl rfl ?_) rfl
    (.cons (allowed_yields rfl rfl ?_) rfl (.cons (allowed_yields rfl rfl ?_) rfl
      (.cons (allowed_yields rfl rfl ?_) rfl trivial))))
  all_goals decide

/-- `accounts_of_run` at that run. -/
theorem accounts_of_run_twoRejections :
    Accounts krwBtcConfig 2 (messagesOf twoRejections) afterTwoRejections :=
  accounts_of_run (fun _ => rfl) (by decide) ⟨rfl, rfl, rfl, rfl, rfl⟩ twoRejections_allowed
    (Option.some_get twoRejections_isSome).symm

end FlinkPractices.Service
