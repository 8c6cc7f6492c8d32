import FlinkPractices.Kafka.Producer
import FlinkPractices.Lib.System

/-!
# Closing the Kafka adapter (`kafka/kafka_producer.py`)

`KafkaProducerAdapter` with its attribute `_producer`, which `close()` sets to `None`: that is all
that makes the adapter closed.  Every method reads it inside its `try`, so on a closed adapter the
`AttributeError` comes out as `PublishException`.

Any number of tasks publish, flush and close (`step`).  `Closed` is what a caller expects of a
closed adapter: publishing and flushing raise `PublishException`, nothing is handed to `produce()`,
and a further `close()` does not flush.

`close()` flushes first, and swallows whatever that raises, together with the assignment that would
have closed the adapter.  Principal result: `closed_iff` (the adapter is closed from the first
`close()` on iff the flush of that call returned).

## Proof

* `closed_iff_none` — the adapter is closed iff `_producer` is `None`
* `step_producer` — only `close()` writes the attribute, and `step_none` — once it is `None` it
  stays so
* `close_eq` — `close()` is its flush, and what it makes of the result

`failingFlush_not_closed`: after a `close()` whose flush raised, a `publish()` still hands its
record to the producer and returns.
-/

set_option autoImplicit false

namespace FlinkPractices.Kafka

open Lib Service

variable (K : Producer)

/-! ## The adapter with its attribute -/

structure Instance where
  adapter : Adapter
  /-- `self._producer is not None` -/
  producer : Bool

/-- `__init__`. -/
def Instance.init : Instance := ⟨Adapter.init, true⟩

/-- `except Exception` of `flush()`. -/
def flushFailure : PyExn := .publishException "Failed to flush messages"

namespace Instance

def withAdapter {α : Type} (s : Instance) (r : Adapter × α) : Instance × α :=
  ({ s with adapter := r.1 }, r.2)

/-- `publish()`, first segment.  Without a producer it raises at `produce`, if not before. -/
def publish (s : Instance) (topic : String) (key : ByteArray) (message : ProtoMessage) :
    Instance × Start PublishPc :=
  if s.producer then s.withAdapter (Kafka.publish K s.adapter topic key message)
  else (s, .raised (publishFailure topic))

/-- The segment of `publish()` after a sleep. -/
def resumePublish (s : Instance) (pc : PublishPc) (w : Wake Empty) :
    Option (Instance × Next PublishPc) :=
  if s.producer then (Kafka.resumePublish K s.adapter pc w).map s.withAdapter
  else
    match w with
    | .done => some (s, .finish (.raised (publishFailure pc.record.topic)))
    | .cancelled => some (s, .finish .cancelled)
    | _ => none

/-- `publish_market_data()`. -/
def publishMarketData (U : UpperTable) (s : Instance) (topic : String)
    (message : MarketDataMessage) (protobufMessage : ProtoMessage) : Instance × Start PublishPc :=
  s.publish K topic (message.code U).toUTF8 protobufMessage

/-- `flush()`. -/
def flush (s : Instance) : Instance × Start Empty :=
  if s.producer then s.withAdapter (Kafka.flush K s.adapter) else (s, .raised flushFailure)

/-- `close()`: a flush that raises is logged, and the attribute stays as it is. -/
def close (s : Instance) : Instance × Start Empty :=
  if s.producer then
    match s.flush K with
    | (s, .returned) => ({ s with producer := false }, .returned)
    | (s, .raised _) => (s, .returned)
    | (s, .suspend pc) => (s, .suspend pc)
  else (s, .returned)

end Instance

/-- What is expected after `close()`: publishing and flushing raise `PublishException`, nothing is
handed to `produce()`, and a further `close()` does not flush. -/
structure Closed (U : UpperTable) (s : Instance) : Prop where
  publish : ∀ topic key message, ∃ e, e.isPublishException = true ∧
    (s.publish K topic key message).2 = .raised e ∧
    (s.publish K topic key message).1.adapter.produces = s.adapter.produces
  publishMarketData : ∀ topic message protobufMessage, ∃ e, e.isPublishException = true ∧
    (s.publishMarketData K U topic message protobufMessage).2 = .raised e ∧
    (s.publishMarketData K U topic message protobufMessage).1.adapter.produces =
      s.adapter.produces
  flush : ∃ e, e.isPublishException = true ∧ (s.flush K).2 = .raised e
  close : (s.close K).2 = .returned ∧ (s.close K).1.adapter.flushes = s.adapter.flushes

/-! ## Any number of callers -/

/-- The adapter, and the calls of `publish()` that sleep. -/
structure Users where
  inst : Instance
  pending : Nat → Option PublishPc

def Users.init : Users := ⟨Instance.init, fun _ => none⟩

inductive Call where
  | publish (t : Nat) (topic : String) (key : ByteArray) (message : ProtoMessage)
  | resume (t : Nat) (w : Wake Empty)
  | flush
  | close

/-- The caller `t` after a segment of its `publish()`. -/
def Users.settle (u : Users) (t : Nat) (s : Instance) (pc : Option PublishPc) : Users :=
  ⟨s, Function.update u.pending t pc⟩

/-- One call, or the end of a sleep. -/
def step (u : Users) : Call → Option Users
  | .publish t topic key message =>
    match u.pending t, u.inst.publish K topic key message with
    | none, (s, .suspend pc) => some (u.settle t s (some pc))
    | none, (s, _) => some (u.settle t s none)
    | some _, _ => none
  | .resume t w =>
    match u.pending t with
    | some pc =>
      match u.inst.resumePublish K pc w with
      | some (s, .suspend pc) => some (u.settle t s (some pc))
      | some (s, .finish _) => some (u.settle t s none)
      | none => none
    | none => none
  | .flush => some { u with inst := (u.inst.flush K).1 }
  | .close => some { u with inst := (u.inst.close K).1 }

/-! ## What the attribute decides -/

variable {K} {U : UpperTable}

theorem publish_none {s : Instance} (h : s.producer = false) (topic : String) (key : ByteArray)
    (message : ProtoMessage) :
    s.publish K topic key message = (s, .raised (publishFailure topic)) := by
  unfold Instance.publish
  rw [h]
  rfl

/-- Without a producer the adapter is closed. -/
theorem closed_of_none {s : Instance} (h : s.producer = false) : Closed K U s := by
  have hf : s.flush K = (s, .raised flushFailure) := by unfold Instance.flush; rw [h]; rfl
  have hc : s.close K = (s, .returned) := by unfold Instance.close; rw [h]; rfl
  constructor
  · intro topic key message
    rw [publish_none h]
    exact ⟨_, rfl, rfl, rfl⟩
  · intro topic message protobufMessage
    unfold Instance.publishMarketData
    rw [publish_none h]
    exact ⟨_, rfl, rfl, rfl⟩
  · rw [hf]
    exact ⟨_, rfl, rfl⟩
  · rw [hc]
    exact ⟨rfl, rfl⟩

/-- `close()` is its flush, and what it makes of the result. -/
theorem close_eq {s : Instance} (h : s.producer = true) :
    s.close K = ({ s with
      adapter := { s.adapter with flushes := s.adapter.flushes + 1 }
      producer := !(K.flush s.adapter.flushes).isOk }, .returned) := by
  simp only [Instance.close, if_pos h, Instance.flush, Instance.withAdapter, Kafka.flush]
  cases K.flush s.adapter.flushes with
  | ok n => rfl
  | error e => rw [h]; rfl

/-- With a producer it is not: a further `close()` flushes. -/
theorem not_closed_of_some {s : Instance} (h : s.producer = true) : ¬Closed K U s := by
  intro hc
  have hf := hc.close.2
  rw [close_eq h] at hf
  exact absurd hf (Nat.succ_ne_self _)

theorem closed_iff_none {s : Instance} : Closed K U s ↔ s.producer = false := by
  refine ⟨fun hc => ?_, closed_of_none⟩
  cases h : s.producer with
  | false => rfl
  | true => exact absurd hc (not_closed_of_some h)

/-! ## The attribute over a run -/

theorem publish_producer (s : Instance) (topic : String) (key : ByteArray)
    (message : ProtoMessage) : (s.publish K topic key message).1.producer = s.producer := by
  unfold Instance.publish
  split <;> rfl

theorem resumePublish_producer {s s' : Instance} {pc : PublishPc} {w : Wake Empty}
    {r : Next PublishPc} (h : s.resumePublish K pc w = some (s', r)) :
    s'.producer = s.producer := by
  unfold Instance.resumePublish at h
  split at h
  · obtain ⟨x, -, hx⟩ := Option.map_eq_some_iff.1 h
    cases hx
    rfl
  · split at h
    · cases h; rfl
    · cases h; rfl
    · cases h

theorem flush_producer (s : Instance) : (s.flush K).1.producer = s.producer := by
  unfold Instance.flush
  split <;> rfl

theorem close_producer {s : Instance} (h : s.producer = false) :
    (s.close K).1.producer = false := by
  simp only [Instance.close, h, Bool.false_eq_true, if_false]

/-- Only `close()` writes the attribute. -/
theorem step_producer {u u' : Users} {l : Call} (h : step K u l = some u') (hl : l ≠ .close) :
    u'.inst.producer = u.inst.producer := by
  cases l with
  | publish t topic key message =>
    have hp := publish_producer (K := K) u.inst topic key message
    simp only [step] at h
    split at h
    · rename_i s pc _ hs
      rw [hs] at hp; cases h; exact hp
    · rename_i s r _ _ hs
      rw [hs] at hp; cases h; exact hp
    · cases h
  | resume t w =>
    simp only [step] at h
    split at h
    · split at h
      · rename_i hs; cases h; exact resumePublish_producer hs
      · rename_i hs; cases h; exact resumePublish_producer hs
      · cases h
    · cases h
  | flush => cases h; exact flush_producer u.inst
  | close => exact absurd rfl hl

/-- Once it is `None` it stays so. -/
theorem step_none {u u' : Users} {l : Call} (hu : u.inst.producer = false)
    (h : step K u l = some u') : u'.inst.producer = false := by
  by_cases hl : l = .close
  · subst hl
    cases h
    exact close_producer hu
  · exact (step_producer h hl).trans hu

/-- Before the first `close()` the adapter has its producer. -/
theorem run_open {ls : List Call} {u u' : Users} (hu : u.inst.producer = true)
    (hl : ∀ l ∈ ls, l ≠ .close) (h : run (step K) u ls = some u') : u'.inst.producer = true := by
  refine run_mem_invariant (P := fun u : Users => u.inst.producer = true) ?_ hu hl h
  intro s l s' hs hl hstep
  exact (step_producer hstep hl).trans hs

/-- **When closed means closed.**  In any run of any number of callers, and after the first
`close()` of it: the adapter is closed in every state that follows iff the flush of that `close()`
returned, with or without messages remaining. -/
theorem closed_iff {ls : List Call} {u u₁ : Users} (hl : ∀ l ∈ ls, l ≠ .close)
    (h : run (step K) Users.init ls = some u) (hc : step K u .close = some u₁) :
    (∀ ms u₂, run (step K) u₁ ms = some u₂ → Closed K U u₂.inst) ↔
      ∃ n, K.flush u.inst.adapter.flushes = .ok n := by
  have hu : u.inst.producer = true := run_open rfl hl h
  have hp : u₁.inst.producer = !(K.flush u.inst.adapter.flushes).isOk := by
    cases hc
    exact congrArg (fun r => r.1.producer) (close_eq hu)
  constructor
  · intro hall
    have hnone := closed_iff_none.1 (hall [] u₁ rfl)
    rw [hp] at hnone
    cases hf : K.flush u.inst.adapter.flushes with
    | ok n => exact ⟨n, rfl⟩
    | error e => rw [hf] at hnone; cases hnone
  · rintro ⟨n, hn⟩ ms u₂ hr
    rw [hn] at hp
    exact closed_of_none (run_invariant (P := fun u => u.inst.producer = false)
      (fun _ _ _ hu hs => step_none hu hs) hp hr)

/-! ## A flush that raises -/

/-- A producer whose flush raises `KafkaException`. -/
def failingFlush : Producer := { acceptingProducer with flush := fun _ => .error .kafkaException }

/-- **A `close()` whose flush raises leaves the adapter open**: the next `publish()` hands its
record to the producer and returns. -/
theorem failingFlush_not_closed : ∃ u, run (step failingFlush) Users.init [.close] = some u ∧
    ¬Closed failingFlush asciiTable u.inst ∧
    ∀ topic key message, (u.inst.publish failingFlush topic key message).2 = .returned :=
  ⟨_, rfl, not_closed_of_some rfl, fun _ _ _ => rfl⟩

/-- An order book without levels. -/
def emptyBook : ProtoMessage :=
  .orderbook ⟨.upbit, "KRW-BTC", .zero, .zero, [], [], .realtime, ⟨0, 0⟩, ⟨0, 0⟩⟩

/-- `closed_iff` after a record and a flush. -/
theorem closed_iff_acceptingProducer : ∃ u u₁,
    run (step acceptingProducer) Users.init [.publish 0 "t" ByteArray.empty emptyBook, .flush] = some u ∧
      step acceptingProducer u .close = some u₁ ∧
      ((∀ ms u₂, run (step acceptingProducer) u₁ ms = some u₂ →
          Closed acceptingProducer asciiTable u₂.inst) ↔
        ∃ n, acceptingProducer.flush u.inst.adapter.flushes = .ok n) :=
  ⟨_, _, rfl, rfl, closed_iff
    (show ∀ l ∈ [Call.publish 0 "t" ByteArray.empty emptyBook, .flush], l ≠ .close by simp) rfl rfl⟩

end FlinkPractices.Kafka
