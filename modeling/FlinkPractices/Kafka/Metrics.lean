import FlinkPractices.Kafka.Calls
import Mathlib.Algebra.BigOperators.Group.List.Basic
import Mathlib.Algebra.GroupWithZero.Nat
import Mathlib.Algebra.Order.BigOperators.Group.List

/-!
# The records and the counters of the Kafka adapter

What the queue of the producer holds, and what the Prometheus counters of the module say about it,
in the runs of `Calls`: any number of callers, whatever `produce()`, `poll()`, `flush()` and the
serialization do, and whenever the delivery callbacks run.

* `Traced` — every record was handed over by one call, and is that call's record; a call hands over
  one at most (`traced_of_run`).
* `Metrics` — the counters, as the labels they were incremented with; `count` is what a segment of
  `publish()` does to them, `deliveryCallback` what the callback of a record does.

Principal result: `counted_of_run`, how the counters of a topic agree with the records, with the
calls and with each other.

## Proof

* `Owned` — the ledger of `Calls` owns every record: it names the call that handed it over
* `Counts` — what a segment counts, against the records it has had accepted and the full queues it
  has met; `publish_counts` and `resume_counts` compare the counting code with the publishing code,
  which are written side by side in the source
* `Entry.Balanced`, `Balanced` — the account of one call, and of all calls on a topic
* `Balanced.books` — one call's account moves, and the sums with it
* `Balanced.counted` — from the balance to the counters

Left out are the gauge of the queue length and the histogram of the latency: the one is what the
producer says it is, the other measures real time.
-/

set_option autoImplicit false

namespace FlinkPractices.Kafka

open Lib Service

variable (K : Producer)

/-! ## Where the records come from -/

/-- Record `p` was handed over by call `i`. -/
def HandedOver (x : Users × Ledger) (p i : Nat) : Prop :=
  ∃ e, x.2.entries[i]? = some e ∧ e.At K x.1.inst.adapter.records p

/-- No record is invented, altered or handed over twice. -/
structure Traced (x : Users × Ledger) : Prop where
  once : ∀ p < x.1.inst.adapter.records.length, ∃! i, HandedOver K x p i
  one : ∀ i p q, HandedOver K x p i → HandedOver K x q i → p = q

/-- The invariant of all runs. -/
structure Owned (x : Users × Ledger) : Prop where
  owner : ∀ p < x.1.inst.adapter.records.length, ∃ i, HandedOver K x p i
  apart : ∀ (i j : Nat) (d e : Entry) (p : Nat), x.2.entries[i]? = some d →
    x.2.entries[j]? = some e → p ∈ d.positions → p ∈ e.positions → i = j

variable {K} {u : Users} {l : Call} {e : Entry}

theorem Entry.At.append {records : List Record} {p : Nat} (h : e.At K records p)
    (rs : List Record) : e.At K (records ++ rs) p := by
  obtain ⟨hp, value, hv, hget⟩ := h
  obtain ⟨hlt, -⟩ := List.getElem?_eq_some_iff.1 hget
  exact ⟨hp, value, hv, (List.getElem?_append_left hlt).trans hget⟩

/-- A record that a segment has handed over is its call's record. -/
theorem Segment.handedOver {a : Adapter} {o : Option Outcome} {pc : Option PublishPc}
    (h : Segment K u l e a o pc) (hp : e.positions = []) :
    (a.records = u.inst.adapter.records ∧ (e.after u.inst.adapter a o).positions = []) ∨
      ∃ r, a.records = u.inst.adapter.records ++ [r] ∧
        (e.after u.inst.adapter a o).At K a.records u.inst.adapter.records.length := by
  cases h with
  | returns hv | accepted hv =>
    exact .inr ⟨_, rfl, after_positions_append hp rfl, _, hv, List.getElem?_concat_length⟩
  | sleeps | cancelled => exact .inl ⟨rfl, after_positions hp rfl⟩
  | fails _ hr => exact .inl ⟨hr, after_positions hp hr⟩

theorem owned_init : Owned K (Users.init, Ledger.empty) where
  owner _ h := by cases h
  apart _ _ _ _ _ h := by cases h

theorem Owned.step {x x' : Users × Ledger} (hx : Coherent K x) (ho : Owned K x)
    (h : observe K x l = some x') : Owned K x' := by
  cases observe_effect hx h with
  | @call t i e o pc hent hseg _ _ hi hothers =>
    obtain ⟨-, -, hpos, hold⟩ := hent.facts
    -- what the call of this step owned, it had not handed over before
    have hfresh : ∀ p, HandedOver K x p i → False := by
      rintro p ⟨d, hd, hat, -⟩
      cases hent with
      | first =>
        rw [List.getElem?_eq_none (Nat.le_refl _)] at hd
        cases hd
      | later _ _ he _ =>
        cases he.symm.trans hd
        rw [hpos] at hat
        cases hat
    obtain ⟨rs, hrs⟩ := hseg.records
    have hkeep : ∀ {p j}, HandedOver K x p j → HandedOver K x' p j := by
      rintro p j ⟨d, hd, hat⟩
      have hj : j ≠ i := by
        rintro rfl
        exact hfresh p ⟨d, hd, hat⟩
      exact ⟨d, (hothers j hj).trans hd, hrs ▸ hat.append rs⟩
    -- a position of the call of this step is the last one
    have hlast : ∀ p, p ∈ (e.after x.1.inst.adapter x'.1.inst.adapter o).positions →
        p = x.1.inst.adapter.records.length := by
      intro p hp
      rcases hseg.handedOver hpos with ⟨-, hnil⟩ | ⟨r, -, hone, -⟩
      · rw [hnil] at hp
        cases hp
      · rw [hone] at hp
        exact List.mem_singleton.1 hp
    refine ⟨fun p hp => ?_, fun j k d d' p hj hk hpj hpk => ?_⟩
    · by_cases hlt : p < x.1.inst.adapter.records.length
      · obtain ⟨j, hj⟩ := ho.owner p hlt
        exact ⟨j, hkeep hj⟩
      · rcases hseg.handedOver hpos with ⟨hr, -⟩ | ⟨r, hr, hat⟩
        · rw [hr] at hp
          exact absurd hp hlt
        · have hp' : p = x.1.inst.adapter.records.length := by
            rw [hr, List.length_append, List.length_singleton] at hp
            omega
          exact ⟨i, _, hi, hp' ▸ hat⟩
    · by_cases hji : j = i <;> by_cases hki : k = i
      · rw [hji, hki]
      · subst hji
        cases hi.symm.trans hj
        rw [hothers k hki] at hk
        exact absurd (hlast p hpj) ((hx.sound k d' hk).below p hpk).ne
      · subst hki
        cases hi.symm.trans hk
        rw [hothers j hji] at hj
        exact absurd (hlast p hpk) ((hx.sound j d hj).below p hpj).ne
      · rw [hothers j hji] at hj
        rw [hothers k hki] at hk
        exact ho.apart j k d d' p hj hk hpj hpk
  | quiet _ _ hrec hg =>
    refine ⟨fun p hp => ?_, fun i j d e p hd he hp hp' => ?_⟩
    · rw [hrec] at hp
      obtain ⟨i, d, hd, hat⟩ := ho.owner p hp
      exact ⟨i, d, by rw [hg]; exact hd, by rw [hrec]; exact hat⟩
    · rw [hg] at hd he
      exact ho.apart i j d e p hd he hp hp'

theorem Owned.traced {x : Users × Ledger} (h : Owned K x) : Traced K x := by
  refine ⟨fun p hp => ?_, ?_⟩
  · obtain ⟨i, d, hd, hat⟩ := h.owner p hp
    refine ⟨i, ⟨d, hd, hat⟩, ?_⟩
    rintro j ⟨d', hd', hat'⟩
    exact h.apart j i d' d p hd' hd (by rw [hat'.1]; exact List.mem_singleton_self p)
      (by rw [hat.1]; exact List.mem_singleton_self p)
  · rintro i p q ⟨d, hd, hp, -⟩ ⟨d', hd', hq, -⟩
    cases hd.symm.trans hd'
    rw [hp] at hq
    exact List.singleton_inj.1 hq

/-- **Every record is one call's record.**  In every run of any number of callers, with any closing
in between, each record that the producer has accepted was handed over by exactly one call of
`publish()`, with its topic, its key and its message serialised; and no call has handed over two. -/
theorem traced_of_run {ls : List Call} {x : Users × Ledger}
    (h : run (observe K) (Users.init, Ledger.empty) ls = some x) : Traced K x := by
  have hinv := run_invariant (P := fun x => Coherent K x ∧ Owned K x)
    (fun _ _ _ hx hs => ⟨hx.1.step hs, hx.2.step hx.1 hs⟩) ⟨coherent_init, owned_init⟩ h
  exact hinv.2.traced

/-- Two callers; the first is accepted at its second attempt. -/
theorem traced_of_run_twoOfOneMarket : ∃ x,
    run (observe fullOnce) (Users.init, Ledger.empty) twoOfOneMarket = some x ∧
      x.1.inst.adapter.records.length = 2 ∧ Traced fullOnce x :=
  ⟨_, rfl, rfl, traced_of_run (show run _ _ twoOfOneMarket = _ from rfl)⟩

/-! ## The counters -/

/-- The counters of the module: the labels of their increments.  Left out are the gauge of the queue
length, which is what the producer says it is, and the histogram of the latency. -/
structure Metrics where
  /-- `KAFKA_PUBLISH_ATTEMPTS` -/
  attempts : List String
  /-- `KAFKA_PUBLISH_ENQUEUED` -/
  enqueued : List String
  /-- `KAFKA_PUBLISH_BUFFER_FULL` -/
  bufferFull : List String
  /-- `KAFKA_PUBLISH_RETRIES` -/
  retries : List String
  /-- `KAFKA_DELIVERY_RESULTS`: topic, result and error code -/
  deliveryResults : List (String × String × String)

def Metrics.empty : Metrics := ⟨[], [], [], [], []⟩

section

variable (K)

/-- The retry loop: one call of `produce()`. -/
def countAttempt (a : Adapter) (topic : String) (retryCount : Nat) (m : Metrics) : Metrics :=
  if retryCount < maxRetries then
    match K.produce a.produces with
    | none => { m with enqueued := topic :: m.enqueued }
    | some .bufferError =>
      { m with bufferFull := topic :: m.bufferFull, retries := topic :: m.retries }
    | some _ => m
  else m

/-- `publish()`, first segment: the attempt is counted once the message is serialised, also when
there is no producer any more. -/
def countPublish (s : Instance) (topic : String) (message : ProtoMessage) (m : Metrics) : Metrics :=
  match K.serialize message with
  | .error _ => m
  | .ok _ =>
    let m := { m with attempts := topic :: m.attempts }
    if s.producer then countAttempt K s.adapter topic 0 m else m

/-- The segment of `publish()` after a sleep. -/
def countResume (s : Instance) (pc : PublishPc) (w : Wake Empty) (m : Metrics) : Metrics :=
  match w with
  | .done => if s.producer then countAttempt K s.adapter pc.record.topic pc.retryCount m else m
  | _ => m

/-- The counters after a step. -/
def Users.count (u : Users) (l : Call) (m : Metrics) : Metrics :=
  match l with
  | .publish _ topic _ message => countPublish K u.inst topic message m
  | .resume t w =>
    match u.pending t with
    | some pc => countResume K u.inst pc w m
    | none => m
  | _ => m

/-- `_delivery_callback`, with the code of the error if there is one. -/
def deliveryCallback (topic : String) (err : Option String) (m : Metrics) : Metrics :=
  match err with
  | some code => { m with deliveryResults := (topic, "failure", code) :: m.deliveryResults }
  | none => { m with deliveryResults := (topic, "success", "none") :: m.deliveryResults }

/-- The calls with the counters, and the records whose callback has run. -/
structure Monitored where
  calls : Users × Ledger
  metrics : Metrics
  served : List Nat

def Monitored.init : Monitored := ⟨(Users.init, Ledger.empty), Metrics.empty, []⟩

inductive Happening where
  | call (l : Call)
  /-- the producer calls back for record `p` -/
  | delivered (p : Nat) (err : Option String)

/-- A step of the callers, or a callback; there is one for each record. -/
def monitor (x : Monitored) : Happening → Option Monitored
  | .call l =>
    (observe K x.calls l).map fun c =>
      { x with calls := c, metrics := x.calls.1.count K l x.metrics }
  | .delivered p err =>
    match x.calls.1.inst.adapter.records[p]? with
    | some r =>
      if p ∈ x.served then none
      else some { x with
        metrics := deliveryCallback r.topic err x.metrics
        served := p :: x.served }
    | none => none

/-- A call on the topic whose message can be serialised. -/
def Entry.attempted (topic : String) (e : Entry) : Bool :=
  e.topic == topic && (K.serialize e.message).isOk

/-- What the counters of a topic say. -/
structure Counted (x : Monitored) (topic : String) : Prop where
  attempts : x.metrics.attempts.count topic = x.calls.2.entries.countP (Entry.attempted K topic)
  enqueued : x.metrics.enqueued.count topic =
    x.calls.1.inst.adapter.records.countP fun r => r.topic == topic
  retries : x.metrics.retries.count topic = x.metrics.bufferFull.count topic
  enqueued_le : x.metrics.enqueued.count topic ≤ x.metrics.attempts.count topic
  tries_le : x.metrics.enqueued.count topic + x.metrics.bufferFull.count topic ≤
    maxRetries * x.metrics.attempts.count topic
  results_le : (x.metrics.deliveryResults.countP fun d => d.1 == topic) ≤
    x.metrics.enqueued.count topic

end

/-! ## Sums over the calls -/

theorem sum_map_modify {α : Type} (f : α → Nat) (g : α → α) : ∀ {es : List α} {i : Nat} {a : α},
    es[i]? = some a → ((es.modify i g).map f).sum + f a = (es.map f).sum + f (g a)
  | [], _, _, h => by cases h
  | b :: es, 0, a, h => by
    cases h
    simp only [List.modify_zero_cons, List.map_cons, List.sum_cons]
    omega
  | b :: es, i + 1, a, h => by
    have h' : es[i]? = some a := h
    have ih := sum_map_modify f g h'
    simp only [List.modify_succ_cons, List.map_cons, List.sum_cons]
    omega

theorem countP_modify {α : Type} {p : α → Bool} {g : α → α} (h : ∀ a, p (g a) = p a) :
    ∀ (es : List α) (i : Nat), (es.modify i g).countP p = es.countP p
  | [], i => by cases i <;> rfl
  | b :: es, 0 => by rw [List.modify_zero_cons, List.countP_cons, List.countP_cons, h]
  | b :: es, i + 1 => by
    rw [List.modify_succ_cons, List.countP_cons, List.countP_cons, countP_modify h es i]

theorem sum_le_countP {α : Type} {p : α → Bool} {f : α → Nat} {k : Nat} : ∀ {es : List α},
    (∀ a ∈ es, f a ≤ if p a then k else 0) → (es.map f).sum ≤ k * es.countP p
  | [], _ => Nat.zero_le _
  | b :: es, h => by
    have hb := h b List.mem_cons_self
    have ih := sum_le_countP fun a (ha : a ∈ es) => h a (List.mem_cons_of_mem b ha)
    rw [List.map_cons, List.sum_cons, List.countP_cons, Nat.mul_add]
    split at hb
    · rename_i hp
      rw [if_pos hp]
      omega
    · omega

theorem countP_range {α : Type} (q : α → Bool) : ∀ rs : List α,
    ((List.range rs.length).countP fun p => rs[p]?.any q) = rs.countP q
  | [] => rfl
  | r :: rs => by
    rw [List.length_cons, List.range_succ_eq_map, List.countP_cons, List.countP_map,
      List.countP_cons, ← countP_range q rs]
    rfl

/-- Some of the positions in a list, none twice, hold no more of a kind than the list. -/
theorem countP_positions_le {α : Type} (q : α → Bool) {rs : List α} {ps : List Nat} (hnd : ps.Nodup)
    (hlt : ∀ p ∈ ps, p < rs.length) : (ps.countP fun p => rs[p]?.any q) ≤ rs.countP q := by
  rw [← countP_range q rs]
  apply List.Subperm.countP_le
  apply List.subperm_of_subset hnd
  intro p hp
  exact List.mem_range.2 (hlt p hp)

/-! ## What a segment counts -/

/-- A segment of a call on `topic` has had `n` records accepted and met a full queue `b` times. -/
structure Counts (topic : String) (a a' : Adapter) (m m' : Metrics) (n b : Nat) : Prop where
  records : ∃ rs, a'.records = a.records ++ rs ∧ rs.length = n ∧ ∀ r ∈ rs, r.topic = topic
  produces : a.produces + (n + b) ≤ a'.produces
  one : n + b ≤ 1
  enqueued : m'.enqueued = List.replicate n topic ++ m.enqueued
  bufferFull : m'.bufferFull = List.replicate b topic ++ m.bufferFull
  retries : m'.retries = List.replicate b topic ++ m.retries
  results : m'.deliveryResults = m.deliveryResults

theorem counts_nothing (topic : String) {a a' : Adapter} {m m' : Metrics}
    (hr : a'.records = a.records) (hp : a.produces ≤ a'.produces) (hm : m'.enqueued = m.enqueued)
    (hb : m'.bufferFull = m.bufferFull) (ht : m'.retries = m.retries)
    (hd : m'.deliveryResults = m.deliveryResults) : Counts topic a a' m m' 0 0 :=
  ⟨⟨[], by rw [hr, List.append_nil], rfl, fun _ h => by cases h⟩, hp, Nat.zero_le 1, hm, hb, ht, hd⟩

theorem attempt_counts (a : Adapter) (r : Record) (k : Nat) (m : Metrics) :
    ∃ n b, Counts r.topic a (attempt K a r k).1 m (countAttempt K a r.topic k m) n b := by
  unfold attempt countAttempt
  split
  · cases hp : K.produce a.produces with
    | none =>
      refine ⟨1, 0, ?_⟩
      simp only [enqueued, poll]
      cases K.poll a.polls <;>
        exact ⟨⟨[r], rfl, rfl, by simp⟩, Nat.le_refl _, Nat.le_refl _, rfl, rfl, rfl, rfl⟩
    | some x =>
      cases x with
      | bufferError =>
        refine ⟨0, 1, ?_⟩
        simp only [bufferFull, poll]
        cases K.poll a.polls <;>
          exact ⟨⟨[], (List.append_nil _).symm, rfl, by simp⟩, Nat.le_refl _, Nat.le_refl _,
            rfl, rfl, rfl, rfl⟩
      | _ => exact ⟨0, 0, counts_nothing _ rfl (Nat.le_succ _) rfl rfl rfl rfl⟩
  · exact ⟨0, 0, counts_nothing _ rfl (Nat.le_refl _) rfl rfl rfl rfl⟩

theorem countAttempt_attempts (a : Adapter) (topic : String) (k : Nat) (m : Metrics) :
    (countAttempt K a topic k m).attempts = m.attempts := by
  unfold countAttempt
  split
  · split <;> rfl
  · rfl

/-- The first segment: the attempt is counted if the message can be serialised, and otherwise
nothing happens. -/
theorem publish_counts (s : Instance) (topic : String) (key : ByteArray) (message : ProtoMessage)
    (m : Metrics) : ∃ n b,
    Counts topic s.adapter (s.publish K topic key message).1.adapter m
      (countPublish K s topic message m) n b ∧
    (countPublish K s topic message m).attempts =
      (if (K.serialize message).isOk then [topic] else []) ++ m.attempts ∧
    ((K.serialize message).isOk = false →
      (s.publish K topic key message).1.adapter = s.adapter) := by
  unfold Instance.publish countPublish publish
  cases hv : K.serialize message with
  | error x =>
    refine ⟨0, 0, ?_, rfl, fun _ => ?_⟩
    · cases s.producer <;> exact counts_nothing _ rfl (Nat.le_refl _) rfl rfl rfl rfl
    · cases s.producer <;> rfl
  | ok value =>
    cases s.producer with
    | false =>
      exact ⟨0, 0, counts_nothing _ rfl (Nat.le_refl _) rfl rfl rfl rfl, rfl, fun h => by cases h⟩
    | true =>
      obtain ⟨n, b, h⟩ := attempt_counts (K := K) s.adapter ⟨topic, key, value⟩ 0
        { m with attempts := topic :: m.attempts }
      exact ⟨n, b, ⟨h.records, h.produces, h.one, h.enqueued, h.bufferFull, h.retries, h.results⟩,
        countAttempt_attempts (K := K) s.adapter topic 0 { m with attempts := topic :: m.attempts },
        fun h => by cases h⟩

/-- The later segments. -/
theorem resume_counts {s s' : Instance} {pc : PublishPc} {w : Wake Empty} {r : Next PublishPc}
    (h : s.resumePublish K pc w = some (s', r)) (m : Metrics) :
    ∃ n b, Counts pc.record.topic s.adapter s'.adapter m (countResume K s pc w m) n b ∧
      (countResume K s pc w m).attempts = m.attempts := by
  unfold Instance.resumePublish at h
  cases hp : s.producer with
  | false =>
    rw [hp] at h
    cases w <;> cases h
    · refine ⟨0, 0, ?_, by simp only [countResume, hp, Bool.false_eq_true, if_false]⟩
      simp only [countResume, hp, Bool.false_eq_true, if_false]
      exact counts_nothing _ rfl (Nat.le_refl _) rfl rfl rfl rfl
    · exact ⟨0, 0, counts_nothing _ rfl (Nat.le_refl _) rfl rfl rfl rfl, rfl⟩
  | true =>
    rw [hp, if_pos rfl] at h
    obtain ⟨x, hx, hxs⟩ := Option.map_eq_some_iff.1 h
    cases hxs
    cases w <;> cases hx
    · have hcount : countResume K s pc .done m =
          countAttempt K s.adapter pc.record.topic pc.retryCount m := by
        simp only [countResume, hp, if_true]
      rw [hcount]
      dsimp only
      rw [next_adapter]
      obtain ⟨n, b, hc⟩ := attempt_counts (K := K) s.adapter pc.record pc.retryCount m
      exact ⟨n, b, hc, countAttempt_attempts _ _ _ _⟩
    · exact ⟨0, 0, counts_nothing _ rfl (Nat.le_refl _) rfl rfl rfl rfl, rfl⟩

/-! ## The balance -/

def Entry.acceptedOn (topic : String) (e : Entry) : Nat :=
  if topic == e.topic then e.positions.length else 0

def Entry.triesOn (topic : String) (e : Entry) : Nat :=
  if topic == e.topic then e.produces else 0

/-- What holds of one call. -/
def Entry.Balanced (K : Producer) (e : Entry) : Prop :=
  e.positions.length ≤ 1 ∧ e.produces ≤ maxRetries ∧
    ((K.serialize e.message).isOk = false → e.positions = [] ∧ e.produces = 0)

variable (K) in
/-- The invariant of all runs. -/
structure Balanced (x : Monitored) : Prop where
  coherent : Coherent K x.calls
  attempts : ∀ topic, x.metrics.attempts.count topic =
    x.calls.2.entries.countP (Entry.attempted K topic)
  enqueued : ∀ topic, x.metrics.enqueued.count topic =
    x.calls.1.inst.adapter.records.countP fun r => r.topic == topic
  retries : x.metrics.retries = x.metrics.bufferFull
  accepted : ∀ topic, x.metrics.enqueued.count topic =
    (x.calls.2.entries.map (Entry.acceptedOn topic)).sum
  tries : ∀ topic, x.metrics.enqueued.count topic + x.metrics.bufferFull.count topic ≤
    (x.calls.2.entries.map (Entry.triesOn topic)).sum
  entry : ∀ e ∈ x.calls.2.entries, e.Balanced K
  nodup : x.served.Nodup
  below : ∀ p ∈ x.served, p < x.calls.1.inst.adapter.records.length
  results : ∀ topic, (x.metrics.deliveryResults.countP fun d => d.1 == topic) =
    x.served.countP fun p => x.calls.1.inst.adapter.records[p]?.any fun r => r.topic == topic

theorem balanced_init : Balanced K Monitored.init where
  coherent := coherent_init
  attempts _ := rfl
  enqueued _ := rfl
  retries := rfl
  accepted _ := rfl
  tries _ := Nat.le_refl 0
  entry _ h := by cases h
  nodup := List.nodup_nil
  below _ h := by cases h
  results _ := rfl

/-- What happens to the calls and the counters in a segment of a call on `topic`. -/
structure Books (K : Producer) (x x' : Monitored) (topic : String) (n b : Nat) : Prop where
  counts : Counts topic x.calls.1.inst.adapter x'.calls.1.inst.adapter x.metrics x'.metrics n b
  served : x'.served = x.served
  attempts : ∀ T, x'.metrics.attempts.count T + x.calls.2.entries.countP (Entry.attempted K T) =
    x.metrics.attempts.count T + x'.calls.2.entries.countP (Entry.attempted K T)
  accepted : ∀ T, (x'.calls.2.entries.map (Entry.acceptedOn T)).sum =
    (x.calls.2.entries.map (Entry.acceptedOn T)).sum + if topic == T then n else 0
  tries : ∀ T, ((x.calls.2.entries.map (Entry.triesOn T)).sum + if topic == T then n + b else 0) ≤
    (x'.calls.2.entries.map (Entry.triesOn T)).sum
  entry : ∀ e ∈ x'.calls.2.entries, e.Balanced K

theorem Balanced.books {x x' : Monitored} (topic : String) (n b : Nat) (hx : Balanced K x)
    (h : Books K x x' topic n b) (hc : Coherent K x'.calls) : Balanced K x' := by
  obtain ⟨rs, hrs, hlen, htopic⟩ := h.counts.records
  refine ⟨hc, fun T => ?_, fun T => ?_, ?_, fun T => ?_, fun T => ?_, h.entry, ?_, fun p hp => ?_,
    fun T => ?_⟩
  · have := h.attempts T
    have := hx.attempts T
    omega
  · rw [h.counts.enqueued, List.count_append, hx.enqueued, hrs, List.countP_append, Nat.add_comm]
    congr 1
    rw [List.count_replicate, ← hlen]
    by_cases hT : topic = T
    · subst hT
      rw [if_pos (beq_self_eq_true _), List.countP_eq_length.2 fun r hr => by simp [htopic r hr]]
    · have hnone : ∀ r ∈ rs, ¬(r.topic == T) = true := by
        intro r hr
        simpa [htopic r hr] using hT
      rw [if_neg (by simpa using hT), List.countP_eq_zero.2 hnone]
  · rw [h.counts.retries, h.counts.bufferFull, hx.retries]
  · rw [h.counts.enqueued, List.count_append, List.count_replicate, hx.accepted, h.accepted,
      Nat.add_comm]
  · rw [h.counts.enqueued, h.counts.bufferFull, List.count_append, List.count_append,
      List.count_replicate, List.count_replicate]
    have h₁ := h.tries T
    have h₂ := hx.tries T
    split at h₁ <;> rename_i hT <;> simp only [hT, if_true, Bool.false_eq_true, if_false] <;> omega
  · rw [h.served]
    exact hx.nodup
  · rw [h.served] at hp
    rw [hrs, List.length_append]
    exact Nat.lt_of_lt_of_le (hx.below p hp) (Nat.le_add_right _ _)
  · rw [h.counts.results, h.served, hx.results]
    apply List.countP_congr
    intro p hp
    rw [hrs, List.getElem?_append_left (hx.below p hp)]

theorem after_positions_length (e : Entry) (a a' : Adapter) (o : Option Outcome) :
    (e.after a a' o).positions.length =
      e.positions.length + (a'.records.length - a.records.length) := by
  simp [Entry.after]

theorem Counts.lengths {topic : String} {a a' : Adapter} {m m' : Metrics} {n b : Nat}
    (h : Counts topic a a' m m' n b) : a'.records.length = a.records.length + n := by
  obtain ⟨rs, hrs, hlen, -⟩ := h.records
  rw [hrs, List.length_append, hlen]

/-- A segment of call `e`, on the accounts of its topic. -/
theorem Counts.acceptedOn {a a' : Adapter} {m m' : Metrics} {n b : Nat} {e : Entry}
    (h : Counts e.topic a a' m m' n b) (o : Option Outcome) (T : String) :
    (e.after a a' o).acceptedOn T = e.acceptedOn T + if e.topic == T then n else 0 := by
  have hlen := after_positions_length e a a' o
  have hn := h.lengths
  have htopic : (e.after a a' o).topic = e.topic := rfl
  simp only [Entry.acceptedOn, htopic, beq_iff_eq, eq_comm (a := T)]
  split <;> omega

theorem Counts.triesOn {a a' : Adapter} {m m' : Metrics} {n b : Nat} {e : Entry}
    (h : Counts e.topic a a' m m' n b) (o : Option Outcome) (T : String) :
    e.triesOn T + (if e.topic == T then n + b else 0) ≤ (e.after a a' o).triesOn T := by
  have hp := h.produces
  have htopic : (e.after a a' o).topic = e.topic := rfl
  have hprod : (e.after a a' o).produces = e.produces + (a'.produces - a.produces) := rfl
  simp only [Entry.triesOn, htopic, beq_iff_eq, eq_comm (a := T)]
  split <;> omega

/-- The call that begins. -/
theorem Balanced.publish {x : Monitored} {c : Users × Ledger} {t : Nat} {topic : String}
    {key : ByteArray} {message : ProtoMessage} (hx : Balanced K x)
    (h : observe K x.calls (.publish t topic key message) = some c) :
    Balanced K { x with
      calls := c
      metrics := x.calls.1.count K (.publish t topic key message) x.metrics } := by
  have hc := hx.coherent.step h
  obtain ⟨u', hs, rfl⟩ := Option.map_eq_some_iff.1 h
  obtain rfl := step_publish hs
  obtain ⟨n, b, hcounts, hm, hno⟩ :=
    publish_counts (K := K) x.calls.1.inst topic key message x.metrics
  generalize hd : (Entry.begin t topic key message).after x.calls.1.inst.adapter
    (x.calls.1.inst.publish K topic key message).1.adapter
    (x.calls.1.ending K (.publish t topic key message)) = d
  have hentries : (x.calls.2.note (.publish t topic key message) x.calls.1.inst.adapter
      (x.calls.1.settle t (x.calls.1.inst.publish K topic key message).1
        (sleepOf (x.calls.1.inst.publish K topic key message).2)).inst.adapter
      (x.calls.1.ending K (.publish t topic key message))).entries = x.calls.2.entries ++ [d] := by
    rw [← hd]
    rfl
  have hsum : ∀ f : Entry → Nat, ((x.calls.2.entries ++ [d]).map f).sum =
      (x.calls.2.entries.map f).sum + f d := by
    intro f
    rw [List.map_append, List.sum_append, List.map_singleton, List.sum_singleton]
  apply hx.books topic n b _ hc
  refine ⟨hcounts, rfl, fun T => ?_, fun T => ?_, fun T => ?_, fun e he => ?_⟩
  · have hatt : d.attempted K T = (topic == T && (K.serialize message).isOk) := by
      rw [← hd]
      rfl
    rw [hentries, List.countP_append, List.countP_singleton, hatt,
      show (x.calls.1.count K (.publish t topic key message) x.metrics).attempts = _ from hm,
      List.count_append]
    cases (K.serialize message).isOk with
    | false => simp
    | true =>
      simp only [List.count_singleton, Bool.and_true, if_true]
      omega
  · rw [hentries, hsum, ← hd, (Counts.acceptedOn (e := .begin t topic key message) hcounts _ T)]
    simp [Entry.acceptedOn, Entry.begin]
  · have htries := Counts.triesOn (e := .begin t topic key message) hcounts
      (x.calls.1.ending K (.publish t topic key message)) T
    rw [hentries, hsum, ← hd]
    exact Nat.add_le_add_left (Nat.le_trans (Nat.le_add_left _ _) htries) _
  · rw [hentries] at he
    rcases List.mem_append.1 he with he | he
    · exact hx.entry e he
    · obtain rfl := List.mem_singleton.1 he
      refine ⟨?_, ?_, fun hser => ?_⟩
      · rw [← hd, after_positions_length, hcounts.lengths]
        have hone := hcounts.one
        simp only [Entry.begin, List.length_nil]
        omega
      · have hmem : (x.calls.2.entries ++ [e])[x.calls.2.entries.length]? = some e :=
          List.getElem?_concat_length
        rw [← hentries] at hmem
        exact (hc.sound _ e hmem).bound
      · rw [← hd] at hser
        have ha := hno hser
        rw [← hd]
        exact ⟨after_positions rfl (congrArg Adapter.records ha), by
          show 0 + (_ - _) = 0
          rw [ha]
          omega⟩

/-- A call that goes on. -/
theorem Balanced.resume {x : Monitored} {c : Users × Ledger} {t : Nat} {w : Wake Empty}
    (hx : Balanced K x) (h : observe K x.calls (.resume t w) = some c) :
    Balanced K { x with
      calls := c
      metrics := x.calls.1.count K (.resume t w) x.metrics } := by
  have hc := hx.coherent.step h
  obtain ⟨u', hs, rfl⟩ := Option.map_eq_some_iff.1 h
  obtain ⟨pc, s, r, hp, hr, rfl⟩ := step_resume hs
  obtain ⟨i, e, hi, he, hsl⟩ := hx.coherent.sleeping t pc hp
  obtain ⟨n, b, hcounts, hm⟩ := resume_counts hr x.metrics
  generalize ho : x.calls.1.ending K (.resume t w) = o
  rw [ho] at hc
  have hentries : (x.calls.2.note (.resume t w) x.calls.1.inst.adapter
      (x.calls.1.settle t s (sleepOfNext r)).inst.adapter o).entries =
      x.calls.2.entries.modify i fun e => e.after x.calls.1.inst.adapter s.adapter o := by
    simp only [Ledger.note, hi, Users.settle]
  have hmetrics : x.calls.1.count K (.resume t w) x.metrics =
      countResume K x.calls.1.inst pc w x.metrics := by
    simp only [Users.count, hp]
  rw [hsl.topic] at hcounts
  apply hx.books e.topic n b _ hc
  refine ⟨?_, rfl, fun T => ?_, fun T => ?_, fun T => ?_, fun d hd => ?_⟩
  · dsimp only
    rw [hmetrics]
    exact hcounts
  · have hcount : _ = x.calls.2.entries.countP (Entry.attempted K T) :=
      (congrArg (List.countP (Entry.attempted K T)) hentries).trans
        (countP_modify (p := Entry.attempted K T)
          (g := fun e => e.after x.calls.1.inst.adapter s.adapter o) (fun _ => rfl) _ _)
    dsimp only at hcount ⊢
    rw [hmetrics, hm, hcount]
  · have hsum := sum_map_modify (Entry.acceptedOn T)
      (fun e => e.after x.calls.1.inst.adapter s.adapter o) he
    have hacc := hcounts.acceptedOn o T
    rw [← hentries] at hsum
    dsimp only at hsum hacc ⊢
    omega
  · have hsum := sum_map_modify (Entry.triesOn T)
      (fun e => e.after x.calls.1.inst.adapter s.adapter o) he
    have htries := hcounts.triesOn o T
    rw [← hentries] at hsum
    dsimp only at hsum htries ⊢
    omega
  · obtain ⟨j, hj⟩ := List.mem_iff_getElem?.1 hd
    have hbound := (hc.sound j d hj).bound
    dsimp only at hj
    rw [hentries, List.getElem?_modify] at hj
    obtain ⟨d₀, hd₀, hdd⟩ := Option.map_eq_some_iff.1 hj
    by_cases hij : i = j
    · subst hij
      cases he.symm.trans hd₀
      rw [if_pos rfl] at hdd
      subst hdd
      refine ⟨?_, hbound, fun hser => ?_⟩
      · have hone := hcounts.one
        rw [after_positions_length, hcounts.lengths, hsl.positions, List.length_nil]
        omega
      · rw [show (e.after _ _ _).message = e.message from rfl, hsl.value] at hser
        cases hser
    · rw [if_neg hij] at hdd
      subst hdd
      exact hx.entry _ (List.mem_of_getElem? hd₀)

/-- A step that hands nothing over. -/
theorem Balanced.quiet {x : Monitored} {c : Users × Ledger} (hx : Balanced K x)
    (hc : Coherent K c) (hg : c.2 = x.calls.2)
    (hr : c.1.inst.adapter.records = x.calls.1.inst.adapter.records) :
    Balanced K { x with calls := c } where
  coherent := hc
  attempts T := by
    dsimp only
    rw [hg]
    exact hx.attempts T
  enqueued T := by
    dsimp only
    rw [hr]
    exact hx.enqueued T
  retries := hx.retries
  accepted T := by
    dsimp only
    rw [hg]
    exact hx.accepted T
  tries T := by
    dsimp only
    rw [hg]
    exact hx.tries T
  entry e he := hx.entry e (hg ▸ he)
  nodup := hx.nodup
  below p hp := by
    dsimp only
    rw [hr]
    exact hx.below p hp
  results T := by
    dsimp only
    rw [hr]
    exact hx.results T

/-- A callback. -/
theorem Balanced.delivered {x : Monitored} {p : Nat} {r : Record} (hx : Balanced K x)
    (hr : x.calls.1.inst.adapter.records[p]? = some r) (hp : p ∉ x.served) (err : Option String) :
    Balanced K { x with
      metrics := deliveryCallback r.topic err x.metrics
      served := p :: x.served } := by
  obtain ⟨hlt, -⟩ := List.getElem?_eq_some_iff.1 hr
  -- whatever the error, one more result of the topic
  have hone : ∀ T,
      (deliveryCallback r.topic err x.metrics).deliveryResults.countP (fun d => d.1 == T) =
        (x.metrics.deliveryResults.countP fun d => d.1 == T) + if r.topic == T then 1 else 0 := by
    intro T
    cases err <;> exact List.countP_cons
  have hcounters : ∀ {α : Type} (f : Metrics → α),
      (∀ m d, f { m with deliveryResults := d } = f m) →
        f (deliveryCallback r.topic err x.metrics) = f x.metrics := by
    intro α f hf
    cases err <;> exact hf _ _
  refine ⟨hx.coherent, fun T => ?_, fun T => ?_, ?_, fun T => ?_, fun T => ?_, hx.entry,
    List.nodup_cons.2 ⟨hp, hx.nodup⟩, fun q hq => ?_, fun T => ?_⟩
  · rw [hcounters Metrics.attempts fun _ _ => rfl]
    exact hx.attempts T
  · rw [hcounters Metrics.enqueued fun _ _ => rfl]
    exact hx.enqueued T
  · rw [hcounters Metrics.retries fun _ _ => rfl, hcounters Metrics.bufferFull fun _ _ => rfl]
    exact hx.retries
  · rw [hcounters Metrics.enqueued fun _ _ => rfl]
    exact hx.accepted T
  · rw [hcounters Metrics.enqueued fun _ _ => rfl, hcounters Metrics.bufferFull fun _ _ => rfl]
    exact hx.tries T
  · rcases List.mem_cons.1 hq with rfl | hq
    · exact hlt
    · exact hx.below q hq
  · rw [hone T, hx.results, List.countP_cons, hr, Option.any_some]

theorem Balanced.step {x x' : Monitored} {l : Happening} (hx : Balanced K x)
    (h : monitor K x l = some x') : Balanced K x' := by
  cases l with
  | call l =>
    obtain ⟨c, hc, rfl⟩ := Option.map_eq_some_iff.1 h
    cases l with
    | publish t topic key message => exact hx.publish hc
    | resume t w => exact hx.resume hc
    | flush =>
      have hcoh := hx.coherent.step hc
      cases hc
      exact hx.quiet hcoh rfl (flush_records _)
    | close =>
      have hcoh := hx.coherent.step hc
      cases hc
      exact hx.quiet hcoh rfl (close_records _)
  | delivered p err =>
    simp only [monitor] at h
    split at h
    · rename_i r hr
      split at h
      · cases h
      · rename_i hp
        cases h
        exact hx.delivered hr hp err
    · cases h

/-- Only a call that was attempted adds to an account of its topic. -/
theorem account_le {topic : String} {e : Entry} {n k : Nat} (hk : n ≤ k)
    (hno : (K.serialize e.message).isOk = false → n = 0) :
    (if topic == e.topic then n else 0) ≤ if e.attempted K topic then k else 0 := by
  unfold Entry.attempted
  by_cases ht : topic = e.topic
  · subst ht
    cases hok : (K.serialize e.message).isOk with
    | true => simpa using hk
    | false => simp [hno hok]
  · simp [ht]

/-- **From the balance to the counters.** -/
theorem Balanced.counted {x : Monitored} (hx : Balanced K x) (topic : String) :
    Counted K x topic := by
  have hle : x.metrics.enqueued.count topic ≤ 1 * x.metrics.attempts.count topic := by
    rw [hx.accepted, hx.attempts]
    apply sum_le_countP
    intro e he
    obtain ⟨h₁, -, h₃⟩ := hx.entry e he
    exact account_le h₁ fun hno => by rw [(h₃ hno).1, List.length_nil]
  have htries : x.metrics.enqueued.count topic + x.metrics.bufferFull.count topic ≤
      maxRetries * x.metrics.attempts.count topic := by
    refine Nat.le_trans (hx.tries topic) ?_
    rw [hx.attempts]
    apply sum_le_countP
    intro e he
    obtain ⟨-, h₂, h₃⟩ := hx.entry e he
    exact account_le h₂ fun hno => (h₃ hno).2
  refine ⟨hx.attempts topic, hx.enqueued topic, by rw [hx.retries], by omega, htries, ?_⟩
  rw [hx.results, hx.enqueued]
  exact countP_positions_le _ hx.nodup hx.below

/-- **What the counters say.**  In every run of any number of callers, whatever the producer and the
serialization do, and whenever the delivery callbacks run: for every topic, the enqueued messages
are the records of the topic, the attempts are the calls whose message was serialised, every full
queue is one retry; an attempt enqueues one record at most and meets a full queue at most ten times;
and no more deliveries are reported than messages were enqueued. -/
theorem counted_of_run {ls : List Happening} {x : Monitored}
    (h : run (monitor K) Monitored.init ls = some x) (topic : String) : Counted K x topic :=
  have hbalanced : Balanced K x :=
    run_invariant (P := fun x => Balanced K x) (fun _ _ _ hx hs => hx.step hs) balanced_init h
  hbalanced.counted topic

/-- One caller meets a full queue, another closes the adapter once its record is
delivered. -/
def fullThenClosed : List Happening :=
  [.call (.publish 0 "t" ByteArray.empty emptyBook), .call (.resume 0 .done), .delivered 0 none,
    .call .close, .call (.publish 1 "t" ByteArray.empty emptyBook)]

/-- `counted_of_run` at that run: two attempts, of which one came after the closing. -/
theorem counted_of_run_fullThenClosed : ∃ x,
    run (monitor fullOnce) Monitored.init fullThenClosed = some x ∧
      x.metrics.attempts.count "t" = 2 ∧ x.metrics.enqueued.count "t" = 1 ∧
      x.metrics.bufferFull.count "t" = 1 ∧ Counted fullOnce x "t" :=
  ⟨_, rfl, by decide, by decide, by decide,
    counted_of_run (show run _ _ fullThenClosed = _ from rfl) "t"⟩

end FlinkPractices.Kafka
