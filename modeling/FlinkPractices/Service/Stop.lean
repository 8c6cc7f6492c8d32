import Mathlib.Data.List.TakeWhile
import FlinkPractices.Service.Routes

/-!
# What `stop()` leaves undone

A `stop()` that finds the service running waits for the consumption loop, flushes the publisher
and disconnects the connector.  `trace n b` is what the history says of the `n`-th of them after
the last `publish()` of the loop `b` it waits for; `CleansUp` says that, when it has ended, this
is one flush and then one disconnection.

`escapes` is a step in which an exception comes out of the wait for the loop or out of the flush:
the rest of the clean-up is skipped.

Principal results:

* `segment_stopping` — a segment of a `stop()` goes on with the clean-up (`Goes`), or ends it where
  something escapes (`Breaks`)
* `call_begins`, `segment_outside` — what the other segments add to the history: a `stop()` begins,
  or a consumption loop publishes

## Proof

* `Pc.stage` — the `stop()` a suspended call is in, and how many steps of its clean-up have begun
* `Stopping` — the assertion at the places of a `stop()`, which knows from the first whether an
  exception is going to escape; kept along the arcs (`Stopping.arc`)
* `Outside` — the same for a task that is in none (`Outside.arc`)

The runs are the business of `Service.Ledger`.
-/

set_option autoImplicit false

namespace FlinkPractices.Service

open Lib
open Connector (TaskId)

variable {U : UpperTable} {P : ConnectorPort U} {Q : PublisherPort}

/-! ## The history of one `stop()` -/

/-- The events of the `n`-th `stop()` and of the consumption loop `b`. -/
def Event.concerns (n : Nat) (b : Option TaskId) : Event → Bool
  | .publish c => b == some c
  | .stopping _ _ => false
  | .flush m => m == n
  | .disconnect m => m == n
  | .stopped m => m == n

def Event.isPublish : Event → Bool
  | .publish _ => true
  | _ => false

/-- The `stop()` an event belongs to. -/
def Event.number : Event → Option Nat
  | .publish _ => none
  | .stopping n _ => some n
  | .flush n => some n
  | .disconnect n => some n
  | .stopped n => some n

/-- What the `n`-th `stop()` has done since the last `publish()` of the loop `b`. -/
def trace (n : Nat) (b : Option TaskId) (h : List Event) : List Event :=
  (h.filter (Event.concerns n b)).dropWhile Event.isPublish

/-- What it has to do. -/
def cleanup (n : Nat) : List Event := [.flush n, .disconnect n, .stopped n]

/-- Every `stop()` that has ended has flushed once, after the last `publish()` of its loop, and
then disconnected once. -/
def Sys.CleansUp (s : Sys P Q) : Prop :=
  ∀ n b, .stopping n b ∈ s.service.history → .stopped n ∈ s.service.history →
    trace n b s.service.history = cleanup n

theorem trace_append {n : Nat} {b : Option TaskId} (h : List Event) {es : List Event}
    (hes : ∀ e ∈ es, e.isPublish = false) :
    trace n b (h ++ es) = trace n b h ++ es.filter (Event.concerns n b) := by
  unfold trace
  rw [List.filter_append, List.dropWhile_append]
  split
  · rename_i hd
    rw [List.isEmpty_iff.1 hd, List.nil_append]
    cases hf : es.filter (Event.concerns n b) with
    | nil => rfl
    | cons e fs =>
      have he : e ∈ es := (List.mem_filter.1 (hf ▸ List.mem_cons_self)).1
      rw [List.dropWhile_cons, hes e he]; rfl
  · rfl

theorem trace_append_of_number {n : Nat} {b : Option TaskId} (h : List Event) {es : List Event}
    (hes : ∀ e ∈ es, ∃ m, e.number = some m ∧ m ≠ n) : trace n b (h ++ es) = trace n b h := by
  rw [trace_append, List.filter_eq_nil_iff.2, List.append_nil]
  · intro e he
    obtain ⟨m, hm, hn⟩ := hes e he
    cases e <;> simp_all [Event.number, Event.concerns]
  · intro e he
    obtain ⟨m, hm, -⟩ := hes e he
    cases e <;> simp_all [Event.number, Event.isPublish]

/-- Further messages of its loop. -/
theorem trace_append_publish {n k : Nat} {b : Option TaskId} {c : TaskId} {h : List Event}
    (hc : b = some c → trace n b h = []) :
    trace n b (h ++ List.replicate k (.publish c)) = trace n b h := by
  unfold trace at hc ⊢
  rw [List.filter_append]
  by_cases hb : b = some c
  · have hp : ∀ e ∈ (List.replicate k (Event.publish c)).filter (Event.concerns n b),
        e.isPublish = true := by
      intro e he
      rw [List.eq_of_mem_replicate (List.mem_filter.1 he).1]; rfl
    rw [List.dropWhile_append, hc hb, List.dropWhile_eq_nil_iff.2 hp]; rfl
  · have : (List.replicate k (Event.publish c)).filter (Event.concerns n b) = [] := by
      simp [Event.concerns, hb]
    rw [this, List.append_nil]

/-- Nothing of a `stop()` that has not begun. -/
theorem trace_eq_nil {n : Nat} {b : Option TaskId} {h : List Event}
    (hn : ∀ e ∈ h, e.number ≠ some n) : trace n b h = [] := by
  unfold trace
  rw [List.dropWhile_eq_nil_iff]
  intro e he
  have hm := List.mem_filter.1 he
  have := hn e hm.1
  cases e <;> simp_all [Event.number, Event.concerns, Event.isPublish]

/-! ## The stages of `stop()` -/

/-- The `stop()` a suspended call is in, and how many steps of its clean-up it has begun. -/
def Pc.stage : Pc P Q → Option (Nat × Nat)
  | .waiting _ n _ => some (n, 0)
  | .timedOut _ n _ => some (n, 0)
  | .aborting _ n _ => some (n, 0)
  | .awaiting _ n _ => some (n, 0)
  | .flushing _ n _ => some (n, 1)
  | .disconnecting _ n _ => some (n, 2)
  | _ => none

/-- The consumption loop that `wait_for` still waits for. -/
def Pc.waitsFor : Pc P Q → Option TaskId
  | .waiting _ _ b => some b
  | .timedOut _ _ b => some b
  | .aborting _ _ b => some b
  | _ => none

/-- The segment leaves its task in the `n`-th `stop()`, `j` steps of the clean-up begun, or has
ended it. -/
def Act.At (n j : Nat) (a : Act P Q) : Prop :=
  a.pc = none ∧ j = 3 ∨ ∃ pc, a.pc = some pc ∧ pc.stage = some (n, j)

def Act.waitsFor (a : Act P Q) : Option TaskId := a.pc.bind Pc.waitsFor

/-- The loop is done, if there is one. -/
def LoopDone (outcome : TaskId → Option Outcome) (b : Option TaskId) : Prop :=
  ∀ c, b = some c → (outcome c).isSome

theorem LoopDone.none (outcome : TaskId → Option Outcome) : LoopDone outcome none := nofun

theorem LoopDone.some {outcome : TaskId → Option Outcome} {b : TaskId} {r : Outcome}
    (h : outcome b = some r) : LoopDone outcome (some b) := by
  intro c hc; cases hc; rw [h]; rfl

/-- A segment, from `m` stops and the history `h` on, that goes on with the clean-up of the `n`-th
`stop()`, of which `i` steps have begun, and waits no longer for the loop `w` unless it is done. -/
structure Goes (outcome : TaskId → Option Outcome) (w : Option TaskId) (n i m : Nat)
    (h : List Event) (r : IngestionService P Q × Act P Q) : Prop where
  stops : r.1.stops = m
  history : ∃ j, i ≤ j ∧ j ≤ 3 ∧ r.1.history = h ++ ((cleanup n).take j).drop i ∧ r.2.At n j
  waits : r.2.waitsFor = w ∨ r.2.waitsFor = none ∧ LoopDone outcome w

/-- A segment that ends the `n`-th `stop()` at once. -/
structure Breaks (n : Nat) (s : IngestionService P Q) (r : IngestionService P Q × Act P Q) :
    Prop where
  stops : r.1.stops = s.stops
  history : r.1.history = s.history ++ [.stopped n]
  ends : r.2.pc = none

variable {outcome : TaskId → Option Outcome}

/-! ## Where exceptions escape -/

/-- The `await` after a timeout raises: the background task, by now perhaps another one, has
ended with an exception. -/
def awaitEscapes (outcome : TaskId → Option Outcome) (s : IngestionService P Q) : Bool :=
  match s.backgroundTask with
  | some b =>
    match outcome b with
    | some o => o.isRaised
    | none => false
  | none => true

/-- `wait_for` raises something else than `TimeoutError`, or the `await` after it raises. -/
def waitEscapes (outcome : TaskId → Option Outcome) (s : IngestionService P Q) : Outcome → Bool
  | .returned => false
  | .raised e => e ≠ .timeoutError || awaitEscapes outcome s
  | .cancelled => true

/-- The same for a task that `wait_for` has cancelled. -/
def lateEscapes (outcome : TaskId → Option Outcome) (s : IngestionService P Q) : Outcome → Bool
  | .returned => false
  | .raised e => e ≠ .timeoutError || awaitEscapes outcome s
  | .cancelled => awaitEscapes outcome s

/-- The resumed `stop()` is left by an exception before it has disconnected: the loop it waits
for has failed or was cancelled by someone else, or the `stop()` itself is cancelled. -/
def escapes (outcome : TaskId → Option Outcome) (s : IngestionService P Q) :
    Pc P Q → Resume P → Bool
  | .waiting _ _ b, .wake _ => (outcome b).any (waitEscapes outcome s)
  | .timedOut _ _ b, .wake .done => (outcome b).any (lateEscapes outcome s)
  | .timedOut _ _ _, .wake _ => true
  | .aborting _ _ _, .wake _ => true
  | .awaiting _ _ b, .wake .done => (outcome b).any Outcome.isRaised
  | .flushing _ _ pc, .wake w =>
    (w.plain.bind (Q.resumeFlush s.publisher pc)).any fun r =>
      (r.2 matches .finish .cancelled)
  | _, _ => false

/-- The step resumes a `stop()` that is left by an exception. -/
def Sys.Escapes (s : Sys P Q) : Label P → Prop
  | .resume t w => ∃ pc, (s.tasks t).call = some pc ∧ escapes s.outcome s.service pc w = true
  | _ => False

/-! ## What the segments do -/

/-- What a segment of a `stop()` does, by whether an exception escapes in it. -/
def Continues (outcome : TaskId → Option Outcome) (w : Option TaskId) (n i : Nat)
    (s : IngestionService P Q) (escape : Bool) (r : IngestionService P Q × Act P Q) : Prop :=
  match escape with
  | true => i < 2 ∧ Breaks n s r
  | false => Goes outcome w n i s.stops s.history r

/-- Where a task stands in a `stop()`. -/
def Node.stage : Node P Q → Option (Nat × Nat)
  | .resumed pc _ => pc.stage
  | .waited _ n _ _ => some (n, 0)
  | .timeout _ n => some (n, 0)
  | .awaited _ n _ => some (n, 0)
  | .flush _ n => some (n, 0)
  | .flushed _ n _ => some (n, 1)
  | .disconnect _ n => some (n, 1)
  | .disconnected _ n _ => some (n, 2)
  | .stopEnd _ n _ => some (n, 2)
  | .suspended pc => pc.stage
  | .cancels pc _ => pc.stage
  | _ => none

def Node.waitsFor : Node P Q → Option TaskId
  | .resumed pc _ => pc.waitsFor
  | .suspended pc => pc.waitsFor
  | .cancels pc _ => pc.waitsFor
  | _ => none

/-- From here on an exception escapes. -/
def Node.escapes (outcome : TaskId → Option Outcome) (s : IngestionService P Q) : Node P Q → Bool
  | .resumed pc w => Service.escapes outcome s pc w
  | .waited _ _ false o => waitEscapes outcome s o
  | .waited _ _ true o => lateEscapes outcome s o
  | .timeout _ _ => awaitEscapes outcome s
  | .awaited _ _ o => o.isRaised
  | .flushed _ _ (.finish .cancelled) => true
  | _ => false

/-- On the way through the `n`-th `stop()`, of which `i` steps had begun, from `m` stops and the
history `h` on; an exception escapes if `e`, and then no step is begun. -/
inductive Stopping (outcome : TaskId → Option Outcome) (w : Option TaskId) (n i m : Nat)
    (h : List Event) (e : Bool) : Node P Q → IngestionService P Q → Prop
  | goes {p v} (j : Nat) : i ≤ j → p.stage = some (n, j) → v.stops = m →
      v.history = h ++ ((cleanup n).take j).drop i → p.escapes outcome v = e → (e = true → j = i) →
      (p.waitsFor = w ∨ p.waitsFor = none ∧ LoopDone outcome w) →
      Stopping outcome w n i m h e p v
  | breaks {k o v} : e = true → i < 2 → v.stops = m → v.history = h →
      Stopping outcome w n i m h e (.stopEnd k n o) v
  | broken {o v} : e = true → i < 2 → v.stops = m → v.history = h ++ [.stopped n] →
      Stopping outcome w n i m h e (.finished o) v
  | ended {o v} : e = false → i ≤ 3 → v.stops = m → v.history = h ++ ((cleanup n).take 3).drop i →
      none = w ∨ LoopDone outcome w → Stopping outcome w n i m h e (.finished o) v

/-- The next step of the clean-up. -/
theorem cleanup_succ {n i j : Nat} {e : Event} (he : (cleanup n)[j]? = some e) (hij : i ≤ j) :
    ((cleanup n).take (j + 1)).drop i = ((cleanup n).take j).drop i ++ [e] := by
  obtain ⟨hj, -⟩ := List.getElem?_eq_some_iff.1 he
  rw [List.take_add_one, he, Option.toList_some, List.drop_append_of_le_length]
  rw [List.length_take]
  omega

section

variable {w : Option TaskId} {n i m : Nat} {h : List Event} {e : Bool} {t : TaskId}
  {p p' : Node P Q} {v v' : IngestionService P Q}

theorem Stopping.arc (hx : Stopping outcome w n i m h e p v) (ha : Arc outcome t p v p' v') :
    Stopping outcome w n i m h e p' v' := by
  cases hx with
  | breaks he hi hm hh =>
    cases ha
    exact .broken he hi hm (congrArg (· ++ [_]) hh)
  | broken | ended => cases ha
  | goes j hij hs hm hh he hj hw =>
    -- nothing has been done when an exception escapes
    have breaks : ∀ {k o}, e = true → j < 2 → Stopping outcome w n i m h e (.stopEnd k n o) v := by
      intro k o ht hlt
      refine .breaks ht (Nat.lt_of_le_of_lt hij hlt) hm (hh.trans ?_)
      rw [hj ht, List.drop_take_self, List.append_nil]
    have done : ∀ {b o}, some b = w ∨ some b = none ∧ LoopDone outcome w → outcome b = some o →
        none = w ∨ (none : Option TaskId) = none ∧ LoopDone outcome w := by
      rintro b o (rfl | ⟨hb, -⟩) ho
      · exact .inr ⟨rfl, .some ho⟩
      · cases hb
    cases ha with
    | waitDone hwk ho =>
      refine .goes j hij hs hm hh ?_ hj (done hw ho)
      rw [← he]
      simp [Node.escapes, escapes, ho]
    | waitTimeout ho => exact .goes j hij hs hm hh he hj hw
    | waitCancelled ho =>
      refine .goes j hij hs hm hh ?_ hj hw
      rw [← he]
      simp [Node.escapes, escapes, ho]
    | lateDone ho =>
      refine .goes j hij hs hm hh ?_ hj (done hw ho)
      rw [← he]
      simp [Node.escapes, escapes, ho]
    | lateCancelled | abortDone | abortCancelled | waitedCancelled | awaitedRaised =>
      cases hs
      exact breaks he.symm (by decide)
    | @waitedReturned _ _ late => exact .goes j hij hs hm hh (by cases late <;> exact he) hj hw
    | @waitedTimeout _ _ late =>
      refine .goes j hij hs hm hh ?_ hj hw
      rw [← he]
      cases late <;> simp [Node.escapes, waitEscapes, lateEscapes]
    | @waitedRaised _ _ late _ _ hne =>
      cases hs
      refine breaks ?_ (by decide)
      rw [← he]
      cases late <;> simp [Node.escapes, waitEscapes, lateEscapes, hne]
    | waitedLate => exact .goes j hij hs hm hh he hj hw
    | timeoutDone hb ho =>
      refine .goes j hij hs hm hh ?_ hj hw
      rw [← he]
      simp [Node.escapes, awaitEscapes, hb, ho]
    | timeoutCancels hb ho =>
      refine .goes j hij hs hm hh ?_ hj hw
      rw [← he]
      simp [Node.escapes, awaitEscapes, hb, ho]
    | timeoutNone hb =>
      cases hs
      refine breaks ?_ (by decide)
      rw [← he]
      simp [Node.escapes, awaitEscapes, hb]
    | awaitDone ho =>
      refine .goes j hij hs hm hh ?_ hj hw
      rw [← he]
      simp [Node.escapes, escapes, ho]
    | awaitCancelled => exact .goes j hij hs hm hh he hj hw
    | awaitedOver hr => exact .goes j hij hs hm hh (hr.symm.trans he) hj hw
    | @flushFirst _ _ _ _ a _ =>
      cases hs
      refine .goes 1 (Nat.le_succ_of_le hij) rfl hm ?_ ?_ (fun ht => ?_) hw
      · rw [cleanup_succ (e := .flush n) rfl hij, ← List.append_assoc, ← hh]
        rfl
      · cases a <;> exact he
      · rw [← he] at ht
        cases ht
    | @flushLater _ _ _ _ _ _ x hq =>
      refine .goes j hij hs hm hh ?_ hj hw
      rw [← he]
      simp only [Node.escapes, escapes, hq, Option.any_some]
      rcases x with _ | (_ | _ | _) <;> rfl
    | flushSuspend => exact .goes j hij hs hm hh he hj hw
    | @flushOver _ _ _ r hne =>
      refine .goes j hij hs hm hh ?_ hj hw
      rw [← he]
      cases r with
      | cancelled => exact absurd rfl hne
      | returned | raised => rfl
    | flushCancelled =>
      cases hs
      exact breaks he.symm (by decide)
    | disconnectFirst _ =>
      cases hs
      refine .goes 2 (Nat.le_succ_of_le hij) rfl hm ?_ he (fun ht => ?_) hw
      · rw [cleanup_succ (e := .disconnect n) rfl hij, ← List.append_assoc, ← hh]
        rfl
      · rw [← he] at ht
        cases ht
    | disconnectLater | disconnectSuspend | disconnectOver | disconnectCancelled =>
      exact .goes j hij hs hm hh he hj hw
    | stopEnd =>
      cases hs
      refine .ended he.symm (Nat.le_succ_of_le hij) hm ?_ (hw.imp_right And.right)
      rw [cleanup_succ (e := .stopped n) rfl hij, ← List.append_assoc, ← hh]
      rfl
    | _ => cases hs

/-- The end of a segment of a `stop()`. -/
theorem Stopping.continues {r : IngestionService P Q × Act P Q}
    (hx : Stopping outcome w n i m h e r.2.node r.1) :
    (e = true → i < 2 ∧ r.1.stops = m ∧ r.1.history = h ++ [.stopped n] ∧ r.2.pc = none) ∧
      (e = false → Goes outcome w n i m h r) := by
  obtain ⟨v, a⟩ := r
  cases a with
  | suspend pc | cancelling pc =>
    cases hx with
    | goes j hij hs hm hh he _ hw =>
      cases he
      have hj : j ≤ 3 := by
        simp only [Act.node, Node.stage] at hs
        cases pc <;> cases hs <;> decide
      exact ⟨nofun, fun _ => ⟨hm, ⟨j, hij, hj, hh, .inr ⟨pc, rfl, hs⟩⟩, hw⟩⟩
  | finish o =>
    cases hx with
    | goes j _ hs => cases hs
    | broken he hi hm hh =>
      subst he
      exact ⟨fun _ => ⟨hi, hm, hh, rfl⟩, nofun⟩
    | ended he hi hm hh hw =>
      subst he
      refine ⟨nofun, fun _ => ⟨hm, ⟨3, hi, Nat.le_refl 3, hh, .inl ⟨rfl, rfl⟩⟩, ?_⟩⟩
      exact hw.imp_right fun hd => ⟨rfl, hd⟩

/-- **A later segment of a `stop()`.** -/
theorem segment_stopping {s : IngestionService P Q} {pc : Pc P Q} {wake : Resume P}
    {r : IngestionService P Q × Act P Q} (hp : pc.stage = some (n, i))
    (hr : advance outcome s t pc wake = some r) :
    Continues outcome pc.waitsFor n i s (escapes outcome s pc wake) r := by
  have hstart : Stopping outcome pc.waitsFor n i s.stops s.history (escapes outcome s pc wake)
      (.resumed pc wake) s := by
    refine .goes i (Nat.le_refl i) hp rfl ?_ rfl (fun _ => rfl) (.inl rfl)
    rw [List.drop_take_self, List.append_nil]
  have hend := ((advance_leads hr).keeps (fun ha hx => Stopping.arc hx ha) hstart).continues
  unfold Continues
  split <;> rename_i he
  · obtain ⟨hi, hm, hh, hpc⟩ := hend.1 he
    exact ⟨hi, hm, hh, hpc⟩
  · exact hend.2 he

end

/-! ## Outside `stop()` -/

/-- A segment of a task that is in no `stop()` and stays so: a consumption loop may publish. -/
structure Loops (t : TaskId) (m : Nat) (h : List Event)
    (r : IngestionService P Q × Act P Q) : Prop where
  stops : r.1.stops = m
  history : ∃ k, r.1.history = h ++ List.replicate k (.publish t)
  outside : ∀ pc, r.2.pc = some pc → pc.stage = none

/-- A segment that begins a `stop()`. -/
def Begins (outcome : TaskId → Option Outcome) (m : Nat) (h : List Event)
    (r : IngestionService P Q × Act P Q) : Prop :=
  ∃ b, Goes outcome b m 0 (m + 1) (h ++ [.stopping m b]) r

/-- On the way of a task that was in no `stop()`. -/
inductive Outside (outcome : TaskId → Option Outcome) (t : TaskId) (m : Nat) (h : List Event) :
    Node P Q → IngestionService P Q → Prop
  | quiet {p v} : p.stage = none → v.stops = m → v.history = h → Outside outcome t m h p v
  | loops {p v} (k : Nat) : (p.inLoop = true ∨ ∃ o, p = .finished o) → v.stops = m →
      v.history = h ++ List.replicate k (.publish t) → Outside outcome t m h p v
  | begun {p v} (b : Option TaskId) :
      Stopping outcome b m 0 (m + 1) (h ++ [.stopping m b]) false p v → Outside outcome t m h p v

section

variable {t : TaskId} {m : Nat} {h : List Event} {p p' : Node P Q} {v v' : IngestionService P Q}

/-- The body of the loop adds at most one `publish()`. -/
theorem Outside.turned {k : Nat} (hin : p'.inLoop = true ∨ ∃ o, p' = .finished o)
    (hm : v.stops = m) (hh : v.history = h ++ List.replicate k (.publish t))
    (hs : v'.stops = v.stops)
    (hv : v'.history = v.history ∨ v'.history = v.history ++ [.publish t]) :
    Outside outcome t m h p' v' := by
  rcases hv with hv | hv
  · exact .loops k hin (hs.trans hm) (hv.trans hh)
  · refine .loops (k + 1) hin (hs.trans hm) ?_
    rw [hv, hh, List.append_assoc, List.replicate_succ']

theorem Outside.looped {k : Nat} (ha : Arc outcome t p v p' v') (hp : p.inLoop = true)
    (hm : v.stops = m) (hh : v.history = h ++ List.replicate k (.publish t)) :
    Outside outcome t m h p' v' := by
  have hin := ha.inside hp
  cases ha with
  | turn ht =>
    obtain ⟨hf, hv⟩ := turn_counted ht
    exact .turned hin hm hh hf.stops hv
  | publishEnded _ ht =>
    obtain ⟨hf, hv⟩ := endTurn_counted ht
    exact .turned hin hm hh hf.stops (.inl hv)
  | loopFirst | loopCancelled | streamFirst | streamLater | streamSuspend | streamFinish
  | streamBatch | publishLater | turnNone | turnSuspend | turnFinish => exact .loops k hin hm hh
  | _ => cases hp

theorem Outside.arc (hx : Outside outcome t m h p v) (ha : Arc outcome t p v p' v') :
    Outside outcome t m h p' v' := by
  cases hx with
  | begun b hb => exact .begun b (hb.arc ha)
  | loops k hin hm hh =>
    rcases hin with hin | ⟨o, rfl⟩
    · exact .looped ha hin hm hh
    · cases ha
  | quiet hs hm hh =>
    by_cases hin : p.inLoop = true
    · exact .looped (k := 0) ha hin hm (hh.trans (List.append_nil h).symm)
    · cases ha with
      | stopWait _ hb =>
        subst hm hh
        refine .begun _ (.goes 0 (Nat.le_refl 0) rfl rfl ?_ rfl nofun (.inl hb.symm))
        exact (List.append_nil _).symm
      | stopNoTask _ hb =>
        subst hm hh
        refine .begun _ (.goes 0 (Nat.le_refl 0) rfl rfl ?_ rfl nofun (.inl hb.symm))
        exact (List.append_nil _).symm
      | enterStart | enterStop | enterUseCase | startAcquire | startQueue | startWoken
      | startAbandoned | startRunning | connectFirst | connectLater | connectSuspend
      | connectReturned | connectFailed | startedClient | startedSleep | startedStop | sleepAgain
      | sleepCancelled | stopAcquire | stopQueue | stopWoken | stopAbandoned | stopIdle =>
        exact .quiet rfl hm hh
      | loopFirst | loopCancelled | streamFirst | streamLater | streamSuspend | streamFinish
      | streamBatch | publishLater | publishEnded | turn | turnNone | turnSuspend | turnFinish =>
        exact absurd rfl hin
      | _ => cases hs

theorem Outside.ends {r : IngestionService P Q × Act P Q}
    (hx : Outside outcome t m h r.2.node r.1) : Loops t m h r ∨ Begins outcome m h r := by
  have hnode : ∀ pc, r.2.pc = some pc → r.2.node.stage = pc.stage ∧ r.2.node.inLoop = pc.inLoop := by
    intro pc hpc
    obtain ⟨v, a⟩ := r
    cases a with
    | suspend | cancelling =>
      cases hpc
      exact ⟨rfl, rfl⟩
    | finish => cases hpc
  cases hx with
  | quiet hs hm hh =>
    refine .inl ⟨hm, ⟨0, hh.trans (List.append_nil h).symm⟩, fun pc hpc => ?_⟩
    rw [← (hnode pc hpc).1]
    exact hs
  | loops k hin hm hh =>
    refine .inl ⟨hm, ⟨k, hh⟩, fun pc hpc => ?_⟩
    rcases hin with hin | ⟨o, ho⟩
    · rw [(hnode pc hpc).2] at hin
      cases pc <;> first | rfl | cases hin
    · obtain ⟨v, a⟩ := r
      cases a with
      | finish => cases hpc
      | suspend | cancelling => cases ho
  | begun b hb => exact .inr ⟨b, hb.continues.2 rfl⟩

/-- A first segment. -/
theorem call_begins (s : IngestionService P Q) (t : TaskId) (op : Op) :
    Loops t s.stops s.history (call outcome s t op) ∨
      Begins outcome s.stops s.history (call outcome s t op) :=
  ((call_leads op).keeps (fun ha hx => Outside.arc hx ha) (.quiet rfl rfl rfl)).ends

/-- **A later segment outside `stop()`.** -/
theorem segment_outside {s : IngestionService P Q} {t : TaskId} {pc : Pc P Q} {w : Resume P}
    {r : IngestionService P Q × Act P Q} (hp : pc.stage = none)
    (hr : advance outcome s t pc w = some r) :
    Loops t s.stops s.history r ∨ Begins outcome s.stops s.history r :=
  ((advance_leads hr).keeps (fun ha hx => Outside.arc hx ha) (.quiet hp rfl rfl)).ends

end

end FlinkPractices.Service
