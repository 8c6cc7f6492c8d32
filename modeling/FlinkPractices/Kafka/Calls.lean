import FlinkPractices.Kafka.Closing
import Mathlib.Data.List.Infix

/-!
# The calls of `publish()`

Any number of calls of `publish()` and `publish_market_data()` on one adapter.  `observe` writes a
`Ledger` beside the steps of `Closing`: for each call, in the order of the invocations, how often it
has called `produce()`, where its records are among those that were accepted, and how it ended.  The
ledger forbids nothing (`run_observe`).

Principal results:

* `allOrNothing_iff` — a call is all or nothing (it returns with its one record enqueued, or raises
  with none) iff the `poll()` after its record has been accepted returns;
* `inOrder_iff` — calls with the same topic and key keep their order iff no call that has slept is
  accepted after a later one has returned.

## Proof

* `Segment` — what a segment makes of the adapter, how the call ends and where it sleeps; a call
  ends with its record enqueued in one segment, which `produce()` and `poll()` decide
* `Effect` — a step is a segment of one call, or hands nothing over (`observe_effect`)
* `Coherent` — the ledger is right about the calls that sleep and about those that are over
  (`Coherent.step`); both results are read off it, one step at a time

`raisingPoll_not_allOrNothing` and `twoOfOneMarket_not_inOrder` are the runs that the conditions
exclude.
-/

set_option autoImplicit false

namespace FlinkPractices.Kafka

open Lib Service

/-! ## The ledger -/

/-- One call of `publish()`. -/
structure Entry where
  task : Nat
  topic : String
  key : ByteArray
  message : ProtoMessage
  /-- how often it has called `produce()` -/
  produces : Nat
  /-- where its records are -/
  positions : List Nat
  result : Option Outcome

/-- The calls, and the number of the call that a task is in. -/
structure Ledger where
  entries : List Entry
  current : Nat → Option Nat

def Ledger.empty : Ledger := ⟨[], fun _ => none⟩

/-- A segment of the call has led from `a` to `a'`, and to `o` if the call is over. -/
def Entry.after (e : Entry) (a a' : Adapter) (o : Option Outcome) : Entry :=
  { e with
    produces := e.produces + (a'.produces - a.produces)
    positions := e.positions ++
      List.range' a.records.length (a'.records.length - a.records.length)
    result := o }

/-- A call that begins. -/
def Entry.begin (t : Nat) (topic : String) (key : ByteArray) (message : ProtoMessage) : Entry :=
  ⟨t, topic, key, message, 0, [], none⟩

def Ledger.note (g : Ledger) (l : Call) (a a' : Adapter) (o : Option Outcome) : Ledger :=
  match l with
  | .publish t topic key message =>
    { entries := g.entries ++ [(Entry.begin t topic key message).after a a' o]
      current := Function.update g.current t (if o.isNone then some g.entries.length else none) }
  | .resume t _ =>
    match g.current t with
    | some i =>
      { entries := g.entries.modify i fun e => e.after a a' o
        current := Function.update g.current t (if o.isNone then some i else none) }
    | none => g
  | _ => g

def endOf : Start PublishPc → Option Outcome
  | .suspend _ => none
  | .returned => some .returned
  | .raised e => some (.raised e)

def sleepOf : Start PublishPc → Option PublishPc
  | .suspend pc => some pc
  | _ => none

def endOfNext : Next PublishPc → Option Outcome
  | .suspend _ => none
  | .finish o => some o

def sleepOfNext : Next PublishPc → Option PublishPc
  | .suspend pc => some pc
  | .finish _ => none

variable (K : Producer)

/-- How the call that makes the step ends, if it does. -/
def Users.ending (u : Users) : Call → Option Outcome
  | .publish _ topic key message => endOf (u.inst.publish K topic key message).2
  | .resume t w =>
    ((u.pending t).bind fun pc => u.inst.resumePublish K pc w).bind fun r => endOfNext r.2
  | _ => none

/-- A step, and what is written about it. -/
def observe (x : Users × Ledger) (l : Call) : Option (Users × Ledger) :=
  (step K x.1 l).map fun u =>
    (u, x.2.note l x.1.inst.adapter u.inst.adapter (x.1.ending K l))

/-- The ledger forbids nothing. -/
theorem run_observe : ∀ {ls : List Call} {u u' : Users} (g : Ledger),
    run (step K) u ls = some u' → ∃ g', run (observe K) (u, g) ls = some (u', g')
  | [], _, _, g, h => by
    cases h
    exact ⟨g, rfl⟩
  | l :: ls, u, u', g, h => by
    obtain ⟨u₁, hs, hr⟩ := run_cons_some h
    have hs' : observe K (u, g) l =
        some (u₁, g.note l u.inst.adapter u₁.inst.adapter (u.ending K l)) := by
      unfold observe
      rw [hs]
      rfl
    obtain ⟨g', hg⟩ := run_observe _ hr
    exact ⟨g', (run_cons_of_step hs' ls).trans hg⟩

/-! ## One segment -/

/-- The step calls `produce()`. -/
def Users.Produces (u : Users) : Call → Prop
  | .publish _ _ _ message => u.inst.producer = true ∧ ∃ value, K.serialize message = .ok value
  | .resume t .done =>
    u.inst.producer = true ∧ ∃ pc, u.pending t = some pc ∧ pc.retryCount < maxRetries
  | _ => False

/-- The next `produce()` accepts its record. -/
def Users.Accepted (u : Users) : Prop := K.produce u.inst.adapter.produces = none

/-- What a segment of the call `e` makes of the adapter, how the call ends and where it sleeps. -/
inductive Segment (u : Users) (l : Call) (e : Entry) :
    Adapter → Option Outcome → Option PublishPc → Prop
  | returns {value : ByteArray} : K.serialize e.message = .ok value → u.Produces K l →
      u.Accepted K → K.poll u.inst.adapter.polls = none → e.produces < maxRetries →
      Segment u l e { u.inst.adapter with
        records := u.inst.adapter.records ++ [⟨e.topic, e.key, value⟩]
        produces := u.inst.adapter.produces + 1
        polls := u.inst.adapter.polls + 1 } (some .returned) none
  /-- the record is accepted, and the `poll()` after it raises -/
  | accepted {value : ByteArray} {p : PyExn} : K.serialize e.message = .ok value → u.Produces K l →
      u.Accepted K → K.poll u.inst.adapter.polls = some p → e.produces < maxRetries →
      Segment u l e { u.inst.adapter with
        records := u.inst.adapter.records ++ [⟨e.topic, e.key, value⟩]
        produces := u.inst.adapter.produces + 1
        polls := u.inst.adapter.polls + 1 } (some (.raised (publishFailure e.topic))) none
  | sleeps {value : ByteArray} : K.serialize e.message = .ok value → ¬u.Accepted K →
      e.produces < maxRetries →
      Segment u l e { u.inst.adapter with
        produces := u.inst.adapter.produces + 1
        polls := u.inst.adapter.polls + 1 } none (some ⟨⟨e.topic, e.key, value⟩, e.produces + 1⟩)
  | fails {a : Adapter} : ¬(u.Produces K l ∧ u.Accepted K) → a.records = u.inst.adapter.records →
      (a.produces = u.inst.adapter.produces ∨
        e.produces < maxRetries ∧ a.produces = u.inst.adapter.produces + 1) →
      Segment u l e a (some (.raised (publishFailure e.topic))) none
  | cancelled : ¬u.Produces K l → Segment u l e u.inst.adapter (some .cancelled) none

variable {K} {u : Users} {l : Call} {e : Entry}

/-- The head of the loop. -/
theorem attempt_segment {value : ByteArray} (hv : K.serialize e.message = .ok value)
    (hl : u.Produces K l ↔ e.produces < maxRetries) :
    Segment K u l e (attempt K u.inst.adapter ⟨e.topic, e.key, value⟩ e.produces).1
      (endOf (attempt K u.inst.adapter ⟨e.topic, e.key, value⟩ e.produces).2)
      (sleepOf (attempt K u.inst.adapter ⟨e.topic, e.key, value⟩ e.produces).2) := by
  unfold attempt
  split
  · rename_i hn
    cases hp : K.produce u.inst.adapter.produces with
    | none =>
      have ha : u.Accepted K := hp
      cases hq : K.poll u.inst.adapter.polls with
      | none =>
        simp only [enqueued, poll, hq]
        exact .returns hv (hl.2 hn) ha hq hn
      | some p =>
        simp only [enqueued, poll, hq]
        exact .accepted hv (hl.2 hn) ha hq hn
    | some x =>
      have ha : ¬u.Accepted K := fun h => by cases hp.symm.trans h
      cases x with
      | bufferError =>
        cases hq : K.poll u.inst.adapter.polls with
        | none =>
          simp only [bufferFull, poll, hq]
          exact .sleeps hv ha hn
        | some p =>
          simp only [bufferFull, poll, hq]
          exact .fails (fun h => ha h.2) rfl (.inr ⟨hn, rfl⟩)
      | _ => exact .fails (fun h => ha h.2) rfl (.inr ⟨hn, rfl⟩)
  · rename_i hn
    exact .fails (fun h => hn (hl.1 h.1)) rfl (.inl rfl)

/-- The first segment. -/
theorem publish_segment {t : Nat} (he : e.produces = 0) :
    Segment K u (.publish t e.topic e.key e.message) e
      (u.inst.publish K e.topic e.key e.message).1.adapter
      (endOf (u.inst.publish K e.topic e.key e.message).2)
      (sleepOf (u.inst.publish K e.topic e.key e.message).2) := by
  unfold Instance.publish
  cases hu : u.inst.producer with
  | false =>
    have hl : ¬u.Produces K (.publish t e.topic e.key e.message) := fun h => by
      cases hu.symm.trans h.1
    exact .fails (fun h => hl h.1) rfl (.inl rfl)
  | true =>
    rw [if_pos rfl]
    unfold publish
    cases hv : K.serialize e.message with
    | error x =>
      have hl : ¬u.Produces K (.publish t e.topic e.key e.message) := fun h => by
        obtain ⟨value, hv'⟩ := h.2
        cases hv.symm.trans hv'
      exact .fails (fun h => hl h.1) rfl (.inl rfl)
    | ok value =>
      have hl : u.Produces K (.publish t e.topic e.key e.message) ↔ e.produces < maxRetries :=
        ⟨fun _ => he ▸ Nat.zero_lt_succ 9, fun _ => ⟨hu, value, hv⟩⟩
      have hseg := attempt_segment hv hl
      rw [he] at hseg
      exact hseg

theorem next_adapter {Pc : Type} (r : Adapter × Start Pc) : (next r).1 = r.1 := by
  obtain ⟨a, _ | _ | _⟩ := r <;> rfl

theorem endOf_next (r : Adapter × Start PublishPc) : endOfNext (next r).2 = endOf r.2 := by
  obtain ⟨a, _ | _ | _⟩ := r <;> rfl

theorem sleepOf_next (r : Adapter × Start PublishPc) : sleepOfNext (next r).2 = sleepOf r.2 := by
  obtain ⟨a, _ | _ | _⟩ := r <;> rfl

variable (K) in
/-- The call `e` of task `t` sleeps at `pc`. -/
structure Sleeps (t : Nat) (pc : PublishPc) (e : Entry) : Prop where
  task : e.task = t
  topic : pc.record.topic = e.topic
  key : pc.record.key = e.key
  value : K.serialize e.message = .ok pc.record.value
  retryCount : pc.retryCount = e.produces
  bound : e.produces ≤ maxRetries
  positions : e.positions = []
  result : e.result = none

/-- The later segments. -/
theorem resume_segment {t : Nat} {pc : PublishPc} {w : Wake Empty} {s : Instance}
    {r : Next PublishPc} (hp : u.pending t = some pc) (he : Sleeps K t pc e)
    (hr : u.inst.resumePublish K pc w = some (s, r)) :
    Segment K u (.resume t w) e s.adapter (endOfNext r) (sleepOfNext r) := by
  obtain ⟨⟨topic, key, value⟩, n⟩ := pc
  obtain rfl : topic = e.topic := he.topic
  obtain rfl : key = e.key := he.key
  obtain rfl : n = e.produces := he.retryCount
  unfold Instance.resumePublish at hr
  cases hu : u.inst.producer with
  | false =>
    rw [hu] at hr
    cases w with
    | done =>
      cases hr
      have hl : ¬u.Produces K (.resume t .done) := fun h => by cases hu.symm.trans h.1
      exact .fails (fun h => hl h.1) rfl (.inl rfl)
    | cancelled =>
      cases hr
      exact .cancelled fun h => h
    | raised => cases hr
    | input => cases hr
  | true =>
    rw [hu, if_pos rfl] at hr
    obtain ⟨x, hx, hxr⟩ := Option.map_eq_some_iff.1 hr
    cases hxr
    cases w with
    | done =>
      have hl : u.Produces K (.resume t .done) ↔ e.produces < maxRetries := by
        refine ⟨fun ⟨_, pc, hpc, hn⟩ => ?_, fun hn => ⟨hu, _, hp, hn⟩⟩
        cases hp.symm.trans hpc
        exact hn
      cases hx
      dsimp only [Instance.withAdapter]
      rw [next_adapter, endOf_next, sleepOf_next]
      exact attempt_segment he.value hl
    | cancelled =>
      cases hx
      exact .cancelled fun h => h
    | raised => cases hx
    | input => cases hx

/-! ## What is written about a step -/

theorem step_publish {u' : Users} {t : Nat} {topic : String} {key : ByteArray}
    {message : ProtoMessage} (h : step K u (.publish t topic key message) = some u') :
    u' = u.settle t (u.inst.publish K topic key message).1
      (sleepOf (u.inst.publish K topic key message).2) := by
  simp only [step] at h
  cases hp : u.pending t with
  | some pc =>
    rw [hp] at h
    cases h
  | none =>
    rw [hp] at h
    generalize u.inst.publish K topic key message = r at h ⊢
    obtain ⟨s, pc | _ | x⟩ := r <;> cases h <;> rfl

theorem step_resume {u' : Users} {t : Nat} {w : Wake Empty}
    (h : step K u (.resume t w) = some u') : ∃ pc s r, u.pending t = some pc ∧
      u.inst.resumePublish K pc w = some (s, r) ∧ u' = u.settle t s (sleepOfNext r) := by
  simp only [step] at h
  cases hp : u.pending t with
  | none =>
    rw [hp] at h
    cases h
  | some pc =>
    rw [hp] at h
    dsimp only at h
    cases hr : u.inst.resumePublish K pc w with
    | none =>
      rw [hr] at h
      cases h
    | some y =>
      rw [hr] at h
      obtain ⟨s, pc' | o⟩ := y <;> cases h <;> exact ⟨pc, s, _, rfl, hr, rfl⟩

theorem flush_records (s : Instance) :
    (s.flush K).1.adapter.records = s.adapter.records := by
  unfold Instance.flush flush
  split
  · dsimp only [Instance.withAdapter]
    split <;> rfl
  · rfl

theorem close_records (s : Instance) :
    (s.close K).1.adapter.records = s.adapter.records := by
  cases hp : s.producer with
  | true => rw [close_eq hp]
  | false => simp only [Instance.close, hp, Bool.false_eq_true, if_false]

variable (K) in
/-- The record of the call is the one at `p`. -/
def Entry.At (records : List Record) (e : Entry) (p : Nat) : Prop :=
  e.positions = [p] ∧ ∃ value, K.serialize e.message = .ok value ∧
    records[p]? = some ⟨e.topic, e.key, value⟩

variable (K) in
structure Entry.Sound (records : List Record) (e : Entry) : Prop where
  bound : e.produces ≤ maxRetries
  below : ∀ p ∈ e.positions, p < records.length
  returned : e.result = some .returned → ∃ p, e.At K records p
  raised : ∀ x, e.result = some (.raised x) → x = publishFailure e.topic

variable (K) in
/-- The ledger is right about the calls that sleep and about those that are over. -/
structure Coherent (x : Users × Ledger) : Prop where
  sleeping : ∀ t pc, x.1.pending t = some pc →
    ∃ (i : Nat) (e : Entry), x.2.current t = some i ∧ x.2.entries[i]? = some e ∧ Sleeps K t pc e
  sound : ∀ (i : Nat) (e : Entry), x.2.entries[i]? = some e →
    e.Sound K x.1.inst.adapter.records

variable (K) in
/-- The step is one of task `t`, of its call number `i`. -/
inductive Enters (x : Users × Ledger) : Call → Nat → Nat → Entry → Prop
  | first {t : Nat} {topic : String} {key : ByteArray} {message : ProtoMessage} :
      Enters x (.publish t topic key message) t x.2.entries.length (.begin t topic key message)
  | later {t i : Nat} {w : Wake Empty} {e : Entry} {pc : PublishPc} : x.1.pending t = some pc →
      x.2.current t = some i → x.2.entries[i]? = some e → Sleeps K t pc e →
      Enters x (.resume t w) t i e

variable (K) in
/-- **The steps**: a segment of one call, or a step that hands nothing over. -/
inductive Effect (x : Users × Ledger) (l : Call) (x' : Users × Ledger) : Prop
  | call {t i : Nat} {e : Entry} {o : Option Outcome} {pc : Option PublishPc} :
      Enters K x l t i e → Segment K x.1 l e x'.1.inst.adapter o pc →
      x'.1.pending = Function.update x.1.pending t pc →
      x'.2.current = Function.update x.2.current t (if o.isNone then some i else none) →
      x'.2.entries[i]? = some (e.after x.1.inst.adapter x'.1.inst.adapter o) →
      (∀ j, j ≠ i → x'.2.entries[j]? = x.2.entries[j]?) → Effect x l x'
  | quiet : ¬x.1.Produces K l → x'.1.pending = x.1.pending →
      x'.1.inst.adapter.records = x.1.inst.adapter.records → x'.2 = x.2 → Effect x l x'

theorem observe_effect {x x' : Users × Ledger} {l : Call} (hx : Coherent K x)
    (h : observe K x l = some x') : Effect K x l x' := by
  obtain ⟨u, g⟩ := x
  obtain ⟨u', hs, rfl⟩ := Option.map_eq_some_iff.1 h
  dsimp only at hs
  cases l with
  | publish t topic key message =>
    obtain rfl := step_publish hs
    have hseg := publish_segment (K := K) (u := u) (e := .begin t topic key message) (t := t) rfl
    refine .call .first hseg rfl rfl ?_ fun j hj => ?_
    · exact List.getElem?_concat_length
    · show (g.entries ++ [_])[j]? = g.entries[j]?
      rcases Nat.lt_or_gt_of_ne hj with hlt | hgt
      · exact List.getElem?_append_left hlt
      · have hlen : (g.entries ++ [(Entry.begin t topic key message).after u.inst.adapter
            (u.inst.publish K topic key message).1.adapter
            (u.ending K (.publish t topic key message))]).length ≤ j := by
          rw [List.length_append, List.length_singleton]
          exact hgt
        exact (List.getElem?_eq_none hlen).trans (List.getElem?_eq_none (Nat.le_of_lt hgt)).symm
  | resume t w =>
    obtain ⟨pc, s, r, hp, hr, rfl⟩ := step_resume hs
    obtain ⟨i, e, hi, he, hsl⟩ := hx.sleeping t pc hp
    dsimp only at hi he
    have hend : u.ending K (.resume t w) = endOfNext r := by
      simp only [Users.ending, hp, Option.bind_some, hr]
    have hnote : g.note (.resume t w) u.inst.adapter s.adapter (u.ending K (.resume t w)) =
        ⟨g.entries.modify i fun e => e.after u.inst.adapter s.adapter (endOfNext r),
          Function.update g.current t (if (endOfNext r).isNone then some i else none)⟩ := by
      simp only [hend, Ledger.note, hi]
    refine .call (.later hp hi he hsl) (resume_segment hp hsl hr) rfl ?_ ?_ fun j hj => ?_
    · exact congrArg Ledger.current hnote
    · refine (congrArg (fun g : Ledger => g.entries[i]?) hnote).trans ?_
      exact (List.getElem?_modify_eq ..).trans (by rw [he]; rfl)
    · exact (congrArg (fun g : Ledger => g.entries[j]?) hnote).trans
        (List.getElem?_modify_ne _ _ hj.symm)
  | flush =>
    cases hs
    exact .quiet (fun h => h) rfl (flush_records u.inst) rfl
  | close =>
    cases hs
    exact .quiet (fun h => h) rfl (close_records u.inst) rfl

/-! ## The ledger is right -/

theorem after_positions {a a' : Adapter} {o : Option Outcome} (he : e.positions = [])
    (h : a'.records = a.records) : (e.after a a' o).positions = [] := by
  simp [Entry.after, he, h]

theorem after_positions_append {a a' : Adapter} {o : Option Outcome} {r : Record}
    (he : e.positions = []) (h : a'.records = a.records ++ [r]) :
    (e.after a a' o).positions = [a.records.length] := by
  simp [Entry.after, he, h]

theorem Entry.Sound.append {records : List Record} (h : e.Sound K records) (rs : List Record) :
    e.Sound K (records ++ rs) where
  bound := h.bound
  below p hp := by
    have hlt := h.below p hp
    rw [List.length_append]
    omega
  returned hr := by
    obtain ⟨p, hp, value, hv, hget⟩ := h.returned hr
    obtain ⟨hlt, -⟩ := List.getElem?_eq_some_iff.1 hget
    exact ⟨p, hp, value, hv, (List.getElem?_append_left hlt).trans hget⟩
  raised := h.raised

theorem Segment.records {a : Adapter} {o : Option Outcome} {pc : Option PublishPc}
    (h : Segment K u l e a o pc) : ∃ rs, a.records = u.inst.adapter.records ++ rs := by
  cases h with
  | returns | accepted => exact ⟨_, rfl⟩
  | sleeps | cancelled => exact ⟨[], (List.append_nil _).symm⟩
  | fails _ hr => exact ⟨[], hr.trans (List.append_nil _).symm⟩

theorem Segment.bound {a : Adapter} {o : Option Outcome} {pc : Option PublishPc}
    (h : Segment K u l e a o pc) (hb : e.produces ≤ maxRetries) :
    (e.after u.inst.adapter a o).produces ≤ maxRetries := by
  show e.produces + (a.produces - u.inst.adapter.produces) ≤ maxRetries
  cases h with
  | returns _ _ _ _ hn | accepted _ _ _ _ hn | sleeps _ _ hn =>
    dsimp only
    omega
  | fails _ _ hn => omega
  | cancelled => omega

/-- A record that has been accepted is the last one. -/
theorem Segment.positions {a : Adapter} {o : Option Outcome} {pc : Option PublishPc}
    (h : Segment K u l e a o pc) (hp : e.positions = []) :
    a.records = u.inst.adapter.records ∧ (e.after u.inst.adapter a o).positions = [] ∨
      ∃ r, a.records = u.inst.adapter.records ++ [r] ∧
        (e.after u.inst.adapter a o).positions = [u.inst.adapter.records.length] := by
  cases h with
  | returns | accepted => exact .inr ⟨_, rfl, after_positions_append hp rfl⟩
  | sleeps | cancelled => exact .inl ⟨rfl, after_positions hp rfl⟩
  | fails _ hr => exact .inl ⟨hr, after_positions hp hr⟩

theorem Segment.sound {a : Adapter} {o : Option Outcome} {pc : Option PublishPc}
    (h : Segment K u l e a o pc) (hb : e.produces ≤ maxRetries) (hp : e.positions = []) :
    (e.after u.inst.adapter a o).Sound K a.records where
  bound := h.bound hb
  below p hmem := by
    rcases h.positions hp with ⟨-, hnil⟩ | ⟨r, hr, hone⟩
    · rw [hnil] at hmem
      cases hmem
    · rw [hone, List.mem_singleton] at hmem
      rw [hr, hmem, List.length_append]
      exact Nat.lt_succ_self _
  returned hr := by
    cases h with
    | @returns value hv =>
      exact ⟨_, after_positions_append hp rfl, value, hv, List.getElem?_concat_length⟩
    | _ => cases hr
  raised x hr := by
    cases h with
    | accepted | fails =>
      cases hr
      rfl
    | _ => cases hr

theorem Segment.sleep {a : Adapter} {o : Option Outcome} {pc : PublishPc} {t : Nat}
    (h : Segment K u l e a o (some pc)) (ht : e.task = t) (hp : e.positions = []) :
    o = none ∧ Sleeps K t pc (e.after u.inst.adapter a o) := by
  cases h with
  | sleeps hv _ hn =>
    have hcount : e.produces + (u.inst.adapter.produces + 1 - u.inst.adapter.produces) =
        e.produces + 1 := by omega
    exact ⟨rfl, ht, rfl, rfl, hv, hcount.symm, hcount.trans_le hn, after_positions hp rfl, rfl⟩

theorem Enters.facts {x : Users × Ledger} {t i : Nat} (h : Enters K x l t i e) :
    e.task = t ∧ e.produces ≤ maxRetries ∧ e.positions = [] ∧
      ∀ d, x.2.entries[i]? = some d → d.task = t ∧ d.result = none := by
  cases h with
  | first =>
    refine ⟨rfl, Nat.zero_le _, rfl, fun d hd => ?_⟩
    rw [List.getElem?_eq_none (Nat.le_refl _)] at hd
    cases hd
  | later _ _ he hs =>
    refine ⟨hs.task, hs.bound, hs.positions, fun d hd => ?_⟩
    cases he.symm.trans hd
    exact ⟨hs.task, hs.result⟩

theorem coherent_init : Coherent K (Users.init, Ledger.empty) where
  sleeping _ _ h := by cases h
  sound _ _ h := by cases h

/-- **The ledger stays right.** -/
theorem Coherent.step {x x' : Users × Ledger} (hx : Coherent K x)
    (h : observe K x l = some x') : Coherent K x' := by
  cases observe_effect hx h with
  | @call t i e o pc hent hseg hpend hcur hi hothers =>
    obtain ⟨htask, hbound, hpos, hold⟩ := hent.facts
    refine ⟨fun t' pc' hp' => ?_, fun j d hd => ?_⟩
    · by_cases ht : t' = t
      · subst ht
        rw [hpend, Function.update_self] at hp'
        subst hp'
        obtain ⟨rfl, hs⟩ := hseg.sleep htask hpos
        exact ⟨i, _, by rw [hcur, Function.update_self]; rfl, hi, hs⟩
      · rw [hpend, Function.update_of_ne ht] at hp'
        obtain ⟨i', e', hi', he', hs'⟩ := hx.sleeping t' pc' hp'
        have hne : i' ≠ i := by
          rintro rfl
          exact ht (hs'.task.symm.trans (hold e' he').1)
        exact ⟨i', e', by rw [hcur, Function.update_of_ne ht, hi'],
          by rw [hothers i' hne, he'], hs'⟩
    · by_cases hj : j = i
      · subst hj
        cases hi.symm.trans hd
        exact hseg.sound hbound hpos
      · rw [hothers j hj] at hd
        obtain ⟨rs, hrs⟩ := hseg.records
        rw [hrs]
        exact (hx.sound j d hd).append rs
  | quiet _ hpend hrec hg =>
    refine ⟨fun t pc hp => ?_, fun i d hd => ?_⟩
    · rw [hpend] at hp
      rw [hg]
      exact hx.sleeping t pc hp
    · rw [hg] at hd
      rw [hrec]
      exact hx.sound i d hd

/-! ## All or nothing -/

section

variable (K)

/-- What a caller of `publish()` relies on. -/
structure Entry.AllOrNothing (records : List Record) (e : Entry) : Prop where
  produces : e.produces ≤ 10
  returned : e.result = some .returned → ∃ p, e.At K records p
  raised : ∀ x, e.result = some (.raised x) → x.isPublishException = true ∧ e.positions = []

def AllOrNothing (x : Users × Ledger) : Prop :=
  ∀ (i : Nat) (e : Entry), x.2.entries[i]? = some e → e.AllOrNothing K x.1.inst.adapter.records

/-- The step has its record accepted, and the `poll()` after that raises. -/
def Users.PollRaises (u : Users) (l : Call) : Prop :=
  u.Produces K l ∧ u.Accepted K ∧ (K.poll u.inst.adapter.polls).isSome = true

end

theorem Segment.nothing_iff {a : Adapter} {o : Option Outcome} {pc : Option PublishPc}
    (h : Segment K u l e a o pc) (hp : e.positions = []) :
    (∀ x, o = some (.raised x) → (e.after u.inst.adapter a o).positions = []) ↔
      ¬u.PollRaises K l := by
  have hpos := h.positions hp
  cases h with
  | returns _ _ _ hpoll =>
    refine iff_of_true (fun x hx => by cases hx) fun hr => ?_
    have hsome := hr.2.2
    rw [hpoll] at hsome
    cases hsome
  | accepted _ hl ha hpoll =>
    refine iff_of_false (fun hnil => ?_) (not_not_intro ⟨hl, ha, by rw [hpoll]; rfl⟩)
    rcases hpos with ⟨hr, -⟩ | ⟨_, -, hone⟩
    · exact absurd hr (by simp)
    · cases hone.symm.trans (hnil _ rfl)
  | sleeps _ ha => exact iff_of_true (fun x hx => by cases hx) fun hr => ha hr.2.1
  | fails ha hr =>
    exact iff_of_true (fun _ _ => after_positions hp hr) fun hr => ha ⟨hr.1, hr.2.1⟩
  | cancelled hl => exact iff_of_true (fun x hx => by cases hx) fun hr => hl hr.1

/-- **One step.** -/
theorem Coherent.allOrNothing_step {x x' : Users × Ledger} (hx : Coherent K x)
    (hp : AllOrNothing K x) (h : observe K x l = some x') :
    AllOrNothing K x' ↔ ¬x.1.PollRaises K l := by
  have hx' := hx.step h
  cases observe_effect hx h with
  | @call t i e o pc hent hseg hpend hcur hi hothers =>
    obtain ⟨-, -, hpos, -⟩ := hent.facts
    rw [← hseg.nothing_iff hpos]
    constructor
    · intro h' x hx
      exact ((h' i _ hi).raised x hx).2
    · intro hnil j d hd
      have hs := hx'.sound j d hd
      refine ⟨hs.bound, hs.returned, fun x hr => ?_⟩
      rw [hs.raised x hr]
      refine ⟨rfl, ?_⟩
      by_cases hj : j = i
      · subst hj
        cases hi.symm.trans hd
        exact hnil x hr
      · rw [hothers j hj] at hd
        exact ((hp j d hd).raised x hr).2
  | quiet hl _ hrec hg =>
    refine iff_of_true (fun i e he => ?_) fun hr => hl hr.1
    rw [hg] at he
    rw [hrec]
    exact hp i e he

/-- **When `publish()` is all or nothing.**  In every run of any number of callers, whatever
`produce()`, `poll()` and the serialization do: every call makes at most ten calls of `produce()`,
has its record enqueued once if it returns and never if it raises, and raises `PublishException`
only, iff every `poll()` that follows an accepted `produce()` returns. -/
theorem allOrNothing_iff {ls : List Call} {x : Users × Ledger}
    (h : run (observe K) (Users.init, Ledger.empty) ls = some x) :
    Always (observe K) (AllOrNothing K) (Users.init, Ledger.empty) ls ↔
      Guarded (observe K) (fun x l => ¬x.1.PollRaises K l) (Users.init, Ledger.empty) ls :=
  always_iff_guarded (I := Coherent K) (H := fun _ _ => True)
    (fun _ _ _ hx _ _ hs => hx.step hs) (fun _ _ _ hx _ hp hs => hx.allOrNothing_step hp hs)
    coherent_init (fun i e he => by cases he) (.of_forall fun _ _ => trivial) h

/-- A producer whose `poll()` raises, because of a delivery callback. -/
def raisingPoll : Producer := { acceptingProducer with poll := fun _ => some .kafkaException }

/-- **A call that raises although its record is on its way.** -/
theorem raisingPoll_not_allOrNothing : ∃ x,
    run (observe raisingPoll) (Users.init, Ledger.empty)
      [.publish 0 "t" ByteArray.empty emptyBook] = some x ∧
    ¬AllOrNothing raisingPoll x := by
  refine ⟨_, rfl, fun h => ?_⟩
  have hraised := (h 0 _ rfl).raised (publishFailure "t") rfl
  cases hraised.2

/-- A producer that is full once. -/
def fullOnce : Producer :=
  { acceptingProducer with produce := fun n => if n = 0 then some .bufferError else none }

/-- `allOrNothing_iff` for a call that is made again. -/
theorem allOrNothing_iff_fullOnce :
    Always (observe fullOnce) (AllOrNothing fullOnce) (Users.init, Ledger.empty)
        [.publish 0 "t" ByteArray.empty emptyBook, .resume 0 .done] ↔
      Guarded (observe fullOnce) (fun x l => ¬x.1.PollRaises fullOnce l)
        (Users.init, Ledger.empty)
        [.publish 0 "t" ByteArray.empty emptyBook, .resume 0 .done] :=
  allOrNothing_iff (K := fullOnce) rfl

/-! ## The order of the calls -/

/-- Of two calls with the same topic and key that have returned, the one that was made first has its
record first. -/
def InOrder (x : Users × Ledger) : Prop :=
  ∀ (i j : Nat) (d e : Entry), i < j → x.2.entries[i]? = some d → x.2.entries[j]? = some e →
    d.topic = e.topic → d.key = e.key → d.result = some .returned → e.result = some .returned →
    ∀ p ∈ d.positions, ∀ q ∈ e.positions, p < q

variable (K) in
/-- A call that has slept has its record accepted now, and a later one with the same topic and key
has returned before. -/
def Overtaken (x : Users × Ledger) : Call → Prop
  | .resume t w => x.1.Produces K (.resume t w) ∧ x.1.Accepted K ∧
      K.poll x.1.inst.adapter.polls = none ∧
      ∃ (i j : Nat) (d e : Entry), i < j ∧ x.2.current t = some i ∧ x.2.entries[i]? = some d ∧
        x.2.entries[j]? = some e ∧ d.topic = e.topic ∧ d.key = e.key ∧
        e.result = some .returned
  | _ => False

theorem Segment.returned_iff {a : Adapter} {o : Option Outcome} {pc : Option PublishPc}
    (h : Segment K u l e a o pc) : o = some .returned ↔
      u.Produces K l ∧ u.Accepted K ∧ K.poll u.inst.adapter.polls = none := by
  cases h with
  | returns _ hl ha hpoll => exact iff_of_true rfl ⟨hl, ha, hpoll⟩
  | accepted _ _ _ hpoll =>
    exact iff_of_false (fun h => by cases h) fun h => by cases hpoll.symm.trans h.2.2
  | sleeps _ ha => exact iff_of_false (fun h => by cases h) fun h => ha h.2.1
  | fails ha => exact iff_of_false (fun h => by cases h) fun h => ha ⟨h.1, h.2.1⟩
  | cancelled hl => exact iff_of_false (fun h => by cases h) fun h => hl h.1

/-- **One step.** -/
theorem Coherent.inOrder_step {x x' : Users × Ledger} (hx : Coherent K x) (hp : InOrder x)
    (h : observe K x l = some x') : InOrder x' ↔ ¬Overtaken K x l := by
  cases observe_effect hx h with
  | @call t i e o pc hent hseg _ _ hi hothers =>
    obtain ⟨-, -, hpos, -⟩ := hent.facts
    have hplace := hseg.positions hpos
    constructor
    · intro h' hover
      cases hent with
      | first => exact hover
      | later _ hcur he _ =>
        obtain ⟨hl, ha, hpoll, i', j, d, e', hij, hcur', hd, he', htopic, hkey, hret⟩ := hover
        obtain rfl : i = i' := Option.some.inj (hcur.symm.trans hcur')
        obtain rfl : e = d := Option.some.inj (he.symm.trans hd)
        have hreturned := hseg.returned_iff.2 ⟨hl, ha, hpoll⟩
        obtain ⟨q, hq, -⟩ := (hx.sound j e' he').returned hret
        have hlt : q < x.1.inst.adapter.records.length :=
          (hx.sound j e' he').below q (by rw [hq]; exact List.mem_singleton_self q)
        rcases hplace with ⟨-, hnil⟩ | ⟨-, -, hone⟩
        · obtain ⟨r, hr, -⟩ := ((hx.step h).sound i _ hi).returned hreturned
          cases hnil.symm.trans hr
        · have hj : x'.2.entries[j]? = some e' := (hothers j hij.ne').trans he'
          have hlast := h' i j _ e' hij hi hj htopic hkey hreturned hret
            x.1.inst.adapter.records.length (by rw [hone]; exact List.mem_singleton_self _) q
            (by rw [hq]; exact List.mem_singleton_self q)
          exact absurd hlast hlt.not_gt
    · intro hover i' j d d' hij hd hd' htopic hkey hret hret' p hp' q hq
      by_cases hi' : i' = i
      · subst hi'
        cases hi.symm.trans hd
        rw [hothers j hij.ne'] at hd'
        obtain ⟨hl, ha, hpoll⟩ := hseg.returned_iff.1 hret
        cases hent with
        | first =>
          rw [List.getElem?_eq_none hij.le] at hd'
          cases hd'
        | later _ hcur he _ =>
          exact absurd ⟨hl, ha, hpoll, i', j, e, d', hij, hcur, he, hd', htopic, hkey, hret'⟩ hover
      · rw [hothers i' hi'] at hd
        by_cases hj : j = i
        · subst hj
          cases hi.symm.trans hd'
          have hlt := (hx.sound i' d hd).below p hp'
          rcases hplace with ⟨-, hnil⟩ | ⟨-, -, hone⟩
          · rw [hnil] at hq
            cases hq
          · rw [hone, List.mem_singleton] at hq
            rwa [hq]
        · rw [hothers j hj] at hd'
          exact hp i' j d d' hij hd hd' htopic hkey hret hret' p hp' q hq
  | quiet hl _ _ hg =>
    refine iff_of_true (fun i j d e hij hd he => ?_) fun hover => ?_
    · rw [hg] at hd he
      exact hp i j d e hij hd he
    · cases l with
      | resume t w => exact hl hover.1
      | _ => exact hover

/-- **When the order is kept.**  In every run of any number of callers, whatever `produce()` and
`poll()` do: any two calls with the same topic and key that return are enqueued in the order of
their invocations, iff no call that has slept is overtaken by a later one. -/
theorem inOrder_iff {ls : List Call} {x : Users × Ledger}
    (h : run (observe K) (Users.init, Ledger.empty) ls = some x) :
    Always (observe K) InOrder (Users.init, Ledger.empty) ls ↔
      Guarded (observe K) (fun x l => ¬Overtaken K x l) (Users.init, Ledger.empty) ls :=
  always_iff_guarded (I := Coherent K) (H := fun _ _ => True)
    (fun _ _ _ hx _ _ hs => hx.step hs) (fun _ _ _ hx _ hp hs => hx.inOrder_step hp hs)
    coherent_init (fun i j d e _ hd => by cases hd) (.of_forall fun _ _ => trivial) h

/-- Two tasks publish for one market.  The first meets a full buffer. -/
def twoOfOneMarket : List Call :=
  [.publish 0 "t" "KRW-BTC".toUTF8 emptyBook, .publish 1 "t" "KRW-BTC".toUTF8 emptyBook,
    .resume 0 .done]

/-- **The second call overtakes the first.** -/
theorem twoOfOneMarket_not_inOrder : ∃ x,
    run (observe fullOnce) (Users.init, Ledger.empty) twoOfOneMarket = some x ∧ ¬InOrder x := by
  refine ⟨_, rfl, fun h => ?_⟩
  have hlt : 1 < 0 := h 0 1 _ _ Nat.one_pos rfl rfl rfl rfl rfl rfl 1 (List.mem_singleton_self 1) 0
    (List.mem_singleton_self 0)
  exact absurd hlt (by decide)

/-- `inOrder_iff` at that run. -/
theorem inOrder_iff_twoOfOneMarket :
    Always (observe fullOnce) InOrder (Users.init, Ledger.empty) twoOfOneMarket ↔
      Guarded (observe fullOnce) (fun x l => ¬Overtaken fullOnce x l) (Users.init, Ledger.empty)
        twoOfOneMarket :=
  inOrder_iff (K := fullOnce) rfl

end FlinkPractices.Kafka
