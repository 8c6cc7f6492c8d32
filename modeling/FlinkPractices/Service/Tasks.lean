import FlinkPractices.Lib.System
import FlinkPractices.Service.Ingestion

/-!
# Any number of tasks on one service

The scheduler's view of the service, as in `Connector.Tasks`: clients `0, …, clients - 1`, which
call `start()` and `stop()` or run the use case, and the consumption tasks, which `start()` names
`clients, clients + 1, …`.  A consumption task is done when its coroutine ends.

A label is one scheduling decision with what the environment answers: a client makes a call, a
suspended call is resumed (by the answer it waits for, or by the timer of `wait_for` or `sleep`), a
task is cancelled, a client ends.

A cancellation from outside or from `stop()` is passed on along awaited tasks (`cancelTarget`);
the last one gets `CancelledError` when it runs next, before anything else (`Sys.admits`).

* `step` — one step of the system
* `step_move` — what a step is, label by label
* `Settled`, `Effect`, `step_effect` — what a step leaves: a first segment, a later one, or a change
  that concerns neither the service nor the suspended calls.  Every proof about a step of the
  service begins with this case analysis.

The runs of `step` are `Lib.System`.
-/

set_option autoImplicit false

namespace FlinkPractices.Service

open Lib
open Connector (TaskId)

variable {U : UpperTable} (P : ConnectorPort U) (Q : PublisherPort)

/-- One `asyncio` task. -/
structure Task where
  /-- the call it is suspended in -/
  call : Option (Pc P Q)
  /-- how its last call ended -/
  last : Option Outcome
  /-- a cancellation is pending -/
  cancelling : Bool
  /-- how the task ended, once it is `done()` -/
  outcome : Option Outcome

structure Sys where
  service : IngestionService P Q
  clients : Nat
  tasks : TaskId → Task P Q

inductive Label where
  | call (t : TaskId) (op : Op)
  | resume (t : TaskId) (w : Resume P)
  | cancel (t : TaskId)
  | exit (t : TaskId) (o : Outcome)

variable {P Q}

/-- Clients that have not called the service yet; consumption tasks, once created, are ready. -/
def Sys.init (connector : P.State) (publisher : Q.State) (maxConsecutiveFailures clients : Nat) :
    Sys P Q where
  service := IngestionService.init P Q connector publisher maxConsecutiveFailures clients
  clients := clients
  tasks t := ⟨if t < clients then none else some .ready, none, false, none⟩

def Sys.outcome (s : Sys P Q) (t : TaskId) : Option Outcome := (s.tasks t).outcome

def Sys.setTask (s : Sys P Q) (t : TaskId) (k : Task P Q) : Sys P Q :=
  { s with tasks := Function.update s.tasks t k }

/-- The task awaited by a suspended call, if it awaits a task. -/
def Pc.awaited : Pc P Q → Option TaskId
  | .connecting _ pc => P.connectAwaits pc
  | .awaiting _ _ b => some b
  | .receiving pc => P.streamAwaits pc
  | _ => none

/-- Where a `cancel()` on task `t` arrives: it is forwarded along awaited, unfinished tasks. -/
def Sys.cancelTarget (s : Sys P Q) : Nat → TaskId → Option TaskId
  | 0, _ => none
  | depth + 1, t =>
    match (s.tasks t).call.bind Pc.awaited with
    | some o => if (s.outcome o).isSome then some t else s.cancelTarget depth o
    | none => some t

/-- `task.cancel()` of a task that is not done. -/
def Sys.cancel (s : Sys P Q) (t : TaskId) : Sys P Q :=
  match s.cancelTarget (s.service.nextTask + 1) t with
  | some u => s.setTask u { s.tasks u with cancelling := true }
  | none => s

/-- A call of task `t` has ended; for a consumption task this is the end of the task. -/
def Sys.endCall (s : Sys P Q) (t : TaskId) (k : Task P Q) (r : Outcome) : Task P Q :=
  if t < s.clients then { k with call := none, last := some r }
  else { k with call := none, outcome := some r }

/-- Write back what a segment of task `t` did. -/
def Sys.settle (s : Sys P Q) (t : TaskId) (k : Task P Q) : IngestionService P Q × Act P Q → Sys P Q
  | (v, .suspend pc) => { s.setTask t { k with call := some pc } with service := v }
  | (v, .cancelling pc b) =>
    Sys.cancel { s.setTask t { k with call := some pc } with service := v } b
  | (v, .finish r) => { s.setTask t (s.endCall t k r) with service := v }

/-- May the suspended call of task `k` be resumed with `w`?  A pending cancellation comes first;
the result of a task awaited in the connector is that task's result. -/
def Sys.admits (s : Sys P Q) (k : Task P Q) (pc : Pc P Q) : Resume P → Bool
  | .timeout => !k.cancelling
  | .wake .cancelled =>
    k.cancelling || pc.awaited.any fun o => s.outcome o == some .cancelled
  | .wake w =>
    !k.cancelling &&
      match pc, w with
      | .awaiting _ _ _, _ => true
      | pc, .done => pc.awaited.all fun o => s.outcome o == some .returned
      | pc, .raised e => pc.awaited.all fun o => s.outcome o == some (.raised e)
      | pc, _ => pc.awaited.isNone

/-- May a client end with `o`? -/
def Task.mayExit (k : Task P Q) : Outcome → Bool
  | .returned => true
  | .raised e => k.last == some (.raised e)
  | .cancelled => k.cancelling || k.last == some .cancelled

/-- One step of the system. -/
def step (s : Sys P Q) : Label P → Option (Sys P Q)
  | .call t op =>
    let k := s.tasks t
    if t < s.clients ∧ k.outcome = none ∧ k.call.isNone then
      some (s.settle t k (call s.outcome s.service t op))
    else none
  | .resume t w =>
    let k := s.tasks t
    match k.call with
    | some pc =>
      if t < s.service.nextTask ∧ k.outcome = none ∧ s.admits k pc w then
        match advance s.outcome s.service t pc w with
        | some r => some (s.settle t { k with cancelling := false } r)
        | none => none
      else none
    | none => none
  | .cancel t =>
    if t < s.service.nextTask ∧ (s.outcome t).isNone then some (s.cancel t) else none
  | .exit t o =>
    let k := s.tasks t
    if t < s.clients ∧ k.outcome = none ∧ k.call.isNone ∧ k.mayExit o then
      some (s.setTask t { k with outcome := some o })
    else none

/-! ## The steps of the system -/

/-- What a step of the system is, label by label. -/
inductive Move (s : Sys P Q) : Label P → Sys P Q → Prop
  | call {t op} : t < s.clients → (s.tasks t).outcome = none → (s.tasks t).call = none →
      Move s (.call t op) (s.settle t (s.tasks t) (call s.outcome s.service t op))
  | resume {t pc w r} : t < s.service.nextTask → (s.tasks t).outcome = none →
      (s.tasks t).call = some pc → s.admits (s.tasks t) pc w = true →
      advance s.outcome s.service t pc w = some r →
      Move s (.resume t w) (s.settle t { s.tasks t with cancelling := false } r)
  | cancel {t} : t < s.service.nextTask → s.outcome t = none → Move s (.cancel t) (s.cancel t)
  | exit {t o} : t < s.clients → (s.tasks t).outcome = none → (s.tasks t).call = none →
      Move s (.exit t o) (s.setTask t { s.tasks t with outcome := some o })

theorem step_move {s s' : Sys P Q} {l : Label P} (h : step s l = some s') : Move s l s' := by
  cases l with
  | call t op =>
    simp only [step, Option.isNone_iff_eq_none] at h
    split at h
    · rename_i hc; cases h; exact .call hc.1 hc.2.1 hc.2.2
    · cases h
  | resume t w =>
    simp only [step] at h
    split at h
    · rename_i pc hpc
      split at h
      · rename_i ha
        split at h
        · rename_i r hr; cases h; exact .resume ha.1 ha.2.1 hpc ha.2.2 hr
        · cases h
      · cases h
    · cases h
  | cancel t =>
    simp only [step, Option.isNone_iff_eq_none] at h
    split at h
    · rename_i hc; cases h; exact .cancel hc.1 hc.2
    · cases h
  | exit t o =>
    simp only [step, Option.isNone_iff_eq_none] at h
    split at h
    · rename_i hc; cases h; exact .exit hc.1 hc.2.1 hc.2.2.1
    · cases h

@[simp] theorem Sys.setTask_self (s : Sys P Q) (t : TaskId) (k : Task P Q) :
    (s.setTask t k).tasks t = k := by simp [Sys.setTask]

theorem Sys.setTask_ne (s : Sys P Q) {t u : TaskId} (h : u ≠ t) (k : Task P Q) :
    (s.setTask t k).tasks u = s.tasks u := by simp [Sys.setTask, h]

/-- `cancel()` sets one flag. -/
theorem Sys.cancel_cases (s : Sys P Q) (t : TaskId) :
    s.cancel t = s ∨ ∃ u, s.cancel t = s.setTask u { s.tasks u with cancelling := true } := by
  unfold Sys.cancel
  split
  · rename_i u _; exact .inr ⟨u, rfl⟩
  · exact .inl rfl

@[simp] theorem Sys.cancel_service (s : Sys P Q) (t : TaskId) :
    (s.cancel t).service = s.service := by
  rcases s.cancel_cases t with h | ⟨u, h⟩ <;> rw [h]; rfl

@[simp] theorem Sys.cancel_clients (s : Sys P Q) (t : TaskId) :
    (s.cancel t).clients = s.clients := by
  rcases s.cancel_cases t with h | ⟨u, h⟩ <;> rw [h]; rfl

theorem Sys.cancel_tasks (s : Sys P Q) (t u : TaskId) :
    ((s.cancel t).tasks u).call = (s.tasks u).call ∧
      ((s.cancel t).tasks u).outcome = (s.tasks u).outcome ∧
      ((s.cancel t).tasks u).last = (s.tasks u).last := by
  rcases s.cancel_cases t with h | ⟨v, h⟩ <;> rw [h]
  · exact ⟨rfl, rfl, rfl⟩
  · by_cases hu : u = v
    · subst hu; rw [Sys.setTask_self]; exact ⟨rfl, rfl, rfl⟩
    · rw [Sys.setTask_ne s hu]; exact ⟨rfl, rfl, rfl⟩

@[simp] theorem Sys.settle_service (s : Sys P Q) (t : TaskId) (k : Task P Q)
    (r : IngestionService P Q × Act P Q) : (s.settle t k r).service = r.1 := by
  obtain ⟨v, a⟩ := r
  cases a with
  | cancelling => simp [Sys.settle]
  | _ => rfl

@[simp] theorem Sys.settle_clients (s : Sys P Q) (t : TaskId) (k : Task P Q)
    (r : IngestionService P Q × Act P Q) : (s.settle t k r).clients = s.clients := by
  obtain ⟨v, a⟩ := r
  cases a with
  | cancelling => simp [Sys.settle, Sys.setTask]
  | _ => rfl

/-- Where a segment leaves its task. -/
def Act.pc : Act P Q → Option (Pc P Q)
  | .suspend pc => some pc
  | .cancelling pc _ => some pc
  | .finish _ => none

/-- The call of the task itself. -/
theorem Sys.settle_call (s : Sys P Q) (t : TaskId) (k : Task P Q)
    (r : IngestionService P Q × Act P Q) : ((s.settle t k r).tasks t).call = r.2.pc := by
  obtain ⟨v, a⟩ := r
  cases a with
  | suspend pc => simp [Sys.settle, Act.pc, Sys.setTask]
  | cancelling pc b => simp [Sys.settle, Act.pc, Sys.setTask, Sys.cancel_tasks]
  | finish o =>
    simp only [Sys.settle, Act.pc, Sys.setTask, Function.update_self, Sys.endCall]
    split <;> rfl

/-- The other tasks keep their calls and outcomes. -/
theorem Sys.settle_ne (s : Sys P Q) {t u : TaskId} (h : u ≠ t) (k : Task P Q)
    (r : IngestionService P Q × Act P Q) :
    ((s.settle t k r).tasks u).call = (s.tasks u).call ∧
      ((s.settle t k r).tasks u).outcome = (s.tasks u).outcome := by
  obtain ⟨v, a⟩ := r
  cases a with
  | cancelling pc b => simp [Sys.settle, Sys.setTask, Sys.cancel_tasks, h]
  | _ => simp [Sys.settle, Sys.setTask, h]

/-- The outcome of the task itself: set when a consumption task ends. -/
theorem Sys.settle_outcome (s : Sys P Q) (t : TaskId) (k : Task P Q)
    (r : IngestionService P Q × Act P Q) :
    ((s.settle t k r).tasks t).outcome =
      match r.2 with
      | .finish o => if t < s.clients then k.outcome else some o
      | _ => k.outcome := by
  obtain ⟨v, a⟩ := r
  cases a with
  | suspend pc => simp [Sys.settle, Sys.setTask]
  | cancelling pc b => simp [Sys.settle, Sys.setTask, Sys.cancel_tasks]
  | finish o =>
    simp only [Sys.settle, Sys.setTask, Function.update_self, Sys.endCall]
    split <;> rfl

/-! ## What a step leaves -/

/-- The state after a segment `r` of task `t`. -/
structure Settled (s s' : Sys P Q) (t : TaskId) (r : IngestionService P Q × Act P Q) : Prop where
  service : s'.service = r.1
  clients : s'.clients = s.clients
  call : (s'.tasks t).call = r.2.pc
  outcome : s'.outcome t = match r.2 with
    | .finish o => if t < s.clients then none else some o
    | _ => none
  others : ∀ u, u ≠ t → (s'.tasks u).call = (s.tasks u).call ∧ s'.outcome u = s.outcome u

theorem Sys.settle_settled (s : Sys P Q) (t : TaskId) {k : Task P Q}
    (r : IngestionService P Q × Act P Q) (h : k.outcome = none) :
    Settled s (s.settle t k r) t r where
  service := s.settle_service t k r
  clients := s.settle_clients t k r
  call := s.settle_call t k r
  outcome := by unfold Sys.outcome; rw [s.settle_outcome, h]
  others u hu := s.settle_ne hu k r

/-- A task that was done is done. -/
theorem Settled.done {s s' : Sys P Q} {t : TaskId} {r : IngestionService P Q × Act P Q}
    (h : Settled s s' t r) (ht : s.outcome t = none) {u : TaskId} {o : Outcome}
    (hu : s.outcome u = some o) : s'.outcome u = some o := by
  have hne : u ≠ t := by rintro rfl; rw [ht] at hu; cases hu
  rw [(h.others u hne).2]; exact hu

/-- **The steps of the system**: a first segment, a later one, or a change that concerns neither
the service nor the suspended calls. -/
inductive Effect (s : Sys P Q) : Label P → Sys P Q → Prop
  | first {t op s'} : t < s.clients → s.outcome t = none → (s.tasks t).call = none →
      Settled s s' t (Service.call s.outcome s.service t op) → Effect s (.call t op) s'
  | later {t pc w r s'} : t < s.service.nextTask → s.outcome t = none →
      (s.tasks t).call = some pc → s.admits (s.tasks t) pc w = true →
      advance s.outcome s.service t pc w = some r → Settled s s' t r →
      Effect s (.resume t w) s'
  | quiet {l s'} : (∀ t w, l ≠ .resume t w) → s'.service = s.service → s'.clients = s.clients →
      (∀ t, (s'.tasks t).call = (s.tasks t).call) →
      (∀ t, s'.outcome t = s.outcome t ∨ t < s.clients ∧ s.outcome t = none) → Effect s l s'

theorem step_effect {s s' : Sys P Q} {l : Label P} (h : step s l = some s') : Effect s l s' := by
  cases step_move h with
  | call ht ho hc => exact .first ht ho hc (s.settle_settled _ _ ho)
  | resume ht ho hc ha hr => exact .later ht ho hc ha hr (s.settle_settled _ _ ho)
  | cancel ht ho =>
    exact .quiet nofun (s.cancel_service _) (s.cancel_clients _) (fun u => (s.cancel_tasks _ u).1)
      fun u => .inl (s.cancel_tasks _ u).2.1
  | @exit t o ht ho hc =>
    refine .quiet nofun rfl rfl (fun u => ?_) fun u => ?_
    · by_cases hu : u = t
      · subst hu; rw [Sys.setTask_self]
      · rw [Sys.setTask_ne s hu]
    · by_cases hu : u = t
      · subst hu; exact .inr ⟨ht, ho⟩
      · left; unfold Sys.outcome; rw [Sys.setTask_ne s hu]

end FlinkPractices.Service
