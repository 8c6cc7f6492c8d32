import Mathlib.Data.List.Nodup
import Mathlib.Logic.Function.Basic
import Mathlib.Logic.Relation

/-!
# A fair cooperative lock (`asyncio.Lock`)

The lock of a cooperative scheduler: the task that holds it and the first-in first-out queue of
the tasks suspended in `acquire()`.  `acquire()` does not suspend when the lock is free and
nobody queues; `release()` frees the lock, and the head of the queue takes it when it runs.

A task's use of the lock is a path of `LockStep`s over its `Status` (idle, waiting, holding); the
task's own code decides which operation it calls in which status, and the program that uses the lock
only has to say what its code does as such a path.

* `Coherent` — the lock agrees with the status of every task
* `InOrder` — it serves the tasks in the order in which they asked for it (their `age`)
* `Use` — what a task does with the lock between two suspensions, if it asks for it only at first

Principal results:

* `Coherent.steps` — whatever one task does with the lock, coherence is kept
* `Coherent.mutex` — at most one task holds it
* `Use.inOrder` — the lock stays in order if a task that asks for it is younger than those before it
-/

set_option autoImplicit false

namespace FlinkPractices.Lib

variable {τ : Type*}

structure AsyncLock (τ : Type*) where
  owner : Option τ
  waiters : List τ
  deriving DecidableEq, Repr

namespace AsyncLock

/-- A new lock: free, nobody waiting. -/
def free : AsyncLock τ := ⟨none, []⟩

/-- `acquire()` without suspension. -/
def tryAcquire (k : AsyncLock τ) (t : τ) : Option (AsyncLock τ) :=
  if k.owner = none ∧ k.waiters = [] then some ⟨some t, []⟩ else none

/-- `acquire()` suspends: the task joins the queue. -/
def enqueue (k : AsyncLock τ) (t : τ) : AsyncLock τ := { k with waiters := k.waiters ++ [t] }

def release (k : AsyncLock τ) : AsyncLock τ := { k with owner := none }

/-- Where one task stands with the lock. -/
inductive Status where
  | idle
  | waiting
  | holding
  deriving DecidableEq, Repr

/-- The lock agrees with the status of every task. -/
structure Coherent (k : AsyncLock τ) (st : τ → Status) : Prop where
  owner : ∀ t, k.owner = some t ↔ st t = .holding
  waiters : ∀ t, t ∈ k.waiters ↔ st t = .waiting
  nodup : k.waiters.Nodup

theorem coherent_free : Coherent (free : AsyncLock τ) (fun _ => .idle) :=
  ⟨fun t => by simp [AsyncLock.free], fun t => by simp [AsyncLock.free], List.nodup_nil⟩

/-- At most one task holds the lock. -/
theorem Coherent.mutex {k : AsyncLock τ} {st : τ → Status} (h : Coherent k st) {t u : τ}
    (ht : st t = .holding) (hu : st u = .holding) : t = u := by
  have h₁ := (h.owner t).2 ht
  have h₂ := (h.owner u).2 hu
  rw [h₁] at h₂; exact Option.some.inj h₂

/-- With no holder and no waiter the lock is free. -/
theorem Coherent.eq_free {k : AsyncLock τ} {st : τ → Status} (h : Coherent k st)
    (hi : ∀ t, st t = .idle) : k = AsyncLock.free := by
  have ho : k.owner = none := Option.eq_none_iff_forall_ne_some.2 fun t ht => by
    have := (h.owner t).1 ht; rw [hi t] at this; cases this
  have hw : k.waiters = [] := List.eq_nil_iff_forall_not_mem.2 fun t ht => by
    have := (h.waiters t).1 ht; rw [hi t] at this; cases this
  cases k; cases ho; cases hw; rfl

theorem tryAcquire_free (t : τ) : (free : AsyncLock τ).tryAcquire t = some ⟨some t, []⟩ := by
  simp [tryAcquire, free]

theorem tryAcquire_some {k k' : AsyncLock τ} {t : τ} (h : k.tryAcquire t = some k') :
    k.owner = none ∧ k.waiters = [] ∧ k' = ⟨some t, []⟩ := by
  unfold tryAcquire at h
  split at h
  · rename_i hf; cases h; exact ⟨hf.1, hf.2, rfl⟩
  · cases h

variable [DecidableEq τ]

/-- The suspended `acquire()` of `t` goes on: the lock is free and `t` heads the queue. -/
def wake (k : AsyncLock τ) (t : τ) : Option (AsyncLock τ) :=
  match k.owner, k.waiters with
  | none, u :: us => if u = t then some ⟨some t, us⟩ else none
  | _, _ => none

/-- A suspended `acquire()` is cancelled. -/
def abandon (k : AsyncLock τ) (t : τ) : AsyncLock τ := { k with waiters := k.waiters.erase t }

/-- One operation of the task `t` on the lock, with its status before and after. -/
inductive LockStep (t : τ) : AsyncLock τ × Status → AsyncLock τ × Status → Prop
  | acquire {k k'} : k.tryAcquire t = some k' → LockStep t (k, .idle) (k', .holding)
  | enqueue {k} : LockStep t (k, .idle) (k.enqueue t, .waiting)
  | wake {k k'} : k.wake t = some k' → LockStep t (k, .waiting) (k', .holding)
  | release {k} : LockStep t (k, .holding) (k.release, .idle)
  | abandon {k} : LockStep t (k, .waiting) (k.abandon t, .idle)

/-- A path of operations of one task. -/
abbrev LockSteps (t : τ) := Relation.ReflTransGen (LockStep t)

theorem wake_some {k k' : AsyncLock τ} {t : τ} (h : k.wake t = some k') :
    k.owner = none ∧ k.waiters = t :: k'.waiters ∧ k'.owner = some t := by
  unfold wake at h
  split at h
  · rename_i u us ho hw
    split at h
    · rename_i hu; cases h; exact ⟨ho, by rw [hw, hu], rfl⟩
    · cases h
  · cases h

/-- **One operation of one task keeps the lock coherent.** -/
theorem Coherent.step {k k' : AsyncLock τ} {st : τ → Status} {t : τ} {s' : Status}
    (h : Coherent k st) (hs : LockStep t (k, st t) (k', s')) :
    Coherent k' (Function.update st t s') := by
  have upd : ∀ u, u ≠ t → Function.update st t s' u = st u :=
    fun u hu => Function.update_of_ne hu _ _
  have updt : Function.update st t s' t = s' := Function.update_self _ _ _
  generalize hst : st t = s at hs
  cases hs with
  | acquire ha =>
    obtain ⟨ho, hw, rfl⟩ := tryAcquire_some ha
    have hne : ∀ u, st u ≠ .holding := fun u hu => by
      have := (h.owner u).2 hu; rw [ho] at this; cases this
    have hnw : ∀ u, st u ≠ .waiting := fun u hu => by
      have := (h.waiters u).2 hu; rw [hw] at this; cases this
    refine ⟨fun u => ?_, fun u => ?_, List.nodup_nil⟩
    · by_cases hu : u = t
      · subst hu; simp
      · simp [upd u hu, hne u, Ne.symm hu]
    · by_cases hu : u = t
      · subst hu; simp
      · simp [upd u hu, hnw u]
  | enqueue =>
    have htw : t ∉ k.waiters := fun hm => by
      have := (h.waiters t).1 hm; rw [hst] at this; cases this
    refine ⟨fun u => ?_, fun u => ?_, ?_⟩
    · by_cases hu : u = t
      · subst hu; rw [updt]; simpa [AsyncLock.enqueue, hst] using h.owner u
      · rw [upd u hu]; exact h.owner u
    · by_cases hu : u = t
      · subst hu; simp [AsyncLock.enqueue]
      · rw [upd u hu, ← h.waiters u]; simp [AsyncLock.enqueue, hu]
    · simp only [AsyncLock.enqueue, List.nodup_append, List.nodup_singleton, true_and]
      refine ⟨h.nodup, fun a ha b hb => ?_⟩
      simp only [List.mem_singleton] at hb
      subst hb; rintro rfl; exact htw ha
  | wake ha =>
    obtain ⟨ho, hw, ho'⟩ := wake_some ha
    have hnd := h.nodup
    rw [hw, List.nodup_cons] at hnd
    have hne : ∀ u, st u ≠ .holding := fun u hu => by
      have := (h.owner u).2 hu; rw [ho] at this; cases this
    refine ⟨fun u => ?_, fun u => ?_, hnd.2⟩
    · by_cases hu : u = t
      · subst hu; simp [ho']
      · simp [upd u hu, hne u, ho', Ne.symm hu]
    · by_cases hu : u = t
      · subst hu; simp [hnd.1]
      · rw [upd u hu, ← h.waiters u, hw]; simp [hu]
  | release =>
    refine ⟨fun u => ?_, fun u => ?_, h.nodup⟩
    · by_cases hu : u = t
      · subst hu; simp [AsyncLock.release]
      · have hne : st u ≠ .holding := fun hh => hu (h.mutex hh hst)
        simp [upd u hu, hne, AsyncLock.release]
    · by_cases hu : u = t
      · subst hu; rw [updt]; simpa [AsyncLock.release, hst] using h.waiters u
      · rw [upd u hu]; exact h.waiters u
  | abandon =>
    refine ⟨fun u => ?_, fun u => ?_, h.nodup.erase t⟩
    · by_cases hu : u = t
      · subst hu; rw [updt]; simpa [AsyncLock.abandon, hst] using h.owner u
      · rw [upd u hu]; exact h.owner u
    · by_cases hu : u = t
      · subst hu; rw [updt]; simp [AsyncLock.abandon, h.nodup.mem_erase_iff]
      · rw [upd u hu, ← h.waiters u]; simp [AsyncLock.abandon, List.mem_erase_of_ne hu]

/-- **Whatever one task does with the lock, the lock stays coherent.** -/
theorem Coherent.steps {k k' : AsyncLock τ} {st : τ → Status} {t : τ} {s' : Status}
    (h : Coherent k st) (hs : LockSteps t (k, st t) (k', s')) :
    Coherent k' (Function.update st t s') := by
  generalize hp : (k', s') = p at hs
  induction hs generalizing k' s' with
  | refl => cases hp; simpa using h
  | @tail q r _ hlast ih =>
    obtain ⟨k₁, s₁⟩ := q
    subst hp
    have h₁ := ih rfl
    have hstep : LockStep t (k₁, Function.update st t s₁ t) (k', s') := by simpa using hlast
    simpa using h₁.step hstep

/-! ## First come, first served -/

/-- The lock serves its tasks by `age`, the time at which they asked for it: the queue is sorted,
and whoever holds the lock has asked before the queue. -/
structure InOrder (k : AsyncLock τ) (age : τ → Nat) : Prop where
  waiters : k.waiters.Pairwise fun t u => age t < age u
  owner : ∀ t, k.owner = some t → ∀ u ∈ k.waiters, age t < age u

/-- The task `t`, with status `st`, gets the lock, or has it. -/
def Gets (t : τ) (k : AsyncLock τ) (st : Status) (l : AsyncLock τ) : Prop :=
  (st = .holding ∧ l = k) ∨ LockStep t (k, st) (l, .holding)

/-- What a task does with the lock between two suspensions, if it asks for it only at first. -/
inductive Use (t : τ) (k : AsyncLock τ) : Status → AsyncLock τ → Status → Prop
  | keep {st} : Use t k st k st
  | queue : Use t k .idle (k.enqueue t) .waiting
  | leave : Use t k .waiting (k.abandon t) .idle
  | take {st l} : Gets t k st l → Use t k st l .holding
  | pass {st l} : Gets t k st l → Use t k st l.release .idle

theorem Gets.steps {t : τ} {k l : AsyncLock τ} {st : Status} (h : Gets t k st l) :
    LockSteps t (k, st) (l, .holding) := by
  rcases h with ⟨rfl, rfl⟩ | h
  · exact .refl
  · exact .single h

theorem Use.steps {t : τ} {k k' : AsyncLock τ} {st st' : Status} (h : Use t k st k' st') :
    LockSteps t (k, st) (k', st') := by
  cases h with
  | keep => exact .refl
  | queue => exact .single .enqueue
  | leave => exact .single .abandon
  | take h => exact h.steps
  | pass h => exact h.steps.tail .release

theorem LockStep.use {t : τ} {k k' : AsyncLock τ} {st st' : Status}
    (h : LockStep t (k, st) (k', st')) : Use t k st k' st' := by
  cases h with
  | acquire h => exact .take (.inr (.acquire h))
  | enqueue => exact .queue
  | wake h => exact .take (.inr (.wake h))
  | release => exact .pass (.inl ⟨rfl, rfl⟩)
  | abandon => exact .leave

/-- Whoever has the lock can only release it. -/
theorem LockStep.of_holding {t : τ} {k k' : AsyncLock τ} {st : Status}
    (h : LockStep t (k, .holding) (k', st)) : k' = k.release ∧ st = .idle := by
  cases h with
  | release => exact ⟨rfl, rfl⟩

/-- What remains of the queue was there before, but for the task itself. -/
theorem Use.waiters {t u : τ} {k k' : AsyncLock τ} {st st' : Status} (h : Use t k st k' st')
    (hu : u ∈ k'.waiters) : u ∈ k.waiters ∨ st = .idle ∧ u = t := by
  have gets : ∀ {l}, Gets t k st l → u ∈ l.waiters → u ∈ k.waiters := by
    rintro l (⟨-, rfl⟩ | hl) hm
    · exact hm
    · cases hl with
      | acquire ha =>
        obtain ⟨-, -, rfl⟩ := tryAcquire_some ha
        cases hm
      | wake hw =>
        obtain ⟨-, hk, -⟩ := wake_some hw
        rw [hk]
        exact List.mem_cons_of_mem _ hm
  cases h with
  | keep => exact .inl hu
  | queue =>
    rcases List.mem_append.1 hu with hu | hu
    · exact .inl hu
    · exact .inr ⟨rfl, List.mem_singleton.1 hu⟩
  | leave => exact .inl (List.mem_of_mem_erase hu)
  | take h => exact .inl (gets h hu)
  | pass h => exact .inl (gets h hu)

section

variable {age : τ → Nat} {t : τ} {k k' l : AsyncLock τ} {st st' : Status}

/-- Whoever has the lock has asked for it before the queue. -/
theorem Gets.older (h : Gets t k st l) (ho : k.InOrder age)
    (hs : st = .holding → k.owner = some t) : ∀ u ∈ l.waiters, age t < age u := by
  rcases h with ⟨hst, rfl⟩ | h
  · exact ho.owner t (hs hst)
  · cases h with
    | acquire ha =>
      obtain ⟨-, -, rfl⟩ := tryAcquire_some ha
      exact fun _ hu => (by cases hu)
    | wake hw =>
      obtain ⟨-, hk, -⟩ := wake_some hw
      have hp := ho.waiters
      rw [hk] at hp
      exact (List.pairwise_cons.1 hp).1

theorem Gets.inOrder (h : Gets t k st l) (ho : k.InOrder age)
    (hs : st = .holding → k.owner = some t) : l.InOrder age := by
  have hold := h.older ho hs
  rcases h with ⟨-, rfl⟩ | h
  · exact ho
  · cases h with
    | acquire ha =>
      obtain ⟨-, -, rfl⟩ := tryAcquire_some ha
      exact ⟨.nil, fun _ _ _ hu => (by cases hu)⟩
    | wake hw =>
      obtain ⟨-, hk, hl⟩ := wake_some hw
      have hp := ho.waiters
      rw [hk] at hp
      refine ⟨(List.pairwise_cons.1 hp).2, fun u hu => ?_⟩
      rw [hl] at hu
      cases hu
      exact hold

/-- **The lock stays in order** if a task that asks for it is younger than those before it. -/
theorem Use.inOrder (h : Use t k st k' st') (ho : k.InOrder age)
    (hs : st = .holding → k.owner = some t)
    (hnew : st = .idle → ∀ u, u ∈ k.waiters ∨ k.owner = some u → age u < age t) :
    k'.InOrder age := by
  cases h with
  | keep => exact ho
  | queue =>
    refine ⟨List.pairwise_append.2 ⟨ho.waiters, List.pairwise_singleton _ _, fun a ha b hb => ?_⟩,
      fun u hu v hv => ?_⟩
    · rw [List.mem_singleton.1 hb]
      exact hnew rfl a (.inl ha)
    · rcases List.mem_append.1 hv with hv | hv
      · exact ho.owner u hu v hv
      · rw [List.mem_singleton.1 hv]
        exact hnew rfl u (.inr hu)
  | leave =>
    exact ⟨ho.waiters.sublist List.erase_sublist,
      fun u hu v hv => ho.owner u hu v (List.mem_of_mem_erase hv)⟩
  | take h => exact h.inOrder ho hs
  | pass h => exact ⟨(h.inOrder ho hs).waiters, fun _ hu => (by cases hu)⟩

omit [DecidableEq τ] in
/-- Only the ages of the tasks at the lock matter. -/
theorem InOrder.congr {age' : τ → Nat} (h : k.InOrder age)
    (he : ∀ u, u ∈ k.waiters ∨ k.owner = some u → age' u = age u) : k.InOrder age' := by
  refine ⟨h.waiters.imp_of_mem fun ha hb hab => ?_, fun t ht u hu => ?_⟩
  · rw [he _ (.inl ha), he _ (.inl hb)]
    exact hab
  · rw [he t (.inr ht), he u (.inl hu)]
    exact h.owner t ht u hu

end

end AsyncLock

end FlinkPractices.Lib
