import FlinkPractices.Connector.Flow
import FlinkPractices.Connector.Tasks

/-!
# Invariants of any number of tasks

`Sys.point` reads off where every task stands in the control-flow graph of `Connector.Flow`.  An
assertion `J` about these places and the connector is an invariant of the system once each edge of
the graph keeps it (`Keeps`); `Keeps.step` is the rule, used by every invariant of the connector.

`Keeps` asks for five things: that every edge of every task keeps `J`, and that `J` survives a call
being made, a task being resumed, a generator asked for its next message, and a segment ending.  It
takes a guard on the steps, so that the same rule serves runs of one task, runs without cancellation
and runs of the whole system.

The first instance, `Disciplined`, holds of every run whatever the tasks do:

* the lock agrees with where the tasks stand, so at most one is under it (`Disciplined.mutex`);
* `_connecting_task` is set exactly to the task inside the `try` of `connect()`;
* the second `await self._connecting_task` of `connect()`, under the lock, is never reached.

Principal results:

* `reachable_disciplined` — that instance, in every reachable state
* `step_move` — what a step of the system is, label by label, for proofs that need more than an
  invariant (`Move` has one constructor for each)
* `step_doneIdle` — a task that is done has no call in progress
-/

set_option autoImplicit false

namespace FlinkPractices.Connector

open Lib Function

variable {U : UpperTable} {S : Subclass} {cfg : ExchangeConfig U}

/-! ## The steps of the system -/

/-- Where task `t` stands. -/
def Sys.point (s : Sys S) (t : TaskId) : Point S :=
  match (s.tasks t).call with
  | some pc => .suspended pc
  | none => .idle

/-- Where a task stands once its segment is over. -/
def Point.rest : Point S → Point S
  | .finished _ => .idle
  | .yielded _ _ => .idle
  | p => p

/-- What a step of the system is, label by label. -/
inductive Move (cfg : ExchangeConfig U) (s : Sys S) : Label S → Sys S → Prop
  | call {t op} : (s.tasks t).outcome = none → (s.tasks t).call = none →
      Move cfg s (.call t op) (s.settle t (s.tasks t) (enter cfg s.isDone s.conn t op))
  | next {t ms} : (s.tasks t).outcome = none → (s.tasks t).call = none →
      (s.tasks t).generator = some ms →
      Move cfg s (.next t) (s.settle t { s.tasks t with generator := none }
        (yieldMessages cfg s.isDone s.conn t ms))
  | resume {t pc w r} : (s.tasks t).call = some pc → s.admits (s.tasks t) pc w = true →
      advance cfg s.isDone s.conn t pc w = some r →
      Move cfg s (.resume t w) (s.settle t { s.tasks t with cancelling := false } r)
  | cancel {t depth u} : s.isDone t = false → s.cancelTarget depth t = some u →
      Move cfg s (.cancel t depth) (s.setTask u { s.tasks u with cancelling := true })
  | exit {t o} : (s.tasks t).outcome = none → (s.tasks t).call = none →
      (s.tasks t).mayExit o = true →
      Move cfg s (.exit t o)
        (s.setTask t { s.tasks t with generator := none, outcome := some o })

theorem step_move {s s' : Sys S} {l : Label S} (h : step cfg s l = some s') :
    Move cfg s l s' := by
  cases l with
  | call t op =>
    simp only [step, Option.isNone_iff_eq_none] at h
    split at h
    · rename_i hc; cases h; exact .call hc.1 hc.2
    · cases h
  | next t =>
    simp only [step, Option.isNone_iff_eq_none] at h
    split at h
    · rename_i hc
      split at h
      · rename_i ms hm; cases h; exact .next hc.1 hc.2 hm
      · cases h
    · cases h
  | resume t w =>
    simp only [step] at h
    split at h
    · rename_i pc hpc
      split at h
      · rename_i ha
        split at h
        · rename_i r hr; cases h; exact .resume hpc ha hr
        · cases h
      · cases h
    · cases h
  | cancel t depth =>
    simp only [step] at h
    split at h
    · cases h
    · rename_i hd
      split at h
      · rename_i u hu; cases h; exact .cancel (by simpa using hd) hu
      · cases h
  | exit t o =>
    simp only [step, Option.isNone_iff_eq_none] at h
    split at h
    · rename_i hc; cases h; exact .exit hc.1 hc.2.1 hc.2.2
    · cases h

theorem Sys.point_idle {s : Sys S} {t : TaskId} : s.point t = .idle ↔ (s.tasks t).call = none := by
  unfold Sys.point
  cases h : (s.tasks t).call <;> simp

theorem Sys.point_suspended {s : Sys S} {t : TaskId} {pc : Pc S} :
    s.point t = .suspended pc ↔ (s.tasks t).call = some pc := by
  unfold Sys.point
  cases h : (s.tasks t).call <;> simp

/-- A step that leaves the calls of the tasks alone leaves them where they are. -/
theorem Sys.point_congr {s s' : Sys S} (h : ∀ t, (s'.tasks t).call = (s.tasks t).call) :
    s'.point = s.point := by
  funext t; unfold Sys.point; rw [h t]

theorem Sys.point_setTask {s : Sys S} {t : TaskId} {k : Task S} (h : k.call = (s.tasks t).call) :
    (s.setTask t k).point = s.point := by
  refine Sys.point_congr fun u => ?_
  by_cases hu : u = t
  · subst hu; simp [Sys.setTask, h]
  · simp [Sys.setTask, hu]

@[simp] theorem Sys.setTask_self (s : Sys S) (t : TaskId) (k : Task S) :
    (s.setTask t k).tasks t = k := by simp [Sys.setTask]

theorem Sys.setTask_ne (s : Sys S) {t u : TaskId} (h : u ≠ t) (k : Task S) :
    (s.setTask t k).tasks u = s.tasks u := by simp [Sys.setTask, h]

theorem Sys.settle_conn (s : Sys S) (t : TaskId) (k : Task S) (r : Conn S × Act S) :
    (s.settle t k r).conn = r.1 := by
  obtain ⟨c, a⟩ := r; cases a <;> rfl

theorem Sys.settle_point (s : Sys S) (t : TaskId) (k : Task S) (r : Conn S × Act S) :
    (s.settle t k r).point = update s.point t r.2.point.rest := by
  obtain ⟨c, a⟩ := r
  funext u
  by_cases hu : u = t
  · subst hu; cases a <;> simp [Sys.point, Sys.settle, Sys.setTask, Act.point, Point.rest]
  · cases a <;> simp [Sys.point, Sys.settle, Sys.setTask, hu]

/-- Other tasks are not touched. -/
theorem Sys.settle_tasks_ne (s : Sys S) {t u : TaskId} (h : u ≠ t) (k : Task S)
    (r : Conn S × Act S) : (s.settle t k r).tasks u = s.tasks u := by
  obtain ⟨c, a⟩ := r; cases a <;> simp [Sys.settle, Sys.setTask, h]

theorem Sys.settle_outcome (s : Sys S) (t : TaskId) (k : Task S) (r : Conn S × Act S) :
    ((s.settle t k r).tasks t).outcome = k.outcome := by
  obtain ⟨c, a⟩ := r; cases a <;> simp [Sys.settle, Sys.setTask]

/-! ## Tasks that are done -/

/-- A task that is done has no call in progress, and its generator is closed. -/
def Sys.DoneIdle (s : Sys S) : Prop :=
  ∀ t, s.isDone t = true → (s.tasks t).call = none ∧ (s.tasks t).generator = none

theorem Sys.DoneIdle.settle {s : Sys S} (h : s.DoneIdle) {t : TaskId} {k : Task S}
    {r : Conn S × Act S} (hk : k.outcome = none) : (s.settle t k r).DoneIdle := by
  intro u hu
  by_cases hut : u = t
  · subst hut
    rw [Sys.isDone, Sys.settle_outcome, hk] at hu
    cases hu
  · rw [Sys.isDone, Sys.settle_tasks_ne s hut] at hu
    rw [Sys.settle_tasks_ne s hut]; exact h u hu

theorem Sys.DoneIdle.setTask {s : Sys S} (h : s.DoneIdle) {t : TaskId} {k : Task S}
    (hk : k.outcome.isSome = true → k.call = none ∧ k.generator = none) :
    (s.setTask t k).DoneIdle := by
  intro u hu
  by_cases hut : u = t
  · subst hut
    rw [Sys.isDone, Sys.setTask_self] at hu
    rw [Sys.setTask_self]; exact hk hu
  · rw [Sys.isDone, Sys.setTask_ne s hut] at hu
    rw [Sys.setTask_ne s hut]; exact h u hu

/-- A task in the middle of a call, or with an open generator, is not done. -/
theorem Sys.DoneIdle.outcome {s : Sys S} (h : s.DoneIdle) {t : TaskId}
    (hc : (s.tasks t).call ≠ none ∨ (s.tasks t).generator ≠ none) :
    (s.tasks t).outcome = none := by
  cases ho : (s.tasks t).outcome with
  | none => rfl
  | some o =>
    obtain ⟨h₁, h₂⟩ := h t (by rw [Sys.isDone, ho]; rfl)
    rcases hc with hc | hc
    · exact absurd h₁ hc
    · exact absurd h₂ hc

theorem step_doneIdle {s s' : Sys S} {l : Label S} (h : s.DoneIdle)
    (hs : step cfg s l = some s') : s'.DoneIdle := by
  cases step_move hs with
  | call ho _ => exact h.settle ho
  | next ho _ _ => exact h.settle ho
  | resume hc _ _ => exact h.settle (h.outcome (.inl (by rw [hc]; nofun)))
  | @cancel t d u _ _ => exact h.setTask fun hd => h u hd
  | exit _ hc _ => exact h.setTask fun _ => ⟨hc, rfl⟩

theorem doneIdle_init (inst : S.Inst) : (Sys.init S inst).DoneIdle := fun _ hd => by cases hd

/-! ## The invariant rule -/

/-- `J` is kept by every edge of the control-flow graph, and by a call being made, resumed or
left, in steps that meet `G`. -/
structure Keeps (cfg : ExchangeConfig U) (G : Sys S → Label S → Prop)
    (J : (TaskId → Point S) → Conn S → Prop) : Prop where
  edge : ∀ {isDone t p P c P' c'}, Edge cfg isDone t P c P' c' →
    J (update p t P) c → J (update p t P') c'
  call : ∀ {s t op}, G s (.call t op) → s.point t = .idle → J s.point s.conn →
    J (update s.point t (.enter op)) s.conn
  next : ∀ {s t ms}, G s (.next t) → s.point t = .idle → (s.tasks t).generator = some ms →
    J s.point s.conn → J (update s.point t (.generator ms)) s.conn
  resume : ∀ {s t pc w}, G s (.resume t w) → s.point t = .suspended pc → J s.point s.conn →
    J (update s.point t (.resumed pc w)) s.conn
  rest : ∀ {p t c} {P : Point S}, J (update p t P) c → J (update p t P.rest) c

/-- The step calls none of the subclass's own coroutines. -/
def NoOwn (_ : Sys S) (l : Label S) : Prop := ∀ t o, l ≠ .call t (.own o)

namespace Keeps

variable {G : Sys S → Label S → Prop} {J : (TaskId → Point S) → Conn S → Prop}

theorem weaken {G' : Sys S → Label S → Prop} (h : Keeps cfg G J)
    (hG : ∀ s l, G' s l → G s l) : Keeps cfg G' J where
  edge := h.edge
  call hg := h.call (hG _ _ hg)
  next hg := h.next (hG _ _ hg)
  resume hg := h.resume (hG _ _ hg)
  rest := h.rest

theorem path (h : Keeps cfg G J) {isDone : TaskId → Bool} {t : TaskId} {p : TaskId → Point S}
    {x y : Point S × Conn S} (hp : Path cfg isDone t x y) (hx : J (update p t x.1) x.2) :
    J (update p t y.1) y.2 := by
  induction hp with
  | refl => exact hx
  | tail _ he ih => exact h.edge he ih

/-- The end of a segment, written back. -/
theorem settle (h : Keeps cfg G J) {s : Sys S} {t : TaskId} {k : Task S} {P : Point S}
    {r : Conn S × Act S} (hp : Path cfg s.isDone t (P, s.conn) (r.2.point, r.1))
    (hJ : J (update s.point t P) s.conn) :
    J (s.settle t k r).point (s.settle t k r).conn := by
  rw [Sys.settle_conn, Sys.settle_point]
  exact h.rest (h.path hp hJ)

/-- **Invariant rule of the connector.** -/
theorem step (h : Keeps cfg G J) {s s' : Sys S} {l : Label S} (hg : G s l)
    (hJ : J s.point s.conn) (hs : step cfg s l = some s') : J s'.point s'.conn := by
  cases step_move hs with
  | call _ hc => exact h.settle (enter_path _ _) (h.call hg (Sys.point_idle.2 hc) hJ)
  | next _ hc hm => exact h.settle (yieldMessages_path _ _) (h.next hg (Sys.point_idle.2 hc) hm hJ)
  | resume hc _ hr => exact h.settle (advance_path hr) (h.resume hg (Sys.point_suspended.2 hc) hJ)
  | cancel => rw [Sys.point_setTask (by rfl)]; exact hJ
  | exit => rw [Sys.point_setTask (by rfl)]; exact hJ

end Keeps

/-! ## The lock and the connecting task -/

/-- Where a suspended call stands with the lock. -/
def Pc.lockStatus : Pc S → AsyncLock.Status
  | .connect _ (.awaitTask _) => .idle
  | .connect _ .lock => .waiting
  | .connect _ _ => .holding
  | .disconnectLock => .waiting
  | .disconnectClosing _ => .holding
  | _ => .idle

def Point.lockStatus : Point S → AsyncLock.Status
  | .suspended pc => pc.lockStatus
  | .resumed pc _ => pc.lockStatus
  | .locked _ => .holding
  | .attempt _ => .holding
  | .sent _ _ => .holding
  | .failed _ => .holding
  | .disconnectLocked => .holding
  | .disconnectFinish => .holding
  | _ => .idle

/-- Inside the `try` of `connect()`. -/
def Pc.attempting : Pc S → Bool
  | .connect _ .dialing => true
  | .connect _ (.sending _ _ _) => true
  | .connect _ (.closing _) => true
  | _ => false

def Point.attempting : Point S → Bool
  | .suspended pc => pc.attempting
  | .resumed pc _ => pc.attempting
  | .attempt _ => true
  | .sent _ _ => true
  | .failed _ => true
  | _ => false

/-- At the second `await self._connecting_task` of `connect()`, the one under the lock. -/
def Pc.awaitsUnderLock : Pc S → Bool
  | .connect _ (.awaitTaskLocked _) => true
  | _ => false

def Point.awaitsUnderLock : Point S → Bool
  | .suspended pc => pc.awaitsUnderLock
  | .resumed pc _ => pc.awaitsUnderLock
  | _ => false

/-- The lock agrees with where the tasks stand, and `_connecting_task` is the task inside the
`try` of `connect()`; so nobody finds it set under the lock. -/
structure Disciplined (p : TaskId → Point S) (c : Conn S) : Prop where
  lock : c.connectLock.Coherent fun t => (p t).lockStatus
  connecting : ∀ t, c.connectingTask = some t ↔ (p t).attempting = true
  notAwaiting : ∀ t, (p t).awaitsUnderLock = false

theorem Point.attempting_holding {P : Point S} (h : P.attempting = true) :
    P.lockStatus = .holding := by
  cases P with
  | suspended pc => cases pc with
    | connect k pc => cases pc <;> first | rfl | cases h
    | _ => cases h
  | resumed pc w => cases pc with
    | connect k pc => cases pc <;> first | rfl | cases h
    | _ => cases h
  | _ => first | rfl | cases h

/-- At most one task is under the lock. -/
theorem Disciplined.mutex {p : TaskId → Point S} {c : Conn S} (h : Disciplined p c)
    {t u : TaskId} (ht : (p t).lockStatus = .holding) (hu : (p u).lockStatus = .holding) :
    t = u :=
  h.lock.mutex ht hu

/-- What an edge does with the lock is a path of operations of its task. -/
theorem Edge.lockSteps {isDone : TaskId → Bool} {t : TaskId} {P P' : Point S} {c c' : Conn S}
    (h : Edge cfg isDone t P c P' c') :
    AsyncLock.LockSteps t (c.connectLock, P.lockStatus) (c'.connectLock, P'.lockStatus) := by
  cases h
  case acquire hl => exact .single (.acquire hl)
  case queue => exact .single .enqueue
  case lockWoken hl => exact .single (.wake hl)
  case lockCancelled => exact .single .abandon
  case disconnectAcquire hl => exact .single (.acquire hl)
  case disconnectQueue => exact .single .enqueue
  case disconnectWoken hl => exact .single (.wake hl)
  case disconnectLockCancelled => exact .single .abandon
  -- the edges that leave the lock, and those that do not touch it
  all_goals first | exact .refl | exact .single .release

theorem connectFinally_connecting {c : Conn S} {t : TaskId} (h : c.connectingTask = some t) :
    (connectFinally c t).connectingTask = none := by
  simp [connectFinally, h]

/-- What an edge does with `_connecting_task`. -/
theorem Edge.connecting {isDone : TaskId → Bool} {t : TaskId} {P P' : Point S} {c c' : Conn S}
    (h : Edge cfg isDone t P c P' c') (ht : c.connectingTask = some t ↔ P.attempting = true) :
    (c'.connectingTask = c.connectingTask ∧ P'.attempting = P.attempting) ∨
    (P.attempting = true ∧ P'.attempting = false ∧ c'.connectingTask = none) ∨
    (P.lockStatus = .holding ∧ P'.attempting = true ∧ c'.connectingTask = some t) := by
  cases h
  case lockedAttempt => exact .inr (.inr ⟨rfl, rfl, rfl⟩)
  case lockedRaised => exact .inr (.inr ⟨rfl, rfl, rfl⟩)
  -- the ends of an attempt run the `finally` block
  case connected | failNone | failInvalid | dialCancelled | sendCancelled | closeReturned |
      closeRaised | closeCancelled =>
    exact .inr (.inl ⟨rfl, rfl, connectFinally_connecting (ht.2 rfl)⟩)
  all_goals exact .inl ⟨rfl, rfl⟩

/-- The second `await self._connecting_task` is reached only by a task that sees another one in
flight from under the lock. -/
theorem Edge.awaitsUnderLock {isDone : TaskId → Bool} {t : TaskId} {P P' : Point S}
    {c c' : Conn S} (h : Edge cfg isDone t P c P' c') (ha : P'.awaitsUnderLock = true) :
    P.lockStatus = .holding ∧ P.attempting = false ∧ c.connectingTask.isSome = true := by
  cases h
  case lockedAwait o _ ho =>
    refine ⟨rfl, rfl, ?_⟩
    unfold inFlight at ho
    split at ho
    · rename_i u hu; rw [hu]; rfl
    · cases ho
  all_goals cases ha

theorem Edge.disciplined {isDone : TaskId → Bool} {t : TaskId} {p : TaskId → Point S}
    {P P' : Point S} {c c' : Conn S} (h : Edge cfg isDone t P c P' c')
    (hd : Disciplined (update p t P) c) : Disciplined (update p t P') c' := by
  have hupd : ∀ Q : Point S, (fun u => (update p t Q u).lockStatus) =
      update (fun u => (p u).lockStatus) t Q.lockStatus := fun Q => by
    funext u; by_cases hu : u = t
    · subst hu; simp
    · simp [hu]
  have ht := hd.connecting t
  rw [update_self] at ht
  refine ⟨?_, fun u => ?_, fun u => ?_⟩
  · have hl := hd.lock
    rw [hupd] at hl ⊢
    have hsteps : AsyncLock.LockSteps t
        (c.connectLock, update (fun u => (p u).lockStatus) t P.lockStatus t)
        (c'.connectLock, P'.lockStatus) := by simpa using h.lockSteps
    simpa using hl.steps hsteps
  · have hu := hd.connecting u
    by_cases hut : u = t
    · subst hut
      rw [update_self]
      rcases h.connecting ht with ⟨h₁, h₂⟩ | ⟨_, h₂, h₃⟩ | ⟨_, h₂, h₃⟩
      · rw [h₁, h₂]; exact ht
      · rw [h₂, h₃]; simp
      · rw [h₂, h₃]; simp
    · rw [update_of_ne hut] at hu ⊢
      rcases h.connecting ht with ⟨h₁, _⟩ | ⟨h₁, _, h₃⟩ | ⟨h₁, _, h₃⟩
      · rw [h₁]; exact hu
      · have : c.connectingTask ≠ some u := fun h' => by
          rw [ht.2 h₁] at h'; exact hut (Option.some.inj h').symm
        rw [h₃, ← hu]; simp [this]
      · have hne : ¬(p u).attempting = true := fun ha => hut <|
          hd.mutex (by rw [update_of_ne hut]; exact Point.attempting_holding ha)
            (by rw [update_self]; exact h₁)
        rw [h₃]; simp [hne, Ne.symm hut]
  · by_cases hut : u = t
    · subst hut
      rw [update_self, ← Bool.not_eq_true]
      intro ha
      obtain ⟨hh, hn, hc⟩ := h.awaitsUnderLock ha
      obtain ⟨o, ho⟩ := Option.isSome_iff_exists.1 hc
      have hoa := (hd.connecting o).1 ho
      have hou : o = u := hd.mutex (Point.attempting_holding hoa) (by rw [update_self]; exact hh)
      rw [hou, update_self, hn] at hoa
      cases hoa
    · have := hd.notAwaiting u
      rwa [update_of_ne hut] at this ⊢

/-- Replacing a task's point by one of the same standing. -/
theorem Disciplined.update_of_eq {p : TaskId → Point S} {c : Conn S} {t : TaskId} {P : Point S}
    (h : Disciplined p c) (hl : P.lockStatus = (p t).lockStatus)
    (ha : P.attempting = (p t).attempting)
    (hw : P.awaitsUnderLock = (p t).awaitsUnderLock) : Disciplined (update p t P) c := by
  have hp : ∀ u, ((update p t P) u).lockStatus = (p u).lockStatus ∧
      ((update p t P) u).attempting = (p u).attempting ∧
      ((update p t P) u).awaitsUnderLock = (p u).awaitsUnderLock := fun u => by
    by_cases hu : u = t
    · subst hu; simp [hl, ha, hw]
    · simp [hu]
  refine ⟨?_, fun u => by rw [(hp u).2.1]; exact h.connecting u,
    fun u => by rw [(hp u).2.2]; exact h.notAwaiting u⟩
  rw [show (fun u => ((update p t P) u).lockStatus) = fun u => (p u).lockStatus from
    funext fun u => (hp u).1]
  exact h.lock

theorem keeps_disciplined (cfg : ExchangeConfig U) :
    Keeps cfg (fun _ _ => True) (Disciplined (S := S)) where
  edge h hd := h.disciplined hd
  call _ hi h := h.update_of_eq (by rw [hi]; rfl) (by rw [hi]; rfl) (by rw [hi]; rfl)
  next _ hi _ h := h.update_of_eq (by rw [hi]; rfl) (by rw [hi]; rfl) (by rw [hi]; rfl)
  resume _ hi h := h.update_of_eq (by rw [hi]; rfl) (by rw [hi]; rfl) (by rw [hi]; rfl)
  rest {p t c P} h := by
    have := h.update_of_eq (t := t) (P := P.rest)
      (by rw [update_self]; cases P <;> rfl) (by rw [update_self]; cases P <;> rfl)
      (by rw [update_self]; cases P <;> rfl)
    simpa using this

theorem disciplined_init (inst : S.Inst) :
    Disciplined (Sys.init S inst).point (Sys.init S inst).conn :=
  ⟨AsyncLock.coherent_free,
    fun t => by simp [Sys.init, Conn.init, Sys.point, Task.init, Point.attempting],
    fun t => by simp [Sys.init, Sys.point, Task.init, Point.awaitsUnderLock]⟩

theorem step_disciplined {s s' : Sys S} {l : Label S} (h : Disciplined s.point s.conn)
    (hs : step cfg s l = some s') : Disciplined s'.point s'.conn :=
  (keeps_disciplined cfg).step trivial h hs

/-- **In every reachable state the lock and `_connecting_task` are what the tasks' places say.** -/
theorem reachable_disciplined {inst : S.Inst} {s : Sys S}
    (h : Reachable (step cfg) (Sys.init S inst) s) : Disciplined s.point s.conn :=
  reachable_invariant (P := fun s => Disciplined s.point s.conn)
    (fun _ _ _ hd hs => step_disciplined hd hs) (disciplined_init inst) h

end FlinkPractices.Connector
