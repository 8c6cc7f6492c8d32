import FlinkPractices.Connector.Invariants
import FlinkPractices.Lib.WaitFor

/-!
# No deadlock

Any number of tasks call the connector, in any interleaving and with whatever cancellations.  A task
inside a call waits for another one (`WaitsFor`) where it awaits the task of an attempt, or queues
for the lock.  Whoever makes an attempt waits for nobody, so no wait closes a circle: a task that
cannot go on waits, through others, for one that can.

## Proof

* `Orderly` — the tasks are as `Disciplined` says, and no chain of awaits goes on for ever: a task
  begins to await only a task inside the `try`, which awaits nobody (`Edge.awaits`)
* `grounded_update` — such a chain grows by one task that awaits nobody else, so it stays finite
* `Orderly.grounded` — with the queue of the lock added: whoever has the lock, or gets it next,
  waits for nobody
* `Orderly.ready` — whoever waits for nobody is `Ready`: it is in no call, or its call can be
  resumed, and by `CancelledError` only if it awaits a task that was cancelled

Principal result: `progress_of_reachable`.  It is about waiting inside the connector; that the
network, or a socket that is being closed, answers at all is not the connector's to promise, and a
call that waits for an answer counts as one that can be resumed.
-/

set_option autoImplicit false

namespace FlinkPractices.Connector

open Lib Function Relation

variable {U : UpperTable} {S : Subclass} {cfg : ExchangeConfig U}

/-- In a call, `t` cannot go on before `u` has. -/
inductive WaitsFor (s : Sys S) (t u : TaskId) : Prop
  /-- `await self._connecting_task` -/
  | task : (s.tasks t).call.bind Pc.awaited = some u → s.isDone u = false → WaitsFor s t u
  /-- the lock is held -/
  | owner : t ∈ s.conn.connectLock.waiters → s.conn.connectLock.owner = some u → WaitsFor s t u
  /-- the lock is free, and it is somebody else's turn -/
  | turn : t ∈ s.conn.connectLock.waiters → s.conn.connectLock.owner = none →
      s.conn.connectLock.waiters.head? = some u → u ≠ t → WaitsFor s t u

/-- The task is not in a call, or its call can be resumed, and by `CancelledError` only if it awaits
a task that was cancelled. -/
def Ready (cfg : ExchangeConfig U) (s : Sys S) (t : TaskId) : Prop :=
  (s.tasks t).call = none ∨ ∃ w s', step cfg s (.resume t w) = some s' ∧
    (w = .cancelled → ∃ u, (s.tasks t).call.bind Pc.awaited = some u ∧
      (s.tasks u).outcome = some .cancelled)

/-! ## Awaiting a task -/

/-- The task that is awaited at a point. -/
def Point.awaited : Point S → Option TaskId
  | .suspended pc => pc.awaited
  | .resumed pc _ => pc.awaited
  | _ => none

/-- Who awaits whom. -/
def Awaits (p : TaskId → Point S) (t u : TaskId) : Prop := (p t).awaited = some u

theorem Pc.awaited_some {pc : Pc S} {o : TaskId} (h : pc.awaited = some o) :
    pc.attempting = false ∧ (pc.lockStatus = .idle ∨ pc.awaitsUnderLock = true) := by
  cases pc with
  | connect k pc =>
    cases pc with
    | awaitTask u => exact ⟨rfl, .inl rfl⟩
    | awaitTaskLocked u => exact ⟨rfl, .inr rfl⟩
    | _ => cases h
  | _ => cases h

/-- A task is awaited outside of attempts, and outside of the lock but for one place. -/
theorem Point.awaited_some {P : Point S} {o : TaskId} (h : P.awaited = some o) :
    P.attempting = false ∧ (P.lockStatus = .idle ∨ P.awaitsUnderLock = true) := by
  cases P with
  | suspended pc => exact pc.awaited_some h
  | resumed pc w => exact pc.awaited_some h
  | _ => cases h

theorem inFlight_connectingTask {isDone : TaskId → Bool} {c : Conn S} {o : TaskId}
    (h : inFlight isDone c = some o) : c.connectingTask = some o := by
  unfold inFlight at h
  split at h
  · rename_i u hu
    split at h
    · cases h
    · cases h
      exact hu
  · cases h

/-- A task that an edge begins to await is making an attempt, and is another one. -/
theorem Edge.awaits {isDone : TaskId → Bool} {t : TaskId} {P P' : Point S} {c c' : Conn S}
    {o : TaskId} (h : Edge cfg isDone t P c P' c') (ho : P'.awaited = some o) :
    c.connectingTask = some o ∧ P.attempting = false := by
  cases h
  case connectAwait hi =>
    cases ho
    exact ⟨inFlight_connectingTask hi, rfl⟩
  case lockedAwait hi =>
    cases ho
    exact ⟨inFlight_connectingTask hi, rfl⟩
  all_goals cases ho

/-- The tasks are as `Disciplined` says, and no chain of awaits goes on for ever. -/
structure Orderly (p : TaskId → Point S) (c : Conn S) : Prop where
  disciplined : Disciplined p c
  awaits : Grounded (Awaits p)

/-- Replacing a task's point by one that awaits nobody else. -/
theorem grounded_update {p : TaskId → Point S} {t : TaskId} {P : Point S}
    (h : Grounded (Awaits p))
    (hP : ∀ o, P.awaited = some o → (p t).awaited = some o ∨ o ≠ t ∧ (p o).attempting = true) :
    Grounded (Awaits (update p t P)) := by
  apply h.of_sinks
  intro u o ho
  by_cases hu : u = t
  · subst hu
    unfold Awaits at ho
    rw [update_self] at ho
    rcases hP o ho with hold | ⟨hne, ha⟩
    · exact .inl hold
    · right
      intro v hv
      unfold Awaits at hv
      rw [update_of_ne hne] at hv
      rw [(Point.awaited_some hv).1] at ha
      cases ha
  · left
    unfold Awaits at ho ⊢
    rwa [update_of_ne hu] at ho

theorem Edge.orderly {isDone : TaskId → Bool} {t : TaskId} {p : TaskId → Point S} {P P' : Point S}
    {c c' : Conn S} (h : Edge cfg isDone t P c P' c') (hJ : Orderly (update p t P) c) :
    Orderly (update p t P') c' := by
  refine ⟨h.disciplined hJ.disciplined, ?_⟩
  have hr : Grounded (Awaits (update (update p t P) t P')) := by
    apply grounded_update hJ.awaits
    intro o ho
    obtain ⟨hc, hP⟩ := h.awaits ho
    have ha := (hJ.disciplined.connecting o).1 hc
    refine .inr ⟨?_, ha⟩
    rintro rfl
    rw [update_self, hP] at ha
    cases ha
  rwa [update_idem] at hr

theorem keeps_orderly (cfg : ExchangeConfig U) :
    Keeps cfg (fun _ _ => True) (Orderly (S := S)) where
  edge h hJ := h.orderly hJ
  call hg hi hJ := ⟨(keeps_disciplined cfg).call hg hi hJ.disciplined,
    grounded_update hJ.awaits fun _ ho => by cases ho⟩
  next hg hi hm hJ := ⟨(keeps_disciplined cfg).next hg hi hm hJ.disciplined,
    grounded_update hJ.awaits fun _ ho => by cases ho⟩
  resume hg hi hJ := ⟨(keeps_disciplined cfg).resume hg hi hJ.disciplined,
    grounded_update hJ.awaits fun _ ho => .inl (by rw [hi]; exact ho)⟩
  rest {p t c P} hJ := by
    refine ⟨(keeps_disciplined cfg).rest hJ.disciplined, ?_⟩
    have hr : Grounded (Awaits (update (update p t P) t P.rest)) := by
      apply grounded_update hJ.awaits
      intro o ho
      left
      rw [update_self]
      cases P with
      | finished r => cases ho
      | yielded m rest => cases ho
      | _ => exact ho
    rwa [update_idem] at hr

theorem orderly_init (inst : S.Inst) :
    Orderly (Sys.init S inst).point (Sys.init S inst).conn :=
  ⟨disciplined_init inst, .of_empty fun _ _ hw => by cases hw⟩

theorem reachable_orderly {inst : S.Inst} {s : Sys S}
    (h : Reachable (step cfg) (Sys.init S inst) s) : Orderly s.point s.conn :=
  reachable_invariant (P := fun s => Orderly s.point s.conn)
    (fun _ _ _ hJ hs => (keeps_orderly cfg).step trivial hJ hs) (orderly_init inst) h

/-! ## Waiting for anybody -/

theorem awaited_eq {s : Sys S} {t : TaskId} :
    (s.point t).awaited = (s.tasks t).call.bind Pc.awaited := by
  unfold Sys.point
  cases (s.tasks t).call <;> rfl

/-- Where a task waits for the lock, or holds it, it awaits nobody. -/
theorem Disciplined.awaited {p : TaskId → Point S} {c : Conn S} (h : Disciplined p c) {t : TaskId}
    (ht : (p t).lockStatus ≠ .idle) : (p t).awaited = none := by
  apply Option.eq_none_iff_forall_ne_some.2
  intro o ho
  rcases (Point.awaited_some ho).2 with hi | hu
  · exact ht hi
  · rw [h.notAwaiting t] at hu
    cases hu

/-- Whoever has the lock, or gets it next, waits for nobody. -/
theorem Orderly.waitsFor {s : Sys S} (h : Orderly s.point s.conn) {t u : TaskId}
    (hw : WaitsFor s t u) : Awaits s.point t u ∨ ∀ v, ¬WaitsFor s u v := by
  have hlock := h.disciplined.lock
  cases hw with
  | task ha hd => exact .inl (awaited_eq.trans ha)
  | owner ht ho =>
    right
    have hu := (hlock.owner u).1 ho
    rintro v (⟨ha, -⟩ | ⟨hm, -⟩ | ⟨-, hn, -⟩)
    · rw [← awaited_eq, h.disciplined.awaited (by rw [hu]; simp)] at ha
      cases ha
    · have := (hlock.waiters u).1 hm
      rw [hu] at this
      cases this
    · rw [ho] at hn
      cases hn
  | turn ht ho hh hne =>
    right
    have hu := (hlock.waiters u).1 (List.mem_of_mem_head? hh)
    rintro v (⟨ha, -⟩ | ⟨-, hn⟩ | ⟨-, -, hh', hne'⟩)
    · rw [← awaited_eq, h.disciplined.awaited (by rw [hu]; simp)] at ha
      cases ha
    · rw [ho] at hn
      cases hn
    · rw [hh] at hh'
      exact hne' (Option.some.inj hh').symm

theorem Orderly.grounded {s : Sys S} (h : Orderly s.point s.conn) : Grounded (WaitsFor s) :=
  h.awaits.of_sinks fun _ _ hw => h.waitsFor hw

/-! ## Who can go on -/

theorem resume_of_advance {s : Sys S} {t : TaskId} {pc : Pc S} {w : Wake S}
    {r : Conn S × Act S} (hc : (s.tasks t).call = some pc)
    (ha : s.admits (s.tasks t) pc w = true) (hr : advance cfg s.isDone s.conn t pc w = some r) :
    step cfg s (.resume t w) = some (s.settle t { s.tasks t with cancelling := false } r) := by
  simp only [step, hc, ha, hr, if_true]

/-- A call that can be resumed otherwise than by `CancelledError`. -/
theorem ready_of_advance {s : Sys S} {t : TaskId} {pc : Pc S} {w : Wake S}
    {r : Conn S × Act S} (hc : (s.tasks t).call = some pc) (hpc : pc.awaited = none)
    (hw : w ≠ .cancelled) (hr : advance cfg s.isDone s.conn t pc w = some r) : Ready cfg s t := by
  have ha : s.admits (s.tasks t) pc w = true := by
    unfold Sys.admits
    rw [hpc]
    cases w <;> first | rfl | exact absurd rfl hw
  exact .inr ⟨w, _, resume_of_advance hc ha hr, fun h => absurd h hw⟩

/-- An awaited task that is done resumes whoever awaits it. -/
theorem ready_of_done {s : Sys S} {t u : TaskId} {k : Caller} {pc : ConnectPc S}
    (hc : (s.tasks t).call = some (.connect k pc)) (hpc : (Pc.connect k pc).awaited = some u)
    (hd : s.isDone u = true) : Ready cfg s t := by
  obtain ⟨o, ho⟩ := Option.isSome_iff_exists.1 hd
  have hready : ∀ w : Wake S, s.admits (s.tasks t) (.connect k pc) w = true →
      (w = .cancelled → o = .cancelled) → (∀ f, w ≠ .frame f) → Ready cfg s t := by
    intro w ha hw hf
    have hr : ∃ r, resumeConnect cfg s.isDone s.conn t pc w = some r := by
      cases pc with
      | awaitTask v => cases w <;> first | exact ⟨_, rfl⟩ | exact absurd rfl (hf _)
      | awaitTaskLocked v => cases w <;> first | exact ⟨_, rfl⟩ | exact absurd rfl (hf _)
      | _ => cases hpc
    obtain ⟨r, hr⟩ := hr
    have hadv : advance cfg s.isDone s.conn t (.connect k pc) w =
        some (afterConnect cfg s.isDone t k r) := by
      simp only [advance, hr, Option.map_some]
    refine .inr ⟨w, _, resume_of_advance hc ha hadv, fun h => ⟨u, ?_, ?_⟩⟩
    · rw [hc]
      exact hpc
    · rw [ho, hw h]
  cases o with
  | returned =>
    apply hready .done _ (fun h => by cases h) (fun f h => by cases h)
    simp [Sys.admits, hpc, ho]
  | raised e =>
    apply hready (.raised e) _ (fun h => by cases h) (fun f h => by cases h)
    simp [Sys.admits, hpc, ho]
  | cancelled =>
    apply hready .cancelled _ (fun _ => rfl) (fun f h => by cases h)
    simp [Sys.admits, hpc, ho]

/-- Whoever queues for a free lock with nobody before him gets it. -/
theorem wake_of_first {l : AsyncLock TaskId} {t : TaskId} (hm : t ∈ l.waiters)
    (ho : l.owner = none) (hh : ∀ u, l.waiters.head? = some u → u = t) :
    ∃ l', l.wake t = some l' := by
  obtain ⟨owner, waiters⟩ := l
  change owner = none at ho
  cases waiters with
  | nil => cases hm
  | cons u us =>
    obtain rfl := hh u rfl
    subst ho
    exact ⟨⟨some u, us⟩, by simp [AsyncLock.wake]⟩

/-- Who queues for the lock without waiting for anybody gets it. -/
theorem Orderly.wakes {s : Sys S} (h : Orderly s.point s.conn) {t : TaskId}
    (ht : (s.point t).lockStatus = .waiting) (hn : ∀ u, ¬WaitsFor s t u) :
    ∃ l, s.conn.connectLock.wake t = some l := by
  have hm := (h.disciplined.lock.waiters t).2 ht
  have ho : s.conn.connectLock.owner = none :=
    Option.eq_none_iff_forall_ne_some.2 fun u hu => hn u (.owner hm hu)
  refine wake_of_first hm ho fun u hu => ?_
  by_contra hne
  exact hn u (.turn hm ho hu hne)

/-- **Whoever waits for nobody can go on.** -/
theorem Orderly.ready {s : Sys S} (h : Orderly s.point s.conn) {t : TaskId}
    (hn : ∀ u, ¬WaitsFor s t u) : Ready cfg s t := by
  cases hc : (s.tasks t).call with
  | none => exact .inl hc
  | some pc =>
    have hp := Sys.point_suspended.2 hc
    have hdone : ∀ u, pc.awaited = some u → s.isDone u = true := by
      intro u hu
      cases hd : s.isDone u with
      | true => rfl
      | false => exact absurd (.task (by rw [hc]; exact hu) hd) (hn u)
    cases pc with
    | connect k pc =>
      cases pc with
      | awaitTask u => exact ready_of_done hc rfl (hdone u rfl)
      | awaitTaskLocked u => exact ready_of_done hc rfl (hdone u rfl)
      | lock =>
        obtain ⟨l, hl⟩ := h.wakes (by rw [hp]; rfl) hn
        apply ready_of_advance (w := .done) hc rfl (by simp)
        simp only [advance, resumeConnect, hl]
        rfl
      | dialing => exact ready_of_advance (w := .done) hc rfl (by simp) rfl
      | sending w p q => exact ready_of_advance (w := .done) hc rfl (by simp) rfl
      | closing w => exact ready_of_advance (w := .done) hc rfl (by simp) rfl
    | disconnectLock =>
      obtain ⟨l, hl⟩ := h.wakes (by rw [hp]; rfl) hn
      apply ready_of_advance (w := .done) hc rfl (by simp)
      simp only [advance, hl]
      rfl
    | disconnectClosing w => exact ready_of_advance (w := .done) hc rfl (by simp) rfl
    | recv w => exact ready_of_advance (w := .raised .connectionClosed) hc rfl (by simp) rfl
    | lostClosing w => exact ready_of_advance (w := .done) hc rfl (by simp) rfl
    | backoff n => exact ready_of_advance (w := .done) hc rfl (by simp) rfl
    | own w p q => exact ready_of_advance (w := .done) hc rfl (by simp) rfl

/-- **No deadlock**, whatever the tasks call, in every interleaving and with whatever cancellations:
nobody waits for himself, not even through others, and every task waits, if at all, through others
for one that can go on. -/
theorem progress_of_reachable {inst : S.Inst} {s : Sys S}
    (h : Reachable (step cfg) (Sys.init S inst) s) (t : TaskId) :
    ¬TransGen (WaitsFor s) t t ∧ ∃ u, ReflTransGen (WaitsFor s) t u ∧ Ready cfg s u := by
  have ho := reachable_orderly h
  obtain ⟨u, hu, hend⟩ := ho.grounded.exists_end t
  exact ⟨ho.grounded.acyclic t, u, hu, ho.ready hend⟩

/-! ## Three tasks at the lock -/

/-- Task 0 dials, task 1 awaits it, and tasks 2 and 3 want to disconnect. -/
def threeWaiting : List (Label concurrencyTestConnector) :=
  [.call 0 .connect, .call 1 .connect, .call 2 .disconnect, .call 3 .disconnect, .cancel 2 1]

/-- `progress_of_reachable` of that run. -/
theorem progress_threeWaiting : ∃ s,
    run (step testConfig) (Sys.init concurrencyTestConnector ()) threeWaiting = some s ∧
    ¬TransGen (WaitsFor s) 3 3 ∧
    ∃ u, ReflTransGen (WaitsFor s) 3 u ∧ Ready testConfig s u :=
  ⟨_, rfl, progress_of_reachable ⟨threeWaiting, rfl⟩ 3⟩

end FlinkPractices.Connector
