import FlinkPractices.Connector.Cleanup

/-!
# Cancelling one caller of `connect()`

Any number of tasks that only call `connect()`, in any interleaving, and any cancellations.  A
caller that finds an attempt in flight awaits the *task* that makes it, not the attempt, so a
cancellation travels along that link both ways: `cancel()` on the waiter cancels the owner (asyncio
passes it on to what a task awaits), and an owner that ends cancelled cancels its waiters.

`Sys.CancelsAlone` says that a step does neither.  Principal result: `unharmed_of_cancelsAlone` —
in a run of such steps a task that nobody cancelled is not cancelled, and its `connect()` returns
or raises `ConnectionFailedError`.

## Proof

* `AllConnect` — every task is at a place of a `connect()` of its own; kept by every edge
* `Point.calm`, `Edge.calm` — a call ends cancelled only if `CancelledError` was delivered to it
* `Path.awaits_connecting` — a segment ends in the wait for a task only if that task's attempt is
  in progress at that moment
* `Sys.Spared` — the invariant of the runs in which nobody cancels `t`: no task that `t` awaits is
  about to be cancelled
* `step_spared` — one step keeps it, if the step cancels alone

`cancelledWaiter_harms` is the run the condition excludes: two callers, and the second is cancelled
while it waits.
-/

set_option autoImplicit false

namespace FlinkPractices.Connector

open Lib Function

variable {U : UpperTable} {S : Subclass} (cfg : ExchangeConfig U)

/-- Tasks that call nothing but `connect()`. -/
def Label.ConnectOnly : Label S → Prop
  | .call _ .connect => True
  | .call _ _ => False
  | .next _ => False
  | _ => True

/-- Task `t` is not cancelled, and its calls have ended as documented. -/
structure Sys.Unharmed (s : Sys S) (t : TaskId) : Prop where
  cancelling : (s.tasks t).cancelling = false
  outcome : (s.tasks t).outcome ≠ some .cancelled
  last : (s.tasks t).last = none ∨ (s.tasks t).last = some .returned ∨
    (s.tasks t).last = some (.raised (connectFailure cfg))

/-- `t` awaits the task `o`. -/
def Sys.Awaits (s : Sys S) (t o : TaskId) : Prop := (s.tasks t).call.bind Pc.awaited = some o

/-- No task is cancelled that awaits an unfinished one, and no awaited task ends cancelled. -/
def Sys.CancelsAlone (s : Sys S) : Label S → Prop
  | .cancel t _ => ∀ o, s.Awaits t o → s.isDone o = true
  | .exit o .cancelled => ∀ u, ¬s.Awaits u o
  | _ => True

/-! ## Where the tasks can be -/

/-- What holds at a suspension point of a `connect()` made by a task. -/
def Pc.ConnectOnly : Pc S → Conn S → Prop
  | .connect .task .dialing, c => c.state = .connecting
  | .connect .task (.sending _ _ _), c => c.state = .connecting
  | .connect .task _, _ => True
  | _, _ => False

def Point.ConnectOnly : Point S → Conn S → Prop
  | .idle, _ => True
  | .enter .connect, _ => True
  | .suspended pc, c => pc.ConnectOnly c
  | .resumed pc _, c => pc.ConnectOnly c
  | .connect .task, _ => True
  | .acquire .task, _ => True
  | .locked .task, _ => True
  | .attempt .task, _ => True
  | .sent .task _, c => c.state = .connecting
  | .failed .task, c => c.state ≠ .disconnected
  | .ended .task r, _ => ∀ e, r = .raised e → e = connectFailure cfg
  | .finished r, _ => ∀ e, r = .raised e → e = connectFailure cfg
  | _, _ => False

variable {cfg}

theorem Pc.ConnectOnly.caller {k : Caller} {pc : ConnectPc S} {c : Conn S}
    (h : (Pc.connect k pc).ConnectOnly c) : k = .task := by
  cases k with
  | task => rfl
  | _ => exact h.elim

theorem Edge.connectOnly {isDone : TaskId → Bool} {t : TaskId} {P P' : Point S} {c c' : Conn S}
    (h : Edge cfg isDone t P c P' c') (hP : P.ConnectOnly cfg c) : P'.ConnectOnly cfg c' := by
  cases h
  case connectAlready k hs =>
    cases k with
    | task => exact nofun
    | _ => cases hP
  case connectAwait k o _ _ => cases k <;> exact hP
  case connectAcquire k _ _ => cases k <;> exact hP
  case taskReturned => obtain rfl := Pc.ConnectOnly.caller hP; exact nofun
  case taskRaised => obtain rfl := Pc.ConnectOnly.caller hP; trivial
  case taskCancelled => obtain rfl := Pc.ConnectOnly.caller hP; exact nofun
  case acquire k _ _ => cases k <;> exact hP
  case queue k _ => cases k <;> exact hP
  case lockWoken => obtain rfl := Pc.ConnectOnly.caller hP; trivial
  case lockCancelled => obtain rfl := Pc.ConnectOnly.caller hP; exact nofun
  case lockedAlready k _ =>
    cases k with
    | task => exact nofun
    | _ => cases hP
  case lockedAwait k o _ _ => cases k <;> exact hP
  case lockedAttempt k _ _ => cases k <;> exact hP
  case lockedReturned => obtain rfl := Pc.ConnectOnly.caller hP; exact nofun
  case lockedRaised => obtain rfl := Pc.ConnectOnly.caller hP; trivial
  case lockedCancelled => obtain rfl := Pc.ConnectOnly.caller hP; exact nofun
  case dial k _ => cases k <;> first | rfl | cases hP
  case dialInvalid k hv =>
    cases k with
    | task => intro hs; rw [hs] at hv; cases hv
    | _ => cases hP
  case dialReturned => obtain rfl := Pc.ConnectOnly.caller hP; exact hP
  case dialRaised =>
    obtain rfl := Pc.ConnectOnly.caller hP
    intro hs; rw [show c.state = .connecting from hP] at hs; cases hs
  case dialCancelled => obtain rfl := Pc.ConnectOnly.caller hP; exact nofun
  case send k w p q => cases k <;> exact hP
  case sendReturned => obtain rfl := Pc.ConnectOnly.caller hP; exact hP
  case sendRaised => obtain rfl := Pc.ConnectOnly.caller hP; exact hP
  case sendCancelled => obtain rfl := Pc.ConnectOnly.caller hP; exact nofun
  case connected k _ =>
    cases k with
    | task => exact nofun
    | _ => cases hP
  case connectedInvalid k _ | subscribeRaised k _ =>
    cases k with
    | task => intro hs; rw [show c.state = .connecting from hP] at hs; cases hs
    | _ => cases hP
  case failClose k w _ _ => cases k <;> trivial
  case failNone k _ _ =>
    cases k with
    | task => intro e he; cases he; rfl
    | _ => cases hP
  case failInvalid k hv =>
    cases k with
    | task => exact absurd ((ConnectionState.isValidTransition_failed _).2 hP) (by rw [hv]; decide)
    | _ => cases hP
  case closeReturned | closeRaised =>
    obtain rfl := Pc.ConnectOnly.caller hP
    intro e he; cases he; rfl
  case closeCancelled => obtain rfl := Pc.ConnectOnly.caller hP; exact nofun
  case endedTask => exact hP
  case enterConnect => trivial
  all_goals exact hP.elim

/-- Only the task inside the `try` changes the state. -/
theorem Edge.state_eq {isDone : TaskId → Bool} {t : TaskId} {P P' : Point S} {c c' : Conn S}
    (h : Edge cfg isDone t P c P' c') (hP : P.ConnectOnly cfg c) :
    c'.state = c.state ∨ P.attempting = true := by
  cases h
  case dial | connected | failClose | failNone => exact .inr rfl
  case endedReconnectFailed | disconnected | lostConnected | lostFailed | giveUpFailed | woken =>
    exact hP.elim
  all_goals exact .inl rfl

theorem Point.ConnectOnly.congr {P : Point S} {c c' : Conn S} (h : P.ConnectOnly cfg c)
    (hs : c'.state = c.state ∨ P.attempting = false) : P.ConnectOnly cfg c' := by
  have pcs : ∀ {pc : Pc S}, pc.ConnectOnly c → c'.state = c.state ∨ pc.attempting = false →
      pc.ConnectOnly c' := fun {pc} hpc hs => by
    cases pc with
    | connect k pc =>
      obtain rfl := hpc.caller
      cases pc with
      | dialing | sending =>
        rcases hs with hs | hs
        · exact hs.trans hpc
        · cases hs
      | _ => trivial
    | _ => exact hpc.elim
  cases P with
  | suspended pc => exact pcs h hs
  | resumed pc w => exact pcs h hs
  | sent k r =>
    cases k with
    | task => exact (hs.resolve_right nofun).trans h
    | _ => exact h.elim
  | failed k =>
    cases k with
    | task => exact fun hd => h ((hs.resolve_right nofun).symm.trans hd)
    | _ => exact h.elim
  | enter op => cases op <;> exact h
  | connect k => cases k <;> exact h
  | acquire k => cases k <;> exact h
  | locked k => cases k <;> exact h
  | attempt k => cases k <;> exact h
  | ended k r => cases k <;> exact h
  | _ => exact h

/-- Every task is somewhere in a `connect()` of its own. -/
structure AllConnect (cfg : ExchangeConfig U) (p : TaskId → Point S) (c : Conn S) : Prop where
  disciplined : Disciplined p c
  point : ∀ t, (p t).ConnectOnly cfg c

theorem Edge.allConnect {isDone : TaskId → Bool} {t : TaskId} {p : TaskId → Point S}
    {P P' : Point S} {c c' : Conn S} (h : Edge cfg isDone t P c P' c')
    (ha : AllConnect cfg (update p t P) c) : AllConnect cfg (update p t P') c' := by
  have hP : P.ConnectOnly cfg c := by have := ha.point t; rwa [update_self] at this
  refine ⟨h.disciplined ha.disciplined, fun u => ?_⟩
  by_cases hut : u = t
  · subst hut; rw [update_self]; exact h.connectOnly hP
  · have hu := ha.point u
    rw [update_of_ne hut] at hu ⊢
    apply hu.congr
    rcases h.state_eq hP with hs | hs
    · exact .inl hs
    · -- two tasks inside the `try` would both be under the lock
      refine .inr (Bool.eq_false_iff.2 fun hua => hut ?_)
      exact ha.disciplined.mutex
        (by rw [update_of_ne hut]; exact Point.attempting_holding hua)
        (by rw [update_self]; exact Point.attempting_holding hs)

theorem AllConnect.update {p : TaskId → Point S} {c : Conn S} {t : TaskId} {P : Point S}
    (h : AllConnect cfg p c) (hd : Disciplined (update p t P) c) (hP : P.ConnectOnly cfg c) :
    AllConnect cfg (update p t P) c := by
  refine ⟨hd, fun u => ?_⟩
  by_cases hut : u = t
  · subst hut; rw [update_self]; exact hP
  · rw [update_of_ne hut]; exact h.point u

theorem keeps_allConnect (cfg : ExchangeConfig U) :
    Keeps cfg (fun _ l => l.ConnectOnly) (AllConnect (S := S) cfg) where
  edge he ha := he.allConnect ha
  call {s t op} hg hi ha :=
    ha.update ((keeps_disciplined cfg).call trivial hi ha.disciplined)
      (by cases op <;> exact hg)
  next hg := hg.elim
  resume {s t pc w} _ hp ha :=
    ha.update ((keeps_disciplined cfg).resume trivial hp ha.disciplined)
      (by have := ha.point t; rwa [hp] at this)
  rest {p t c P} ha := by
    have := ha.update (t := t) (P := P.rest)
      (by simpa using (keeps_disciplined cfg).rest ha.disciplined)
      (by
        have := ha.point t
        rw [update_self] at this
        cases P <;> first | exact this | trivial)
    simpa using this

/-! ## Where cancellations come from -/

/-- Not on its way to being cancelled. -/
def Point.calm : Point S → Prop
  | .resumed _ w => w ≠ .cancelled
  | .ended _ r => r ≠ .cancelled
  | .finished r => r ≠ .cancelled
  | _ => True

/-- **A call ends cancelled only if `CancelledError` was delivered to it.** -/
theorem Edge.calm {isDone : TaskId → Bool} {t : TaskId} {P P' : Point S} {c c' : Conn S}
    (h : Edge cfg isDone t P c P' c') (hP : P.calm) : P'.calm := by
  cases h
  case endedTask => exact hP
  case taskCancelled | lockCancelled | lockedCancelled | dialCancelled | sendCancelled |
      closeCancelled | endedStreamCancelled | endedReconnectCancelled | disconnectLockCancelled |
      disconnectCloseCancelled | recvCancelled | lostCancelled | backoffCancelled |
      ownCancelled => exact absurd rfl hP
  all_goals first | trivial | exact nofun

theorem Path.calm {isDone : TaskId → Bool} {t : TaskId} {x y : Point S × Conn S}
    (h : Path cfg isDone t x y) (hx : x.1.calm) : y.1.calm := by
  induction h with
  | refl => exact hx
  | tail _ he ih => exact he.calm ih

theorem Sys.settle_cancelling (s : Sys S) (t : TaskId) (k : Task S) (r : Conn S × Act S) :
    ((s.settle t k r).tasks t).cancelling = k.cancelling := by
  obtain ⟨c, a⟩ := r; cases a <;> simp [Sys.settle, Sys.setTask]

/-- How the last call ended, after a segment. -/
theorem Sys.settle_last (s : Sys S) (t : TaskId) (k : Task S) (r : Conn S × Act S) :
    ((s.settle t k r).tasks t).last = k.last ∨
      ∃ o, r.2.point = .finished o ∧ ((s.settle t k r).tasks t).last = some o := by
  obtain ⟨c, a⟩ := r
  cases a with
  | finish o => exact .inr ⟨o, rfl, by simp [Sys.settle, Sys.setTask]⟩
  | _ => exact .inl (by simp [Sys.settle, Sys.setTask])

/-- What a segment that nobody cancels does to its task. -/
theorem Sys.Unharmed.settle {s : Sys S} {t : TaskId} {k : Task S} {P : Point S}
    {r : Conn S × Act S} (h : s.Unharmed cfg t) (hc : k.cancelling = false)
    (ho : k.outcome = (s.tasks t).outcome) (hl : k.last = (s.tasks t).last)
    (hp : Path cfg s.isDone t (P, s.conn) (r.2.point, r.1)) (hP : P.calm)
    (hcon : AllConnect cfg (update s.point t P) s.conn) : (s.settle t k r).Unharmed cfg t := by
  refine ⟨by rw [Sys.settle_cancelling, hc], by rw [Sys.settle_outcome, ho]; exact h.outcome, ?_⟩
  rcases s.settle_last t k r with he | ⟨o, hro, he⟩
  · rw [he, hl]; exact h.last
  · have hend := ((keeps_allConnect cfg).path hp hcon).point t
    have hcalm := hp.calm hP
    rw [update_self] at hend
    simp only [hro] at hend hcalm
    rw [he]
    cases o with
    | returned => exact .inr (.inl rfl)
    | raised e => exact .inr (.inr (by rw [hend e rfl]))
    | cancelled => exact absurd rfl hcalm

/-! ## Runs of such steps -/

/-- The invariant of a run in which nobody cancels `t`. -/
structure Sys.Spared (cfg : ExchangeConfig U) (s : Sys S) (t : TaskId) : Prop where
  points : AllConnect cfg s.point s.conn
  unharmed : s.Unharmed cfg t
  awaited : ∀ u o, s.Awaits u o → (s.tasks o).outcome ≠ some .cancelled

theorem Sys.Awaits.point {s : Sys S} {u o : TaskId} (h : s.Awaits u o) :
    ∃ k, s.point u = .suspended (.connect k (.awaitTask o)) ∨
      s.point u = .suspended (.connect k (.awaitTaskLocked o)) := by
  unfold Sys.Awaits at h
  rw [Option.bind_eq_some_iff] at h
  obtain ⟨pc, hpc, ha⟩ := h
  unfold Pc.awaited at ha
  split at ha
  · cases ha; exact ⟨_, .inl (Sys.point_suspended.2 hpc)⟩
  · cases ha; exact ⟨_, .inr (Sys.point_suspended.2 hpc)⟩
  · cases ha

theorem inFlight_some {isDone : TaskId → Bool} {c : Conn S} {o : TaskId}
    (h : inFlight isDone c = some o) : c.connectingTask = some o ∧ isDone o = false := by
  unfold inFlight at h
  split at h
  · rename_i u hu
    split at h
    · cases h
    · rename_i hd
      cases h
      exact ⟨hu, by simpa using hd⟩
  · cases h

/-- A segment ends in the wait for a task only if that task's attempt is in progress. -/
theorem Path.awaits_connecting {isDone : TaskId → Bool} {t : TaskId} {P : Point S} {c : Conn S}
    {y : Point S × Conn S} {pc : Pc S} {o : TaskId} (h : Path cfg isDone t (P, c) y)
    (hP : ∀ pc, P ≠ .suspended pc) (hy : y.1 = .suspended pc) (ho : pc.awaited = some o) :
    y.2.connectingTask = some o ∧ isDone o = false := by
  rcases Relation.ReflTransGen.cases_tail h with rfl | ⟨⟨Q, d⟩, -, he⟩
  · exact absurd hy (hP pc)
  · obtain ⟨P', c'⟩ := y
    cases hy
    cases he
    case connectAwait hf =>
      cases ho
      exact inFlight_some hf
    case lockedAwait hf =>
      cases ho
      exact inFlight_some hf
    all_goals cases ho

theorem Sys.Unharmed.congr {s s' : Sys S} {t : TaskId} (h : s.Unharmed cfg t)
    (ht : s'.tasks t = s.tasks t) : s'.Unharmed cfg t :=
  ⟨by rw [ht]; exact h.cancelling, by rw [ht]; exact h.outcome, by rw [ht]; exact h.last⟩

/-- After a segment, nobody awaits a cancelled task if nobody did before. -/
theorem Sys.Spared.awaited_settle {s : Sys S} {t u : TaskId} {k : Task S} {P : Point S}
    {r : Conn S × Act S} (h : s.Spared cfg t) (ho : k.outcome = (s.tasks u).outcome)
    (hp : Path cfg s.isDone u (P, s.conn) (r.2.point, r.1)) (hP : ∀ pc, P ≠ .suspended pc)
    (v o : TaskId) (hv : (s.settle u k r).Awaits v o) :
    ((s.settle u k r).tasks o).outcome ≠ some .cancelled := by
  have hout : ((s.settle u k r).tasks o).outcome = (s.tasks o).outcome := by
    by_cases hou : o = u
    · subst hou; rw [Sys.settle_outcome, ho]
    · rw [Sys.settle_tasks_ne s hou]
  rw [hout]
  by_cases hvu : v = u
  · subst hvu
    have hd : s.isDone o = false := by
      obtain ⟨c, a⟩ := r
      cases a with
      | suspend pc =>
        have hpc : pc.awaited = some o := by simpa [Sys.Awaits, Sys.settle, Sys.setTask] using hv
        exact (hp.awaits_connecting hP rfl hpc).2
      | _ => simp [Sys.Awaits, Sys.settle, Sys.setTask] at hv
    rw [Sys.isDone, Option.isSome_eq_false_iff, Option.isNone_iff_eq_none] at hd
    rw [hd]
    exact (Option.some_ne_none _).symm
  · apply h.awaited v o
    unfold Sys.Awaits at hv ⊢
    rwa [Sys.settle_tasks_ne s hvu] at hv

/-- `CancelledError` is not delivered to a task that nobody cancelled. -/
theorem Sys.Spared.wake_ne_cancelled {s : Sys S} {t : TaskId} {pc : Pc S} {w : Wake S}
    (h : s.Spared cfg t) (hc : (s.tasks t).call = some pc)
    (ha : s.admits (s.tasks t) pc w = true) : w ≠ .cancelled := by
  rintro rfl
  unfold Sys.admits at ha
  cases hp : pc.awaited with
  | none => rw [hp] at ha; simp [h.unharmed.cancelling] at ha
  | some o =>
    rw [hp] at ha
    simp only [Bool.or_eq_true, beq_iff_eq, h.unharmed.cancelling, Bool.false_eq_true,
      or_false] at ha
    exact h.awaited t o (by rw [Sys.Awaits, hc]; exact hp) ha

/-- A cancellation arrives at the task it is meant for, unless that task awaits another one. -/
theorem Sys.cancelTarget_self {s : Sys S} {t u : TaskId} {depth : Nat}
    (h : ∀ o, s.Awaits t o → s.isDone o = true) (hu : s.cancelTarget depth t = some u) : u = t := by
  cases depth with
  | zero => cases hu
  | succ d =>
    unfold Sys.cancelTarget at hu
    split at hu
    · rename_i o ho
      rw [if_pos (h o ho)] at hu; exact (Option.some.inj hu).symm
    · exact (Option.some.inj hu).symm

theorem step_spared {s s' : Sys S} {l : Label S} {t : TaskId} (h : s.Spared cfg t)
    (hl : l.ConnectOnly) (ht : ∀ d, l ≠ .cancel t d) (hg : s.CancelsAlone l)
    (hs : step cfg s l = some s') : s'.Spared cfg t := by
  have points := (keeps_allConnect cfg).step hl h.points hs
  refine ⟨points, ?_, ?_⟩
  · cases step_move hs with
    | @call u op _ hc =>
      by_cases hut : t = u
      · subst hut
        exact h.unharmed.settle h.unharmed.cancelling rfl rfl (enter_path _ op) trivial
          ((keeps_allConnect cfg).call hl (Sys.point_idle.2 hc) h.points)
      · exact h.unharmed.congr (Sys.settle_tasks_ne s hut _ _)
    | next => exact hl.elim
    | @resume u pc w r hc ha hr =>
      by_cases hut : t = u
      · subst hut
        exact h.unharmed.settle rfl rfl rfl (advance_path hr) (h.wake_ne_cancelled hc ha)
          ((keeps_allConnect cfg).resume hl (Sys.point_suspended.2 hc) h.points)
      · exact h.unharmed.congr (Sys.settle_tasks_ne s hut _ _)
    | @cancel u d v _ hv =>
      have hvu : v = u := Sys.cancelTarget_self hg hv
      have hne : t ≠ v := fun he => ht d (by rw [he, hvu])
      exact h.unharmed.congr (Sys.setTask_ne s hne _)
    | @exit u o _ _ hm =>
      by_cases hut : t = u
      · subst hut
        refine ⟨?_, ?_, ?_⟩
        · simpa using h.unharmed.cancelling
        · rw [Sys.setTask_self]
          rintro ho
          cases ho
          have hlast := h.unharmed.last
          simp only [Task.mayExit, h.unharmed.cancelling, Bool.false_or, beq_iff_eq] at hm
          rcases hlast with hlast | hlast | hlast <;> rw [hm] at hlast <;> cases hlast
        · simpa using h.unharmed.last
      · exact h.unharmed.congr (Sys.setTask_ne s hut _)
  · cases step_move hs with
    | call _ _ => exact h.awaited_settle rfl (enter_path _ _) nofun
    | next => exact hl.elim
    | resume _ _ hr => exact h.awaited_settle rfl (advance_path hr) nofun
    | @cancel u d v _ _ =>
      intro w o hw
      have hcall : ∀ x, ((s.setTask v { s.tasks v with cancelling := true }).tasks x).call =
          (s.tasks x).call ∧
          ((s.setTask v { s.tasks v with cancelling := true }).tasks x).outcome =
          (s.tasks x).outcome := fun x => by
        by_cases hx : x = v
        · subst hx; simp
        · rw [Sys.setTask_ne s hx]; exact ⟨rfl, rfl⟩
      rw [(hcall o).2]
      apply h.awaited w o
      rwa [Sys.Awaits, (hcall w).1] at hw
    | @exit u e _ hc _ =>
      intro w o hw
      have hwu : s.Awaits w o := by
        by_cases hx : w = u
        · subst hx; simp [Sys.Awaits, hc] at hw
        · rwa [Sys.Awaits, Sys.setTask_ne s hx] at hw
      by_cases hou : o = u
      · subst hou
        rw [Sys.setTask_self]
        rintro ho
        cases ho
        exact hg w hwu
      · rw [Sys.setTask_ne s hou]; exact h.awaited w o hwu

theorem spared_init (inst : S.Inst) (t : TaskId) : (Sys.init S inst).Spared cfg t where
  points := ⟨disciplined_init inst, fun _ => trivial⟩
  unharmed := ⟨rfl, nofun, .inl rfl⟩
  awaited _ _ h := by cases h

/-- **A caller that nobody cancels is unharmed**, in every run of connecting tasks in which no
task is cancelled while it awaits another one and no awaited task ends cancelled. -/
theorem unharmed_of_cancelsAlone {inst : S.Inst} {ls : List (Label S)} {t : TaskId}
    (hl : ∀ l ∈ ls, l.ConnectOnly) (ht : ∀ d, Label.cancel t d ∉ ls)
    (hg : Guarded (step cfg) Sys.CancelsAlone (Sys.init S inst) ls) :
    Always (step cfg) (fun s => s.Unharmed cfg t) (Sys.init S inst) ls := by
  have hlt : Guarded (step cfg) (fun _ l => l.ConnectOnly ∧ ∀ d, l ≠ .cancel t d)
      (Sys.init S inst) ls :=
    .of_mem fun l hm => ⟨hl l hm, fun d he => ht d (he ▸ hm)⟩
  have hspared := always_of_guarded (P := fun s => s.Spared cfg t)
    (fun _ _ _ h hg hs => step_spared h hg.1.1 hg.1.2 hg.2 hs) (spared_init inst t) (hlt.and hg)
  exact hspared.mono fun _ h => h.unharmed

/-! ## Cancellation in both directions -/

/-- Task 0 connects, task 1 waits for it and is cancelled: task 0 gets the `CancelledError`. -/
def cancelledWaiter : List (Label concurrencyTestConnector) :=
  [.call 0 .connect, .call 1 .connect, .cancel 1 2, .resume 0 .cancelled]

/-- **A cancelled waiter cancels the owner**, which nobody cancelled. -/
theorem cancelledWaiter_harms : ∃ s,
    run (step testConfig) (Sys.init concurrencyTestConnector ()) cancelledWaiter = some s ∧
    (∀ l ∈ cancelledWaiter, l.ConnectOnly) ∧ (∀ d, Label.cancel 0 d ∉ cancelledWaiter) ∧
    (s.tasks 0).last = some .cancelled :=
  ⟨_, rfl, by simp [cancelledWaiter, Label.ConnectOnly], by simp [cancelledWaiter], rfl⟩

/-- The other direction: the owner is cancelled and ends so, and the waiter with it. -/
example : (run (step testConfig) (Sys.init concurrencyTestConnector ())
    [.call 0 .connect, .call 1 .connect, .cancel 0 1, .resume 0 .cancelled, .exit 0 .cancelled,
      .resume 1 .cancelled]).map (fun s => (s.tasks 1).last) = some (some .cancelled) := rfl

/-- Two callers, one of them cancelled while it dials; the other then makes its own attempt. -/
def cancelledOwner : List (Label concurrencyTestConnector) :=
  [.call 0 .connect, .cancel 0 1, .resume 0 .cancelled, .call 1 .connect, .resume 1 .done]

theorem unharmed_cancelledOwner : Always (step testConfig) (fun s => s.Unharmed testConfig 1)
    (Sys.init concurrencyTestConnector ()) cancelledOwner :=
  unharmed_of_cancelsAlone (by simp [cancelledOwner, Label.ConnectOnly])
    (by simp [cancelledOwner])
    ⟨trivial, fun _ hs => ⟨by cases hs; exact nofun, fun _ _ =>
      ⟨trivial, fun _ _ => ⟨trivial, fun _ _ => ⟨trivial, fun _ _ => trivial⟩⟩⟩⟩⟩

end FlinkPractices.Connector
