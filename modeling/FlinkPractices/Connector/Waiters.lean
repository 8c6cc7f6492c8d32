import FlinkPractices.Connector.Cancel

/-!
# Waiting for somebody else's attempt

Any number of tasks that call the connector and go on with work of their own: they await one
another, they end as they like, and they are cancelled.  A `connect()` that finds an attempt in
flight awaits the *task* that makes it, which may well go on after the attempt is over.  `Crew` adds
to the connector's tasks what they do outside of it, and how the attempt that a call waits for has
ended.

* `Crew.Released` — a call whose attempt is over is ready to resume, and returns normally only
  after a success.
* `Crew.Deadlocked` — two tasks are blocked on each other.
* `Crew.EndsTogether` — an attempt that somebody waits for ends together with its task.

Principal result: `released_iff_endsTogether`.

## Proof

* `Tried`, `Exclusive` — what an attempt comes to, segment by segment, and that the connector is not
  connected while one is in progress; so an attempt ends with a success iff it connects
* `Sys.Goes` — what a segment does to the tasks, and `Turned` what a turn is
* `Sound` — the invariant of every run: the attempt a call waits for is in progress until it is
  known to be over
* `Faithful` — what holds besides while attempts end together with their tasks (`turn_faithful`),
  and what `Released` is read off
* `Released.endsTogether` — the converse, for one turn: the first state that is not released shows
  an attempt that has ended without its task
-/

set_option autoImplicit false

namespace FlinkPractices.Connector

open Lib Function

variable {U : UpperTable} {S : Subclass} (cfg : ExchangeConfig U)

/-- The tasks, with what they do outside of the connector. -/
structure Crew (S : Subclass) where
  sys : Sys S
  /-- the task that a task awaits, or has last awaited, in its own code -/
  joined : TaskId → Option TaskId
  /-- how the attempt a suspended `connect()` waits for has ended; `none` while it goes on -/
  verdict : TaskId → Option Outcome

def Crew.init (inst : S.Inst) : Crew S := ⟨Sys.init S inst, fun _ => none, fun _ => none⟩

/-- * `segment l ends` — a segment of a call; with `ends` the task ends in it, as it does when its
body is that call;
* `join t u` — `await u` in the code of `t`;
* `cancel t depth` — `t.cancel()`, passed on along at most `depth` awaited tasks;
* `exit t o` — the task ends in its own code, in any way. -/
inductive Turn (S : Subclass) where
  | segment (l : Label S) (ends : Option Outcome)
  | join (t u : TaskId)
  | cancel (t : TaskId) (depth : Nat)
  | exit (t : TaskId) (o : Outcome)

/-- The task that goes on. -/
def Label.caller : Label S → Option TaskId
  | .call t _ => some t
  | .next t => some t
  | .resume t _ => some t
  | _ => none

/-- The attempt that ends in a segment: whose it was, and how its `connect()` ended. -/
def Sys.attemptEnd (s : Sys S) : Label S → Option (TaskId × Outcome)
  | .resume t w =>
    match (s.tasks t).call with
    | some (.connect k pc) =>
      if (Pc.connect k pc).attempting then
        match resumeConnect cfg s.isDone s.conn t pc w with
        | some (_, .finish r) => some (t, r)
        | _ => none
      else none
    | _ => none
  | _ => none

/-- The task ends, if it does. -/
def Sys.endWith (s : Sys S) (t : TaskId) : Option Outcome → Sys S
  | none => s
  | some o => s.setTask t { s.tasks t with generator := none, outcome := some o }

namespace Crew

/-- Not awaiting an unfinished task in its own code. -/
def free (c : Crew S) (t : TaskId) : Bool :=
  match (c.sys.tasks t).call, c.joined t with
  | none, some u => c.sys.isDone u
  | _, _ => true

/-- The task that `t` awaits. -/
def awaiting (c : Crew S) (t : TaskId) : Option TaskId :=
  match (c.sys.tasks t).call with
  | some pc => pc.awaited
  | none => c.joined t

/-- Where a `cancel()` on `t` arrives. -/
def cancelTarget (c : Crew S) : Nat → TaskId → Option TaskId
  | 0, _ => none
  | depth + 1, t =>
    match c.awaiting t with
    | some o => if c.sys.isDone o then some t else c.cancelTarget depth o
    | none => some t

/-- What the calls know of their attempts after a segment of `t`. -/
def verdicts (c : Crew S) (l : Label S) (t : TaskId) : TaskId → Option Outcome := fun u =>
  if u = t then none
  else
    match c.sys.attemptEnd cfg l with
    | some (o, r) =>
      if (c.sys.tasks u).call.bind Pc.awaited = some o then (c.verdict u).or (some r) else c.verdict u
    | none => c.verdict u

/-- One turn. -/
def turn (c : Crew S) : Turn S → Option (Crew S)
  | .segment l ends =>
    match l.caller, step cfg c.sys l with
    | some t, some s =>
      if c.free t ∧ (ends = none ∨ (s.tasks t).call.isNone) then
        some { c with sys := s.endWith t ends, verdict := c.verdicts cfg l t }
      else none
    | _, _ => none
  | .join t u =>
    if (c.sys.tasks t).outcome = none ∧ (c.sys.tasks t).call.isNone ∧ c.free t ∧ u ≠ t then
      some { c with joined := update c.joined t (some u) }
    else none
  | .cancel t depth =>
    if c.sys.isDone t then none
    else
      match c.cancelTarget depth t with
      | some u => some { c with sys := c.sys.setTask u { c.sys.tasks u with cancelling := true } }
      | none => none
  | .exit t o =>
    if (c.sys.tasks t).outcome = none ∧ (c.sys.tasks t).call.isNone ∧ c.free t then
      some { c with sys := c.sys.endWith t (some o) }
    else none

/-- The calls that wait for an attempt are released when it is over. -/
structure Released (c : Crew S) : Prop where
  /-- the awaited task is done as soon as its attempt is over -/
  ready : ∀ t o r, c.sys.Awaits t o → c.verdict t = some r → c.sys.isDone o = true
  /-- a suspended `connect()` returns normally only after the success of the attempt it waited
  for, or on a connected connector -/
  returns : ∀ t k pc w d, (c.sys.tasks t).call = some (.connect k pc) →
    c.sys.admits (c.sys.tasks t) (.connect k pc) w = true →
    resumeConnect cfg c.sys.isDone c.sys.conn t pc w = some (d, .finish .returned) →
    c.verdict t = some .returned ∨ d.state = .connected

/-- `t` goes on only after `u`: it waits for the attempt of `u`, awaits `u` in its own code, or
queues for the lock that `u` holds. -/
def Blocked (c : Crew S) (t u : TaskId) : Prop :=
  c.sys.isDone u = false ∧
    (c.sys.Awaits t u ∨
      ((c.sys.tasks t).outcome = none ∧ (c.sys.tasks t).call = none ∧ c.joined t = some u) ∨
      ((c.sys.point t).lockStatus = .waiting ∧ c.sys.conn.connectLock.owner = some u))

/-- Two tasks are blocked on each other, and no attempt is in progress. -/
def Deadlocked (c : Crew S) : Prop :=
  (∃ t u, c.Blocked t u ∧ c.Blocked u t) ∧ ∀ v, (c.sys.point v).attempting = false

/-- An attempt that a call waits for ends together with its task, which ends normally only if the
attempt has succeeded. -/
def EndsTogether (c : Crew S) : Turn S → Prop
  | .segment l ends => ∀ o r, c.sys.attemptEnd cfg l = some (o, r) → (∃ t, c.sys.Awaits t o) →
      ∃ x, ends = some x ∧ (x = .returned → r = .returned)
  | _ => True

/-- No two tasks await each other in their own code. -/
def JoinsApart (c : Crew S) : Turn S → Prop
  | .join t u => c.joined u ≠ some t
  | _ => True

end Crew

variable {cfg}

/-! ## An attempt, from its first suspension to its end -/

/-- What a segment of `connect()` inside the `try` ends with: the attempt goes on, or it is over,
and the connector connected only if it has succeeded. -/
structure Tried (r : Conn S × ConnectAct S) : Prop where
  suspend : ∀ k pc, r.2 = .suspend pc → (Pc.connect k pc).attempting = true
  finish : ∀ o, r.2 = .finish o → o ≠ .returned → r.1.state ≠ .connected

theorem connectFailed_tried {c : Conn S} (t : TaskId) (h : c.state ≠ .connected) :
    Tried (connectFailed cfg c t) := by
  unfold connectFailed
  rcases transitionState_cases c .failed with ⟨hv, he⟩ | ⟨hv, he⟩ <;> rw [he]
  · rcases cleanup_cases { c with state := .failed } with ⟨hw, hc⟩ | ⟨w, hw, hc⟩ <;>
      simp only [hc]
    · exact ⟨fun _ _ hpc => (by cases hpc), fun _ _ _ => by simp [connectFinally]⟩
    · exact ⟨fun k pc hpc => by cases hpc; rfl, fun _ ho => (by cases ho)⟩
  · exact ⟨fun _ _ hpc => (by cases hpc), fun _ _ _ => h⟩

theorem connectSubscribed_tried {c : Conn S} (t : TaskId) (h : c.state ≠ .connected) :
    Tried (connectSubscribed cfg c t) := by
  unfold connectSubscribed
  rcases transitionState_cases c .connected with ⟨hv, he⟩ | ⟨hv, he⟩ <;> rw [he]
  · exact ⟨fun _ _ hpc => (by cases hpc), fun o ho hne => absurd (by cases ho; rfl) hne⟩
  · exact connectFailed_tried t h

theorem connectSending_tried {c : Conn S} (t : TaskId) (h : c.state ≠ .connected) :
    ∀ x : S.Inst × SendStep S.Coro S.Payload, Tried (connectSending cfg c t x)
  | (_, .send _ _ _) => ⟨fun k pc hpc => by cases hpc; rfl, fun _ ho => (by cases ho)⟩
  | (_, .returned) => connectSubscribed_tried t h
  | (_, .raised _) => connectFailed_tried t h

theorem resumeConnect_tried {isDone : TaskId → Bool} {c : Conn S} {t : TaskId} {k : Caller}
    {pc : ConnectPc S} {w : Wake S} {r : Conn S × ConnectAct S}
    (hpc : (Pc.connect k pc).attempting = true) (h : c.state ≠ .connected)
    (hr : resumeConnect cfg isDone c t pc w = some r) : Tried r := by
  cases pc with
  | dialing =>
    cases w <;> simp only [resumeConnect, Option.some.injEq, reduceCtorEq] at hr <;> subst hr
    · exact connectSending_tried
        (c := { c with websocket := some c.opened, opened := c.opened + 1 }) t h _
    · exact connectFailed_tried t h
    · exact ⟨fun _ _ hpc => (by cases hpc), fun _ _ _ => h⟩
  | sending w' p q =>
    cases w <;> simp only [resumeConnect, Option.some.injEq, reduceCtorEq] at hr <;> subst hr
    · exact connectSending_tried (c := { c with sent := c.sent ++ [(w', p)] }) t h _
    · exact connectSending_tried t h _
    · exact ⟨fun _ _ hpc => (by cases hpc), fun _ _ _ => h⟩
  | closing w' =>
    cases w <;> simp only [resumeConnect, Option.some.injEq, reduceCtorEq] at hr <;> subst hr <;>
      exact ⟨fun _ _ hpc => (by cases hpc), fun _ _ _ => h⟩
  | _ => cases hpc

/-- After an attempt that has not succeeded, up to the next suspension. -/
def Point.Unsettled : Point S → Conn S → Prop
  | .ended _ r, c => r ≠ .returned ∧ c.state ≠ .connected
  | .finished _, c => c.state ≠ .connected
  | .lost, c => c.state ≠ .connected
  | .lostCleanup, c => c.state ≠ .connected
  | .retry, c => c.state ≠ .connected
  | .suspended _, c => c.state ≠ .connected
  | _, _ => False

theorem Edge.unsettled {isDone : TaskId → Bool} {t : TaskId} {P P' : Point S} {c c' : Conn S}
    (h : Edge cfg isDone t P c P' c') (hP : P.Unsettled c) : P'.Unsettled c' := by
  cases h
  case endedTask | endedStreamRaised | endedStreamCancelled | endedReconnectInvalid |
      endedReconnectRaised | endedReconnectCancelled => exact hP.2
  case endedStreamReturned | endedReconnectReturned => exact absurd rfl hP.1
  case endedReconnectFailed | lostFailed | giveUpFailed => exact nofun
  case lostConnected hs => exact absurd hs hP
  case lostOther | lostClose | lostNone | backoff | giveUp => exact hP
  all_goals exact hP.elim

/-- Whoever called it, an attempt that has not succeeded leaves the connector unconnected. -/
theorem afterConnect_unsettled {isDone : TaskId → Bool} {t : TaskId} {k : Caller} {c : Conn S}
    {o : Outcome} (ho : o ≠ .returned) (hc : c.state ≠ .connected) :
    (afterConnect cfg isDone t k (c, .finish o)).1.state ≠ .connected := by
  have hp : Path cfg isDone t (.ended k o, c) ((afterConnect cfg isDone t k (c, .finish o)).2.point,
      (afterConnect cfg isDone t k (c, .finish o)).1) := afterConnect_path (c, .finish o) k
  generalize afterConnect cfg isDone t k (c, .finish o) = r at hp
  have hall : ∀ {x : Point S × Conn S}, Path cfg isDone t (.ended k o, c) x →
      x.1.Unsettled x.2 := fun hx => by
    induction hx with
    | refl => exact ⟨ho, hc⟩
    | tail _ he ih => exact he.unsettled ih
  have hend := hall hp
  obtain ⟨d, a⟩ := r
  cases a with
  | suspend | finish => exact hend
  | yields => exact hend.elim

/-- `connect()` returns when the connector is connected, or straight from its wait. -/
theorem Edge.returned_of {isDone : TaskId → Bool} {t : TaskId} {P P' : Point S} {c c' : Conn S}
    {k : Caller} (h : Edge cfg isDone t P c P' c') (hP : P' = .ended k .returned) :
    c'.state = .connected ∨ ∃ o, P = .resumed (.connect k (.awaitTask o)) .done ∨
      P = .resumed (.connect k (.awaitTaskLocked o)) .done := by
  cases h
  case connectAlready hs => exact .inl hs
  case lockedAlready hs => exact .inl hs
  case connected => exact .inl rfl
  case taskReturned => cases hP; exact .inr ⟨_, .inl rfl⟩
  case lockedReturned => cases hP; exact .inr ⟨_, .inr rfl⟩
  all_goals cases hP

theorem resumeConnect_returned {isDone : TaskId → Bool} {c d : Conn S} {t : TaskId}
    {pc : ConnectPc S} {w : Wake S} (k : Caller)
    (hr : resumeConnect cfg isDone c t pc w = some (d, .finish .returned)) :
    d.state = .connected ∨ w = .done ∧ ∃ o, (Pc.connect k pc).awaited = some o := by
  have hp : Path cfg isDone t (.resumed (.connect k pc) w, c) (.ended k .returned, d) :=
    resumeConnect_path hr
  rcases Relation.ReflTransGen.cases_tail hp with heq | ⟨⟨Q, e⟩, hpre, he⟩
  · cases heq
  · rcases he.returned_of rfl with hs | ⟨o, rfl | rfl⟩
    · exact .inl hs
    all_goals
      -- no edge leads to a resumption, so the path is that edge alone
      rcases Relation.ReflTransGen.cases_tail hpre with heq | ⟨⟨R, b⟩, -, hlast⟩
      · cases heq
        exact .inr ⟨rfl, o, rfl⟩
      · cases hlast

/-! ## An attempt in progress -/

/-- The connector is not connected while an attempt is in progress. -/
structure Exclusive (p : TaskId → Point S) (c : Conn S) : Prop where
  disciplined : Disciplined p c
  unconnected : ∀ t, (p t).attempting = true → c.state ≠ .connected

/-- Only an attempt connects, and ends so. -/
theorem Edge.connected_of {isDone : TaskId → Bool} {t : TaskId} {P P' : Point S} {c c' : Conn S}
    (h : Edge cfg isDone t P c P' c') (hs : c'.state = .connected) :
    c.state = .connected ∨ P.attempting = true ∧ P'.attempting = false := by
  cases h
  case connected => exact .inr ⟨rfl, rfl⟩
  all_goals first | exact .inl hs | cases hs

/-- An attempt begins on a connector that is not connected. -/
theorem Edge.attempting_of {isDone : TaskId → Bool} {t : TaskId} {P P' : Point S} {c c' : Conn S}
    (h : Edge cfg isDone t P c P' c') (ha : P'.attempting = true) :
    P.attempting = true ∨ c.state ≠ .connected ∨ P.awaitsUnderLock = true := by
  cases h
  case lockedAttempt hs _ => exact .inr (.inl hs)
  case lockedRaised => exact .inr (.inr rfl)
  all_goals first | exact .inl rfl | cases ha

theorem Edge.exclusive {isDone : TaskId → Bool} {t : TaskId} {p : TaskId → Point S}
    {P P' : Point S} {c c' : Conn S} (h : Edge cfg isDone t P c P' c')
    (he : Exclusive (update p t P) c) : Exclusive (update p t P') c' := by
  refine ⟨h.disciplined he.disciplined, fun u hu hs => ?_⟩
  rcases h.connected_of hs with hc | ⟨ha, ha'⟩
  · by_cases hut : u = t
    · subst hut
      rw [update_self] at hu
      rcases h.attempting_of hu with ha | hne | hw
      · exact he.unconnected u (by rwa [update_self]) hc
      · exact hne hc
      · have hno := he.disciplined.notAwaiting u
        rw [update_self, hw] at hno
        cases hno
    · exact he.unconnected u (by rwa [update_of_ne hut] at hu ⊢) hc
  · by_cases hut : u = t
    · rw [hut, update_self, ha'] at hu
      cases hu
    · rw [update_of_ne hut] at hu
      exact hut (he.disciplined.mutex (by rw [update_of_ne hut]; exact Point.attempting_holding hu)
        (by rw [update_self]; exact Point.attempting_holding ha))

theorem Exclusive.update {p : TaskId → Point S} {c : Conn S} {t : TaskId} {P : Point S}
    (h : Exclusive p c) (hd : Disciplined (update p t P) c)
    (hP : P.attempting = (p t).attempting) : Exclusive (update p t P) c := by
  refine ⟨hd, fun u hu => ?_⟩
  by_cases hut : u = t
  · subst hut
    exact h.unconnected u (by rwa [update_self, hP] at hu)
  · exact h.unconnected u (by rwa [update_of_ne hut] at hu)

theorem keeps_exclusive (cfg : ExchangeConfig U) :
    Keeps cfg (fun _ _ => True) (Exclusive (S := S)) where
  edge he h := he.exclusive h
  call hg hi h := h.update ((keeps_disciplined cfg).call hg hi h.disciplined) (by rw [hi]; rfl)
  next hg hi hm h :=
    h.update ((keeps_disciplined cfg).next hg hi hm h.disciplined) (by rw [hi]; rfl)
  resume hg hp h := h.update ((keeps_disciplined cfg).resume hg hp h.disciplined) (by rw [hp]; rfl)
  rest {p t c P} h := by
    have := h.update (t := t) (P := P.rest)
      (by simpa using (keeps_disciplined cfg).rest h.disciplined)
      (by rw [update_self]; cases P <;> rfl)
    simpa using this

/-! ## What a segment does -/

/-- What a segment of `t` does to the tasks. -/
structure Sys.Goes (s : Sys S) (t : TaskId) (s' : Sys S) : Prop where
  unfinished : (s.tasks t).outcome = none
  outcome : (s'.tasks t).outcome = none
  others : ∀ u, u ≠ t → s'.tasks u = s.tasks u
  awaits : ∀ o, s'.Awaits t o → s'.conn.connectingTask = some o ∧ s.isDone o = false

theorem Sys.goes_settle {s : Sys S} {t : TaskId} {k : Task S} {P : Point S} {r : Conn S × Act S}
    (ho : (s.tasks t).outcome = none) (hk : k.outcome = none)
    (hp : Path cfg s.isDone t (P, s.conn) (r.2.point, r.1)) (hP : ∀ pc, P ≠ .suspended pc) :
    s.Goes t (s.settle t k r) := by
  refine ⟨ho, (s.settle_outcome t k r).trans hk, fun u hut => s.settle_tasks_ne hut k r,
    fun o ha => ?_⟩
  obtain ⟨c, a⟩ := r
  cases a with
  | suspend pc =>
    have ha' : pc.awaited = some o := by simpa [Sys.Awaits, Sys.settle, Sys.setTask] using ha
    exact hp.awaits_connecting hP rfl ha'
  | _ => simp [Sys.Awaits, Sys.settle, Sys.setTask] at ha

theorem step_goes {s s' : Sys S} {l : Label S} {t : TaskId} (hd : s.DoneIdle)
    (hl : l.caller = some t) (hs : step cfg s l = some s') : s.Goes t s' := by
  cases step_move hs with
  | call ho _ =>
    cases hl
    exact Sys.goes_settle ho ho (enter_path _ _) nofun
  | next ho _ _ =>
    cases hl
    exact Sys.goes_settle ho ho (yieldMessages_path _ _) nofun
  | @resume t pc w r hc _ hr =>
    cases hl
    have ho : (s.tasks t).outcome = none := hd.outcome (.inl (by rw [hc]; nofun))
    exact Sys.goes_settle ho ho (advance_path hr) nofun
  | cancel => cases hl
  | exit => cases hl

/-- What a segment makes of the attempt of `t`: it goes on, or it ends. -/
theorem step_attempting {s s' : Sys S} {l : Label S} {t : TaskId} (he : Exclusive s.point s.conn)
    (ha : (s.point t).attempting = true) (hl : l.caller = some t) (hs : step cfg s l = some s') :
    (s'.point t).attempting = true ∨ ∃ r, s.attemptEnd cfg l = some (t, r) ∧
      (r ≠ .returned → s'.conn.state ≠ .connected) := by
  have hne := he.unconnected t ha
  cases step_move hs with
  | call _ hc =>
    cases hl
    rw [Sys.point_idle.2 hc] at ha
    cases ha
  | next _ hc _ =>
    cases hl
    rw [Sys.point_idle.2 hc] at ha
    cases ha
  | cancel => cases hl
  | exit => cases hl
  | @resume t pc w r hc _ hr =>
    cases hl
    rw [Sys.point_suspended.2 hc] at ha
    cases pc with
    | connect k pc =>
      simp only [advance, Option.map_eq_some_iff] at hr
      obtain ⟨x, hx, rfl⟩ := hr
      have htried := resumeConnect_tried (k := k) ha hne hx
      obtain ⟨c, a⟩ := x
      cases a with
      | suspend q =>
        left
        have hact : (afterConnect cfg s.isDone t k (c, .suspend q)).2 =
            .suspend (.connect k q) := by cases k <;> rfl
        rw [Sys.settle_point, update_self, hact]
        exact htried.suspend k q rfl
      | finish o =>
        refine .inr ⟨o, ?_, fun ho => ?_⟩
        · have hatt : (Pc.connect k pc).attempting = true := ha
          simp only [Sys.attemptEnd, hc, hatt, hx, if_true]
        · rw [Sys.settle_conn]
          exact afterConnect_unsettled ho (htried.finish o rfl ho)
    | _ => cases ha

theorem Sys.attemptEnd_some {s : Sys S} {l : Label S} {o : TaskId} {r : Outcome}
    (h : s.attemptEnd cfg l = some (o, r)) :
    l.caller = some o ∧ (s.point o).attempting = true := by
  cases l with
  | resume t w =>
    simp only [Sys.attemptEnd] at h
    split at h
    · rename_i k pc hc
      split at h
      · rename_i ha
        split at h
        · cases h
          exact ⟨rfl, by rw [Sys.point_suspended.2 hc]; exact ha⟩
        · cases h
      · cases h
    · cases h
  | _ => cases h

/-- A task that awaits another one makes no attempt. -/
theorem Sys.Awaits.not_attempting {s : Sys S} {t o : TaskId} (h : s.Awaits t o) :
    (s.point t).attempting = false := by
  obtain ⟨k, hp | hp⟩ := h.point <;> rw [hp] <;> rfl

/-! ## The end of a task -/

theorem Sys.endWith_call (s : Sys S) (t : TaskId) (x : Option Outcome) (u : TaskId) :
    ((s.endWith t x).tasks u).call = (s.tasks u).call := by
  cases x with
  | none => rfl
  | some o =>
    by_cases hut : u = t
    · subst hut
      simp [Sys.endWith]
    · rw [Sys.endWith, Sys.setTask_ne s hut]

theorem Sys.endWith_conn (s : Sys S) (t : TaskId) (x : Option Outcome) :
    (s.endWith t x).conn = s.conn := by
  cases x <;> rfl

theorem Sys.endWith_point (s : Sys S) (t : TaskId) (x : Option Outcome) :
    (s.endWith t x).point = s.point :=
  Sys.point_congr (s.endWith_call t x)

theorem Sys.endWith_awaits {s : Sys S} {t : TaskId} {x : Option Outcome} {u o : TaskId} :
    (s.endWith t x).Awaits u o ↔ s.Awaits u o := by
  rw [Sys.Awaits, Sys.Awaits, s.endWith_call]

theorem Sys.endWith_ne (s : Sys S) {t u : TaskId} (h : u ≠ t) (x : Option Outcome) :
    (s.endWith t x).tasks u = s.tasks u := by
  cases x with
  | none => rfl
  | some o => exact Sys.setTask_ne s h _

theorem Sys.endWith_outcome {s : Sys S} {t : TaskId} (h : (s.tasks t).outcome = none)
    (x : Option Outcome) : ((s.endWith t x).tasks t).outcome = x := by
  cases x with
  | none => exact h
  | some o => simp [Sys.endWith]

theorem Sys.DoneIdle.endWith {s : Sys S} (h : s.DoneIdle) {t : TaskId} {x : Option Outcome}
    (hx : x = none ∨ (s.tasks t).call = none) : (s.endWith t x).DoneIdle := by
  cases x with
  | none => exact h
  | some o => exact h.setTask fun _ => ⟨hx.resolve_left nofun, rfl⟩

/-- A pending cancellation changes neither the calls nor the ends of the tasks. -/
theorem Sys.setCancelling (s : Sys S) (u v : TaskId) :
    ((s.setTask u { s.tasks u with cancelling := true }).tasks v).call = (s.tasks v).call ∧
      ((s.setTask u { s.tasks u with cancelling := true }).tasks v).outcome =
        (s.tasks v).outcome := by
  by_cases hvu : v = u
  · subst hvu
    rw [Sys.setTask_self]
    exact ⟨rfl, rfl⟩
  · rw [Sys.setTask_ne _ hvu]
    exact ⟨rfl, rfl⟩

/-! ## Turns -/

/-- What a turn is. -/
inductive Turned (cfg : ExchangeConfig U) (c : Crew S) : Turn S → Crew S → Prop
  | segment {l t s ends} : l.caller = some t → step cfg c.sys l = some s →
      (ends = none ∨ (s.tasks t).call = none) →
      Turned cfg c (.segment l ends)
        { c with sys := s.endWith t ends, verdict := c.verdicts cfg l t }
  | join {t u} : (c.sys.tasks t).outcome = none → u ≠ t →
      Turned cfg c (.join t u) { c with joined := update c.joined t (some u) }
  | cancel {t depth} (u : TaskId) :
      Turned cfg c (.cancel t depth)
        { c with sys := c.sys.setTask u { c.sys.tasks u with cancelling := true } }
  | exit {t o} : (c.sys.tasks t).outcome = none → (c.sys.tasks t).call = none →
      Turned cfg c (.exit t o) { c with sys := c.sys.endWith t (some o) }

theorem Crew.turned {c c' : Crew S} {m : Turn S} (h : c.turn cfg m = some c') :
    Turned cfg c m c' := by
  cases m with
  | segment l ends =>
    simp only [Crew.turn, Option.isNone_iff_eq_none] at h
    split at h
    · rename_i t s hl hs
      split at h
      · rename_i hc
        cases h
        exact .segment hl hs hc.2
      · cases h
    · cases h
  | join t u =>
    simp only [Crew.turn, Option.isNone_iff_eq_none] at h
    split at h
    · rename_i hc
      cases h
      exact .join hc.1 hc.2.2.2
    · cases h
  | cancel t depth =>
    simp only [Crew.turn] at h
    split at h
    · cases h
    · split at h
      · cases h
        exact .cancel _
      · cases h
  | exit t o =>
    simp only [Crew.turn, Option.isNone_iff_eq_none] at h
    split at h
    · rename_i hc
      cases h
      exact .exit hc.1 hc.2.1
    · cases h

/-! ## Invariants -/

namespace Crew

theorem verdicts_self (c : Crew S) (l : Label S) (t : TaskId) : c.verdicts cfg l t t = none :=
  if_pos rfl

theorem verdicts_over {c : Crew S} {l : Label S} {t u o : TaskId} {r : Outcome} (hut : u ≠ t)
    (ha : c.sys.Awaits u o) (he : c.sys.attemptEnd cfg l = some (o, r)) :
    c.verdicts cfg l t u = (c.verdict u).or (some r) := by
  have hb : (c.sys.tasks u).call.bind Pc.awaited = some o := ha
  simp only [verdicts, if_neg hut, he, hb, if_true]

theorem verdicts_keep {c : Crew S} {l : Label S} {t u o : TaskId} (hut : u ≠ t)
    (ha : c.sys.Awaits u o) (hne : ∀ r, c.sys.attemptEnd cfg l ≠ some (o, r)) :
    c.verdicts cfg l t u = c.verdict u := by
  have hb : (c.sys.tasks u).call.bind Pc.awaited = some o := ha
  simp only [verdicts, if_neg hut]
  split
  · rename_i v r he
    rw [hb, if_neg]
    intro h
    cases h
    exact hne r he
  · rfl

/-- The invariant of every run: the attempt a call waits for is in progress until it is known to
be over. -/
structure Sound (c : Crew S) : Prop where
  exclusive : Exclusive c.sys.point c.sys.conn
  doneIdle : c.sys.DoneIdle
  inProgress : ∀ t o, c.sys.Awaits t o → c.verdict t = none → (c.sys.point o).attempting = true

/-- What holds besides if attempts end together with their tasks. -/
structure Faithful (c : Crew S) : Prop where
  ready : ∀ t o r, c.sys.Awaits t o → c.verdict t = some r → c.sys.isDone o = true
  returned : ∀ t o, c.sys.Awaits t o → (c.sys.tasks o).outcome = some .returned →
    c.verdict t = some .returned

/-- Of two tasks that await each other in their own code, one is done. -/
def Apart (c : Crew S) : Prop :=
  ∀ t u, c.joined t = some u → c.joined u = some t → c.sys.isDone t = true ∨ c.sys.isDone u = true

theorem Sound.congr {c c' : Crew S} (h : c.Sound) (hc : c'.sys.conn = c.sys.conn)
    (ht : ∀ u, (c'.sys.tasks u).call = (c.sys.tasks u).call) (ho : c'.verdict = c.verdict)
    (hd : c'.sys.DoneIdle) : c'.Sound := by
  have hp : c'.sys.point = c.sys.point := Sys.point_congr ht
  refine ⟨by rw [hp, hc]; exact h.exclusive, hd, fun u o ha hn => ?_⟩
  rw [Sys.Awaits, ht] at ha
  rw [hp]
  exact h.inProgress u o ha (ho ▸ hn)

theorem turn_sound {c c' : Crew S} {m : Turn S} (h : c.Sound) (hm : c.turn cfg m = some c') :
    c'.Sound := by
  cases turned hm with
  | @segment l t s ends hl hs hc =>
    have hgo := step_goes h.doneIdle hl hs
    have hex : Exclusive s.point s.conn := (keeps_exclusive cfg).step trivial h.exclusive hs
    refine ⟨?_, (step_doneIdle h.doneIdle hs).endWith hc, fun u o ha ho => ?_⟩
    · rw [Sys.endWith_point, Sys.endWith_conn]
      exact hex
    · rw [Sys.endWith_awaits] at ha
      rw [Sys.endWith_point]
      change c.verdicts cfg l t u = none at ho
      by_cases hut : u = t
      · subst hut
        exact (hex.disciplined.connecting o).1 (hgo.awaits o ha).1
      · have ha' : c.sys.Awaits u o := by rw [Sys.Awaits, ← hgo.others u hut]; exact ha
        by_cases hot : o = t
        · subst hot
          by_cases he : ∃ r, c.sys.attemptEnd cfg l = some (o, r)
          · obtain ⟨r, he⟩ := he
            rw [verdicts_over hut ha' he] at ho
            cases hv : c.verdict u <;> simp [hv] at ho
          · have hn : c.verdict u = none :=
              (verdicts_keep hut ha' fun r hr => he ⟨r, hr⟩).symm.trans ho
            rcases step_attempting h.exclusive (h.inProgress u o ha' hn) hl hs with ha | ⟨r, hr, -⟩
            · exact ha
            · exact absurd ⟨r, hr⟩ he
        · have hne : ∀ r, c.sys.attemptEnd cfg l ≠ some (o, r) := fun r hr => by
            have hco := (Sys.attemptEnd_some hr).1
            rw [hl] at hco
            exact hot (Option.some.inj hco).symm
          have hp : s.point o = c.sys.point o := by
            unfold Sys.point
            rw [hgo.others o hot]
          rw [hp]
          exact h.inProgress u o ha' ((verdicts_keep hut ha' hne).symm.trans ho)
  | join => exact h.congr rfl (fun _ => rfl) rfl h.doneIdle
  | cancel u =>
    exact h.congr rfl (fun v => (c.sys.setCancelling u v).1) rfl
      (h.doneIdle.setTask fun hd => h.doneIdle u hd)
  | @exit t o _ hc =>
    have hd : (c.sys.endWith t (some o)).DoneIdle := h.doneIdle.endWith (.inr hc)
    exact h.congr rfl (c.sys.endWith_call t (some o)) rfl hd

/-- A task that is done stays done. -/
theorem turn_done {c c' : Crew S} {m : Turn S} (h : c.Sound) (hm : c.turn cfg m = some c')
    {o : TaskId} (ho : c.sys.isDone o = true) :
    c'.sys.isDone o = true ∧ (c'.sys.tasks o).outcome = (c.sys.tasks o).outcome := by
  have keep : (c'.sys.tasks o).outcome = (c.sys.tasks o).outcome := by
    have ne : ∀ {t : TaskId}, (c.sys.tasks t).outcome = none → o ≠ t := by
      rintro t ht rfl
      rw [Sys.isDone, ht] at ho
      cases ho
    cases turned hm with
    | segment hl hs _ =>
      have hgo := step_goes h.doneIdle hl hs
      have hot := ne hgo.unfinished
      rw [Sys.endWith_ne _ hot, hgo.others o hot]
    | join => rfl
    | cancel u => exact (c.sys.setCancelling u o).2
    | exit hn _ => rw [Sys.endWith_ne _ (ne hn)]
  exact ⟨by rw [Sys.isDone, keep]; exact ho, keep⟩

theorem Faithful.congr {c c' : Crew S} (h : c.Faithful)
    (ht : ∀ u, (c'.sys.tasks u).call = (c.sys.tasks u).call) (ho : c'.verdict = c.verdict)
    (hout : ∀ t o, c.sys.Awaits t o → (c'.sys.tasks o).outcome = (c.sys.tasks o).outcome) :
    c'.Faithful := by
  have before : ∀ {t o}, c'.sys.Awaits t o → c.sys.Awaits t o := fun {t o} ha => by
    rwa [Sys.Awaits, ht] at ha
  refine ⟨fun t o r ha hr => ?_, fun t o ha hr => ?_⟩
  · rw [Sys.isDone, hout t o (before ha)]
    exact h.ready t o r (before ha) (ho ▸ hr)
  · rw [hout t o (before ha)] at hr
    rw [ho]
    exact h.returned t o (before ha) hr

/-- **The step lemma**: an attempt that a call waits for ends together with its task. -/
theorem turn_faithful {c c' : Crew S} {m : Turn S} (h : c.Sound) (hf : c.Faithful)
    (hg : c.EndsTogether cfg m) (hm : c.turn cfg m = some c') : c'.Faithful := by
  have done : ∀ {o}, c.sys.isDone o = true → c'.sys.isDone o = true := fun ho =>
    (turn_done h hm ho).1
  have hm' := turned hm
  cases hm' with
  | @segment l t s ends hl hs hc =>
    have hgo := step_goes h.doneIdle hl hs
    have hex : Exclusive s.point s.conn := (keeps_exclusive cfg).step trivial h.exclusive hs
    have before : ∀ {u o}, u ≠ t → (s.endWith t ends).Awaits u o → c.sys.Awaits u o := by
      intro u o hut ha
      rw [Sys.endWith_awaits, Sys.Awaits, hgo.others u hut] at ha
      exact ha
    -- the attempt of `o` ends in this segment: then so does its task
    have ended : ∀ {u o r}, c.sys.Awaits u o → c.sys.attemptEnd cfg l = some (o, r) →
        o = t ∧ ∃ x, ends = some x ∧ (x = .returned → r = .returned) := by
      intro u o r ha he
      have hco := (Sys.attemptEnd_some he).1
      rw [hl] at hco
      exact ⟨(Option.some.inj hco).symm, hg o r he ⟨u, ha⟩⟩
    refine ⟨fun u o r ha ho => ?_, fun u o ha ho => ?_⟩
    · change c.verdicts cfg l t u = some r at ho
      have hut : u ≠ t := by
        rintro rfl
        rw [verdicts_self] at ho
        cases ho
      by_cases he : ∃ r, c.sys.attemptEnd cfg l = some (o, r)
      · obtain ⟨r', he⟩ := he
        obtain ⟨rfl, x, rfl, -⟩ := ended (before hut ha) he
        show (s.endWith o (some x)).isDone o = true
        rw [Sys.isDone, Sys.endWith_outcome hgo.outcome]
        rfl
      · rw [verdicts_keep hut (before hut ha) fun r' hr => he ⟨r', hr⟩] at ho
        exact done (hf.ready u o r (before hut ha) ho)
    · change c.verdicts cfg l t u = some .returned
      change ((s.endWith t ends).tasks o).outcome = some .returned at ho
      by_cases hut : u = t
      · -- it has just begun to wait, for a task that is not done
        subst hut
        rw [Sys.endWith_awaits] at ha
        obtain ⟨hcon, hod⟩ := hgo.awaits o ha
        have hou : o ≠ u := by
          rintro rfl
          have hatt := (hex.disciplined.connecting o).1 hcon
          rw [Sys.Awaits.not_attempting ha] at hatt
          cases hatt
        rw [Sys.endWith_ne _ hou, hgo.others o hou] at ho
        rw [Sys.isDone, ho] at hod
        cases hod
      · have ha' := before hut ha
        by_cases hot : o = t
        · subst hot
          have hn : c.verdict u = none := by
            cases hv : c.verdict u with
            | none => rfl
            | some r =>
              have hd := hf.ready u o r ha' hv
              rw [Sys.isDone, hgo.unfinished] at hd
              cases hd
          rw [Sys.endWith_outcome hgo.outcome] at ho
          have hcall : (s.tasks o).call = none := hc.resolve_left (by rw [ho]; simp)
          rcases step_attempting h.exclusive (h.inProgress u o ha' hn) hl hs with hatt | ⟨r, he, -⟩
          · rw [Sys.point_idle.2 hcall] at hatt
            cases hatt
          · obtain ⟨-, x, hx, hr⟩ := ended ha' he
            rw [verdicts_over hut ha' he, hn, hr (Option.some.inj (hx.symm.trans ho))]
            rfl
        · rw [Sys.endWith_ne _ hot, hgo.others o hot] at ho
          rw [verdicts_keep hut ha' fun r hr => hot (ended ha' hr).1]
          exact hf.returned u o ha' ho
  | join => exact hf.congr (fun _ => rfl) rfl fun _ _ _ => rfl
  | cancel u =>
    exact hf.congr (fun v => (c.sys.setCancelling u v).1) rfl
      fun _ o _ => (c.sys.setCancelling u o).2
  | @exit t x hn hc =>
    refine hf.congr (c.sys.endWith_call t (some x)) rfl fun u o ha => ?_
    by_cases hot : o = t
    · -- nobody awaits a task that is not done and makes no attempt
      subst hot
      exfalso
      cases hv : c.verdict u with
      | none =>
        have hatt := h.inProgress u o ha hv
        rw [Sys.point_idle.2 hc] at hatt
        cases hatt
      | some r =>
        have hd := hf.ready u o r ha hv
        rw [Sys.isDone, hn] at hd
        cases hd
    · exact congrArg Task.outcome (c.sys.endWith_ne hot (some x))

theorem turn_apart {c c' : Crew S} {m : Turn S} (h : c.Sound) (ha : c.Apart)
    (hg : c.JoinsApart m) (hm : c.turn cfg m = some c') : c'.Apart := by
  have done : ∀ {o}, c.sys.isDone o = true → c'.sys.isDone o = true := fun ho =>
    (turn_done h hm ho).1
  have same : c'.joined = c.joined → c'.Apart := fun hj t u ht hu =>
    (ha t u (hj ▸ ht) (hj ▸ hu)).imp done done
  cases turned hm with
  | segment => exact same rfl
  | cancel => exact same rfl
  | exit => exact same rfl
  | @join t u hn hne =>
    intro a b hab hba
    change update c.joined t (some u) a = some b at hab
    change update c.joined t (some u) b = some a at hba
    by_cases hat : a = t
    · subst hat
      rw [update_self] at hab
      cases hab
      rw [update_of_ne hne] at hba
      exact absurd hba hg
    · rw [update_of_ne hat] at hab
      by_cases hbt : b = t
      · subst hbt
        rw [update_self] at hba
        cases hba
        exact absurd hab hg
      · rw [update_of_ne hbt] at hba
        exact ha a b hab hba

/-! ## Released -/

theorem Faithful.released {c : Crew S} (h : c.Faithful) : c.Released cfg := by
  refine ⟨h.ready, fun t k pc w d hc ha hr => ?_⟩
  rcases resumeConnect_returned k hr with hs | ⟨rfl, o, ho⟩
  · exact .inr hs
  · refine .inl (h.returned t o ?_ ?_)
    · rw [Sys.Awaits, hc]
      exact ho
    · simpa [Sys.admits, ho] using ha

/-- What the first state that is not `Released` shows: an attempt has ended without its task. -/
theorem Released.endsTogether {c c' : Crew S} {m : Turn S} (h : c.Sound) (hp : c.Released cfg)
    (hp' : c'.Released cfg) (hm : c.turn cfg m = some c') : c.EndsTogether cfg m := by
  cases turned hm with
  | @segment l t s ends hl hs hc =>
    rintro o r he ⟨u, ha⟩
    have hgo := step_goes h.doneIdle hl hs
    obtain ⟨hco, hatt⟩ := Sys.attemptEnd_some he
    rw [hl] at hco
    cases hco
    have hut : u ≠ t := by
      rintro rfl
      rw [ha.not_attempting] at hatt
      cases hatt
    have hn : c.verdict u = none := by
      cases hv : c.verdict u with
      | none => rfl
      | some r' =>
        have hd := hp.ready u t r' ha hv
        rw [Sys.isDone, hgo.unfinished] at hd
        cases hd
    have ha' : (s.endWith t ends).Awaits u t := by
      rw [Sys.endWith_awaits, Sys.Awaits, hgo.others u hut]
      exact ha
    have hv : c.verdicts cfg l t u = some r := by
      rw [verdicts_over hut ha he, hn]
      rfl
    have hout : ((s.endWith t ends).tasks t).outcome = ends := Sys.endWith_outcome hgo.outcome ends
    have hd := hp'.ready u t r ha' hv
    rw [Sys.isDone, hout] at hd
    obtain ⟨x, rfl⟩ := Option.isSome_iff_exists.1 hd
    refine ⟨x, rfl, ?_⟩
    rintro rfl
    -- the waiting call could return now, so its attempt has succeeded
    by_contra hr
    have hne : s.conn.state ≠ .connected := by
      rcases step_attempting h.exclusive hatt hl hs with hon | ⟨r', he', hr'⟩
      · rw [Sys.point_idle.2 (hc.resolve_left (by simp))] at hon
        cases hon
      · rw [he] at he'
        cases he'
        exact hr' hr
    have hwait : ∀ k pc, (Pc.connect k pc).awaited = some t → ∀ d : Conn S,
        d.state = s.conn.state →
        (s.endWith t (some .returned)).point u = .suspended (.connect k pc) →
        resumeConnect cfg (s.endWith t (some .returned)).isDone
          (s.endWith t (some .returned)).conn u pc .done = some (d, .finish .returned) → False := by
      intro k pc hpc d hd hu hres
      rcases hp'.returns u k pc .done d (Sys.point_suspended.1 hu)
        (by simp [Sys.admits, hpc, hout]) hres with hov | hst
      · exact hr (Option.some.inj (hv.symm.trans hov))
      · exact hne (hd.symm.trans hst)
    obtain ⟨k, hu | hu⟩ := ha'.point
    · exact hwait k _ rfl s.conn rfl hu rfl
    · exact hwait k _ rfl { s.conn with connectLock := s.conn.connectLock.release } rfl hu rfl
  | join => trivial
  | cancel => trivial
  | exit => trivial

theorem not_deadlocked {c : Crew S} (h : c.Sound) (hf : c.Faithful) (ha : c.Apart) :
    ¬c.Deadlocked := by
  rintro ⟨⟨t, u, htu, hut⟩, hno⟩
  have waits : ∀ {a b}, c.sys.Awaits a b → c.sys.isDone b = true := by
    intro a b hab
    cases hv : c.verdict a with
    | none =>
      have hatt := h.inProgress a b hab hv
      rw [hno b] at hatt
      cases hatt
    | some r => exact hf.ready a b r hab hv
  have holds : ∀ {b}, c.sys.conn.connectLock.owner = some b →
      (c.sys.point b).lockStatus = .holding := fun {b} hb =>
    (h.exclusive.disciplined.lock.owner b).1 hb
  have queue : ∀ {a b}, c.Blocked b a → c.sys.conn.connectLock.owner ≠ some b := by
    rintro a b ⟨hd, hba | ⟨-, hc, -⟩ | ⟨hw, -⟩⟩ hown
    · rw [waits hba] at hd
      cases hd
    · have hb := holds hown
      rw [Sys.point_idle.2 hc] at hb
      cases hb
    · have hb := holds hown
      rw [hw] at hb
      cases hb
  have joined : ∀ {a b}, c.Blocked a b → c.Blocked b a → c.joined a = some b := by
    rintro a b ⟨hd, hab | ⟨-, -, hj⟩ | ⟨-, hown⟩⟩ hba
    · rw [waits hab] at hd
      cases hd
    · exact hj
    · exact absurd hown (queue hba)
  rcases ha t u (joined htu hut) (joined hut htu) with hd | hd
  · rw [hut.1] at hd
    cases hd
  · rw [htu.1] at hd
    cases hd

theorem sound_init (inst : S.Inst) : (Crew.init (S := S) inst).Sound :=
  ⟨⟨disciplined_init inst, fun _ h => (by cases h)⟩, doneIdle_init inst, fun _ _ h => (by cases h)⟩

theorem faithful_init (inst : S.Inst) : (Crew.init (S := S) inst).Faithful :=
  ⟨fun _ _ _ h => (by cases h), fun _ _ h => (by cases h)⟩

/-- **Waiters are released exactly if attempts end together with their tasks.**  In every run, the
calls that wait for an attempt are released as soon as it is over, and return normally only after
its success or on a connected connector, iff every attempt that a call waits for ends in the same
segment as its task, which ends normally only if the attempt has succeeded.  In such a run, if no
two tasks await each other in their own code, no two are ever blocked on each other with no attempt
in progress. -/
theorem released_iff_endsTogether {inst : S.Inst} {ms : List (Turn S)} {c : Crew S}
    (hr : run (turn cfg) (Crew.init inst) ms = some c) :
    (Always (turn cfg) (Released cfg) (Crew.init inst) ms ↔
      Guarded (turn cfg) (EndsTogether cfg) (Crew.init inst) ms) ∧
    (Guarded (turn cfg) (EndsTogether cfg) (Crew.init inst) ms →
      Guarded (turn cfg) JoinsApart (Crew.init inst) ms →
      Always (turn cfg) (fun c => ¬c.Deadlocked) (Crew.init inst) ms) := by
  have h₀ : (Crew.init (S := S) inst).Sound ∧ (Crew.init (S := S) inst).Faithful :=
    ⟨sound_init inst, faithful_init inst⟩
  have hkeep : ∀ (c : Crew S) m c', c.Sound ∧ c.Faithful → c.EndsTogether cfg m →
      c.turn cfg m = some c' → c'.Sound ∧ c'.Faithful := fun c m c' hc hg hm =>
    ⟨turn_sound hc.1 hm, turn_faithful hc.1 hc.2 hg hm⟩
  refine ⟨?_, fun hg hj => ?_⟩
  · refine always_iff_guarded (I := fun c => c.Sound ∧ c.Faithful) (H := fun _ _ => True)
      (fun c m c' hc _ hg hm => hkeep c m c' hc hg hm) (fun c m c' hc _ hp hm => ?_)
      h₀ h₀.2.released (Guarded.of_forall fun _ _ => trivial) hr
    exact ⟨fun hp' => hp.endsTogether hc.1 hp' hm,
      fun hg => (turn_faithful hc.1 hc.2 hg hm).released⟩
  · refine Always.mono (P := fun c => (c.Sound ∧ c.Faithful) ∧ c.Apart)
      (fun c hc => not_deadlocked hc.1.1 hc.1.2 hc.2)
      (always_of_guarded (G := fun c m => c.EndsTogether cfg m ∧ c.JoinsApart m)
        (fun c m c' hc hg hm => ⟨hkeep c m c' hc.1 hg.1 hm, turn_apart hc.1.1 hc.2 hg.2 hm⟩)
        ⟨h₀, fun _ _ h => (by cases h)⟩ (hg.and hj))

/-! ## Owners that go on, and owners that end -/

/-- Task 0 connects and then awaits task 1, which waits for the connection of task 0. -/
def ownerGoesOn : List (Turn concurrencyTestConnector) :=
  [.segment (.call 0 .connect) none, .segment (.call 1 .connect) none,
    .segment (.resume 0 .done) none, .join 0 1]

/-- Task 0 fails to connect, catches the exception and ends normally; task 1 waited for it. -/
def ownerCatches : List (Turn concurrencyTestConnector) :=
  [.segment (.call 0 .connect) none, .segment (.call 1 .connect) none,
    .segment (.resume 0 (.raised .osError)) (some .returned)]

/-- The body of task 0 is its `connect()`: task 1, which waited for it, returns with it. -/
def ownerEnds : List (Turn concurrencyTestConnector) :=
  [.segment (.call 0 .connect) none, .segment (.call 1 .connect) none,
    .segment (.resume 0 .done) (some .returned), .segment (.resume 1 .done) (some .returned)]

/-- **An owner that goes on leaves its waiter blocked**: task 1 waits for an attempt that has
succeeded, and task 0 for task 1.  And an owner that catches the failure of its attempt lets the
waiter return from `connect()` as if it had succeeded. -/
theorem released_fails :
    (∃ c, run (turn testConfig) (Crew.init (S := concurrencyTestConnector) ()) ownerGoesOn =
        some c ∧
      c.sys.Awaits 1 0 ∧ c.verdict 1 = some .returned ∧ c.sys.isDone 0 = false ∧
      ¬c.Released testConfig ∧ c.Deadlocked) ∧
    ∃ c c', run (turn testConfig) (Crew.init (S := concurrencyTestConnector) ()) ownerCatches =
        some c ∧
      c.turn testConfig (.segment (.resume 1 .done) none) = some c' ∧
      c.verdict 1 = some (.raised (connectFailure testConfig)) ∧
      (c'.sys.tasks 1).last = some .returned ∧ c'.sys.conn.state = .failed ∧
      ¬c.Released testConfig := by
  refine ⟨⟨_, rfl, rfl, rfl, rfl, fun h => ?_,
    ⟨0, 1, ⟨rfl, .inr (.inl ⟨rfl, rfl, rfl⟩)⟩, rfl, .inl rfl⟩, fun v => ?_⟩,
    ⟨_, _, rfl, rfl, rfl, rfl, rfl, fun h => ?_⟩⟩
  · cases h.ready 1 0 _ rfl rfl
  · rcases v with _ | _ | v <;> rfl
  · rcases h.returns 1 .task _ .done _ rfl rfl rfl with h | h <;> cases h

/-- `released_iff_endsTogether` of the run in which the body of each task is its `connect()`. -/
theorem released_ownerEnds :
    Always (turn testConfig) (Released testConfig) (Crew.init (S := concurrencyTestConnector) ())
      ownerEnds ∧
    Always (turn testConfig) (fun c => ¬c.Deadlocked)
      (Crew.init (S := concurrencyTestConnector) ()) ownerEnds := by
  have hg : Guarded (turn testConfig) (EndsTogether testConfig)
      (Crew.init (S := concurrencyTestConnector) ()) ownerEnds := by
    refine .cons (fun _ _ h => (by cases h)) rfl (.cons (fun _ _ h => (by cases h)) rfl
      (.cons (fun o r h _ => ?_) rfl (.cons (fun _ _ h => (by cases h)) rfl trivial)))
    cases h
    exact ⟨_, rfl, fun _ => rfl⟩
  exact ⟨(released_iff_endsTogether rfl).1.2 hg, (released_iff_endsTogether rfl).2 hg
    (.cons trivial rfl (.cons trivial rfl (.cons trivial rfl (.cons trivial rfl trivial))))⟩

end Crew

end FlinkPractices.Connector
