import FlinkPractices.Connector.Transitions

/-!
# One task on the connector

The connector used by a single task, without cancellation (`Label.Of`).  The task never finds the
lock taken or another attempt in flight, so what holds at the place it has reached (`Place`) is what
`Point.Tidy` and `Point.Proper` say, and that the lock is free outside it (`Point.Free`).

* `Point.Free`, `Edge.free` — the lock is free unless the call holds it, and the new socket is
  stored while the call subscribes
* `Place` — the task at a place of an operation of some kind, with the three assertions; kept along
  the edges (`Edge.place`)
* `Sys.Sole` — the invariant of such runs (`step_sole`), and what it says where a call begins
  (`Sys.Sole.call`), where the generator is asked for its next message (`Sys.Sole.next`), and where
  a call is resumed (`Sys.Sole.resume`)
* `Path.sole` — the rule by which a further assertion about the places of the task is carried
  through a segment: what every edge keeps, given the place it starts from, holds where the segment
  ends

`Connector.Budget` and `Upbit.Stream` are proved by that rule.

* `Path.silent` — from the places behind a frame nothing is yielded until the next frame comes
* `Path.recv_socket` — the stream waits on the socket that is stored
-/

set_option autoImplicit false

namespace FlinkPractices.Connector

open Lib Function

variable {U : UpperTable} {S : Subclass} {cfg : ExchangeConfig U}

/-- A step of the task `t`, which nobody cancels. -/
def Label.Of (t : TaskId) : Label S → Prop
  | .call u _ => u = t
  | .next u => u = t
  | .resume u _ => u = t
  | .exit u _ => u = t
  | .cancel _ _ => False

/-! ## The lock and the socket of the only call -/

/-- In the middle of the subscription. -/
def Pc.subscribing : Pc S → Bool
  | .connect _ (.sending _ _ _) => true
  | _ => false

def Point.subscribing : Point S → Bool
  | .suspended pc => pc.subscribing
  | .resumed pc _ => pc.subscribing
  | .sent _ _ => true
  | _ => false

/-- The lock is free unless the call holds it, and the new socket is stored while it subscribes. -/
structure Point.Free (P : Point S) (c : Conn S) : Prop where
  waiters : c.connectLock.waiters = []
  owner : P.lockStatus = .idle → c.connectLock.owner = none
  notWaiting : P.lockStatus ≠ .waiting
  socket : P.subscribing = true → c.websocket ≠ none

theorem Point.Free.lock {P : Point S} {c : Conn S} (h : P.Free c) (hP : P.lockStatus = .idle) :
    c.connectLock = AsyncLock.free := by
  have ho := h.owner hP
  have hw := h.waiters
  generalize c.connectLock = l at ho hw
  cases l
  cases ho
  cases hw
  rfl

theorem Edge.free {isDone : TaskId → Bool} {t : TaskId} {P P' : Point S} {c c' : Conn S}
    (h : Edge cfg isDone t P c P' c') (hP : P.Free c) : P'.Free c' := by
  cases h
  case acquire hl =>
    obtain ⟨-, -, rfl⟩ := AsyncLock.tryAcquire_some hl
    exact ⟨rfl, nofun, nofun, nofun⟩
  case disconnectAcquire hl =>
    obtain ⟨-, -, rfl⟩ := AsyncLock.tryAcquire_some hl
    exact ⟨rfl, nofun, nofun, nofun⟩
  case queue hl | disconnectQueue hl =>
    rw [hP.lock rfl, AsyncLock.tryAcquire_free] at hl
    cases hl
  case lockWoken | lockCancelled | disconnectWoken | disconnectLockCancelled =>
    exact absurd rfl hP.notWaiting
  case dialReturned => exact ⟨hP.waiters, nofun, nofun, fun _ => nofun⟩
  case send | sendReturned | sendRaised =>
    exact ⟨hP.waiters, nofun, nofun, fun _ => hP.socket rfl⟩
  -- the ends of a section under the lock
  case lockedAlready | lockedReturned | lockedCancelled | dialCancelled | sendCancelled | connected |
      failNone | failInvalid | closeReturned | closeRaised | closeCancelled | disconnectedAlready |
      disconnectCloseCancelled | disconnected | disconnectInvalid =>
    exact ⟨hP.waiters, fun _ => rfl, nofun, nofun⟩
  all_goals first
    | exact ⟨hP.waiters, fun _ => hP.owner rfl, nofun, nofun⟩
    | exact ⟨hP.waiters, fun h => (by cases h), nofun, nofun⟩

/-! ## The places of the only task -/

/-- One call at a time, at a place where the lock is as it should be. -/
def Lone (p : TaskId → Point S) (c : Conn S) : Prop := AloneWith Point.Free p c

/-- What a step of the only task is: its calls follow one another, and nothing is cancelled. -/
def Sys.Alone (s : Sys S) (l : Label S) : Prop := s.Sequential l ∧ s.Calm l

theorem keeps_lone (cfg : ExchangeConfig U) : Keeps cfg Sys.Alone (Lone (S := S)) :=
  keeps_aloneWith
    (fun s l hg => ⟨hg.1, fun hst => by
      cases l with
      | resume t w => cases w <;> first | exact hst | exact hg.2 rfl
      | _ => exact hst⟩)
    (fun he _ hA => he.free hA)
    (fun _ hA => ⟨hA.waiters, fun _ => hA.owner rfl, nofun, nofun⟩)
    (fun hA => ⟨hA.waiters, fun _ => hA.owner rfl, nofun, nofun⟩)
    (fun _ _ hA => ⟨hA.waiters, hA.owner, hA.notWaiting, hA.socket⟩)
    (fun {P c} hA => by
      cases P <;> first | exact hA | exact ⟨hA.waiters, fun _ => hA.owner rfl, nofun, nofun⟩)

theorem lone_init (inst : S.Inst) : Lone (Sys.init S inst).point (Sys.init S inst).conn :=
  ⟨alone_init inst, 0, fun _ _ => rfl, rfl, fun _ => rfl, nofun, nofun⟩

/-- The task `t` at the place `P` of an operation of kind `κ`. -/
structure Place (cfg : ExchangeConfig U) (κ : Kind) (t : TaskId) (P : Point S) (c : Conn S) :
    Prop where
  occupied : ∃ p : TaskId → Point S, Occupied (update p t P) c ∧ Lone (update p t P) c
  proper : P.Proper cfg κ c
  busy : P ≠ .idle

theorem Place.calm {κ : Kind} {t : TaskId} {P : Point S} {c : Conn S} (h : Place cfg κ t P c) :
    P.calm := by
  obtain ⟨p, ho, -⟩ := h.occupied
  have := ho.calm t
  rwa [update_self] at this

theorem Place.tidy {κ : Kind} {t : TaskId} {P : Point S} {c : Conn S} (h : Place cfg κ t P c) :
    P.Tidy c := by
  obtain ⟨p, -, hl⟩ := h.occupied
  have := (hl.1.tidy_of_ne (t := t) (by rw [update_self]; exact h.busy)).2
  rwa [update_self] at this

theorem Place.free {κ : Kind} {t : TaskId} {P : Point S} {c : Conn S} (h : Place cfg κ t P c) :
    P.Free c := by
  obtain ⟨p, -, hl⟩ := h.occupied
  have := (hl.of_ne (t := t) (by rw [update_self]; exact h.busy)).2
  rwa [update_self] at this

/-- The only task finds nobody else's attempt in flight. -/
theorem Place.inFlight {κ : Kind} {t : TaskId} {P : Point S} {c : Conn S} (h : Place cfg κ t P c)
    (hP : P.attempting = false) (isDone : TaskId → Bool) : inFlight isDone c = none := by
  obtain ⟨p, ho, hl⟩ := h.occupied
  have hidle := (hl.1.tidy_of_ne (t := t) (by rw [update_self]; exact h.busy)).1
  unfold Connector.inFlight
  split
  · rename_i o hc
    have hoa := (ho.disciplined.connecting o).1 hc
    by_cases hot : o = t
    · subst hot
      rw [update_self, hP] at hoa
      cases hoa
    · rw [hidle o hot] at hoa
      cases hoa
  · rfl

theorem Edge.target_ne_idle {isDone : TaskId → Bool} {t : TaskId} {P P' : Point S}
    {c c' : Conn S} (h : Edge cfg isDone t P c P' c') : P' ≠ .idle := by
  rintro rfl
  cases h

theorem Edge.place {κ : Kind} {isDone : TaskId → Bool} {t : TaskId} {P P' : Point S}
    {c c' : Conn S} (h : Edge cfg isDone t P c P' c') (hP : Place cfg κ t P c) :
    Place cfg κ t P' c' := by
  obtain ⟨p, ho, hl⟩ := hP.occupied
  have hcl := ho.cleansUp t
  rw [update_self] at hcl
  refine ⟨⟨p, h.occupied ho, (keeps_lone cfg).edge h hl⟩,
    h.proper hP.calm (fun hlock ha hs => ?_) hcl hP.proper, h.target_ne_idle⟩
  obtain ⟨u, hu⟩ := ho.busy hs
  have hut : u = t := ho.disciplined.mutex (Point.attempting_holding hu) (by rwa [update_self])
  rw [hut, update_self, ha] at hu
  cases hu

/-- **The rule for a segment of the only task**: what every edge keeps, given the place it starts
from, holds where the segment ends. -/
theorem Path.sole {κ : Kind} {isDone : TaskId → Bool} {t : TaskId} {B : Point S → Conn S → Prop}
    (hB : ∀ {P c P' c'}, Edge cfg isDone t P c P' c' → Place cfg κ t P c → B P c → B P' c')
    {x y : Point S × Conn S} (h : Path cfg isDone t x y) (hx : Place cfg κ t x.1 x.2)
    (hb : B x.1 x.2) : Place cfg κ t y.1 y.2 ∧ B y.1 y.2 := by
  induction h with
  | refl => exact ⟨hx, hb⟩
  | tail _ he ih => exact ⟨he.place ih.1, hB he ih.1 ih.2⟩

/-! ## Runs of the only task -/

/-- The invariant of the runs of `t`. -/
structure Sys.Sole (t : TaskId) (s : Sys S) : Prop where
  steady : s.Steady
  lone : Lone s.point s.conn
  others : ∀ u, u ≠ t → (s.tasks u).call = none

theorem Sys.Sole.alone {t : TaskId} {s s' : Sys S} {l : Label S} (h : s.Sole t) (hl : l.Of t)
    (hs : step cfg s l = some s') : s.Alone l := by
  refine ⟨?_, h.steady.calm hs⟩
  have quiet : (s.tasks t).call = none → s.Quiet := fun hc u => by
    by_cases hut : u = t
    · rwa [hut]
    · exact h.others u hut
  cases step_move hs with
  | call _ hc =>
    cases hl
    exact quiet hc
  | next _ hc _ =>
    cases hl
    exact quiet hc
  | _ => trivial

theorem step_sole {t : TaskId} {s s' : Sys S} {l : Label S} (h : s.Sole t) (hl : l.Of t)
    (hs : step cfg s l = some s') : s'.Sole t := by
  have hun : l.Uncancelled := by
    cases l with
    | cancel => exact hl
    | _ => trivial
  refine ⟨step_steady h.steady hun hs, (keeps_lone cfg).step (h.alone hl hs) h.lone hs,
    fun u hut => ?_⟩
  cases step_move hs with
  | call | next | resume =>
    cases hl
    rw [Sys.settle_tasks_ne s hut]
    exact h.others u hut
  | cancel => exact hl.elim
  | exit =>
    cases hl
    rw [Sys.setTask_ne s hut]
    exact h.others u hut

theorem sole_init (inst : S.Inst) (t : TaskId) : (Sys.init S inst).Sole t :=
  ⟨steady_init inst, lone_init inst, fun _ _ => rfl⟩

/-- Where a call of the only task begins. -/
theorem Sys.Sole.call {t : TaskId} {s : Sys S} {op : Op S} (h : s.Sole t)
    (hc : (s.tasks t).call = none) : Place cfg op.kind t (.enter op) s.conn := by
  have hq : s.Quiet := fun u => by
    by_cases hut : u = t
    · rwa [hut]
    · exact h.others u hut
  exact ⟨⟨s.point, (keeps_occupied cfg).call trivial (Sys.point_idle.2 hc) h.steady.occupied,
    (keeps_lone cfg).call ⟨hq, trivial⟩ (Sys.point_idle.2 hc) h.lone⟩, rfl, nofun⟩

theorem Sys.Sole.next {t : TaskId} {s : Sys S} {ms : List S.Msg} (h : s.Sole t)
    (hc : (s.tasks t).call = none) (hm : (s.tasks t).generator = some ms) :
    Place cfg .stream t (.generator ms) s.conn := by
  have hq : s.Quiet := fun u => by
    by_cases hut : u = t
    · rwa [hut]
    · exact h.others u hut
  exact ⟨⟨s.point, (keeps_occupied cfg).next trivial (Sys.point_idle.2 hc) hm h.steady.occupied,
    (keeps_lone cfg).next ⟨hq, trivial⟩ (Sys.point_idle.2 hc) hm h.lone⟩, rfl, nofun⟩

/-- What holds where the only task is suspended. -/
theorem Sys.Sole.tidy {t : TaskId} {s : Sys S} {pc : Pc S} (h : s.Sole t)
    (hc : (s.tasks t).call = some pc) : pc.Tidy s.conn := by
  have hp := Sys.point_suspended.2 hc
  have := (h.lone.1.tidy_of_ne (t := t) (by rw [hp]; simp)).2
  rwa [hp] at this

theorem Pc.Tidy.proper {pc : Pc S} {c : Conn S} (h : pc.Tidy c) (w : Wake S) :
    (Point.resumed pc w).Proper cfg pc.kind c := by
  refine ⟨rfl, ?_, ?_⟩
  · rintro n rfl -
    exact h.1
  · rintro k q rfl - hq hs
    cases q with
    | dialing =>
      rw [show c.state = .connecting from h.1] at hs
      cases hs
    | sending =>
      rw [show c.state = .connecting from h] at hs
      cases hs
    | _ => cases w <;> cases hq

theorem Sys.Sole.resume {t : TaskId} {s : Sys S} {pc : Pc S} {w : Wake S} (h : s.Sole t)
    (hc : (s.tasks t).call = some pc) (hw : w ≠ .cancelled) :
    Place cfg pc.kind t (.resumed pc w) s.conn :=
  ⟨⟨s.point, (keeps_occupied cfg).resume hw (Sys.point_suspended.2 hc) h.steady.occupied,
    (keeps_lone cfg).resume ⟨trivial, hw⟩ (Sys.point_suspended.2 hc) h.lone⟩,
    (h.tidy hc).proper w, nofun⟩

/-! ## Segments that yield nothing -/

/-- Nothing is yielded from here until the next frame comes. -/
def Point.Silent : Point S → Prop
  | .generator (_ :: _) => False
  | .yielded _ _ => False
  | .resumed _ (.frame _) => False
  | _ => True

theorem Edge.silent {isDone : TaskId → Bool} {t : TaskId} {P P' : Point S} {c c' : Conn S}
    (h : Edge cfg isDone t P c P' c') (hP : P.Silent) : P'.Silent := by
  cases h
  case converted => exact hP.elim
  case yields => exact hP.elim
  all_goals trivial

theorem Path.silent {isDone : TaskId → Bool} {t : TaskId} {x y : Point S × Conn S}
    (h : Path cfg isDone t x y) (hx : x.1.Silent) : y.1.Silent := by
  induction h with
  | refl => exact hx
  | tail _ he ih => exact he.silent ih

theorem Sys.settle_silent {s : Sys S} {t : TaskId} {k : Task S} {r : Conn S × Act S}
    (h : r.2.point.Silent) : (s.settle t k r).yielded = s.yielded ∧
      ((s.settle t k r).tasks t).generator = k.generator := by
  obtain ⟨c, a⟩ := r
  cases a with
  | yields m rest => exact h.elim
  | _ => exact ⟨rfl, by simp [Sys.settle, Sys.setTask]⟩

/-- The stream waits on the socket that is stored. -/
theorem Path.recv_socket {isDone : TaskId → Bool} {t : TaskId} {x y : Point S × Conn S} {w : Ws}
    (h : Path cfg isDone t x y) (hx : ∀ pc, x.1 ≠ .suspended pc) (hy : y.1 = .suspended (.recv w)) :
    y.2.websocket = some w := by
  cases h with
  | refl => exact absurd hy (hx _)
  | @tail z _ _ he =>
    obtain ⟨P, c⟩ := y
    obtain ⟨Q, d⟩ := z
    cases hy
    cases he
    assumption

end FlinkPractices.Connector
