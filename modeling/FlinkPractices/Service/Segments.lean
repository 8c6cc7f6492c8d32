import FlinkPractices.Service.Restart

/-!
# What `start()` and `stop()` do with the lock and with other tasks

`Acts` says of a segment of the service how it uses the lock, when it creates a consumption task,
which one it waits for, and which one it cancels: the one it waits for or, in the handler of
`asyncio.TimeoutError` (`handlesTimeout`), the background task of that moment.  `startCompletes`
says when a segment is the end of a `start()` that succeeds.

Principal results: `call_acts` and `segment_acts`, of first and later segments, and
`handler_cancels`, that the handler does cancel the background task if it is not done.

## Proof

The four parts of `Acts` are followed through the graph of `Service.Routes` side by side, each with
an assertion of its own at the places, kept along the arcs:

* `Arc.lockStep` — an arc is one operation on the lock, or none; `Locks` is what has become of the
  lock since the segment began
* `Spawns` — everything is as it was, a `stop()` is past the lock, or `start()` has created a task
* `Watches` — which tasks are waited for and cancelled
* `Acting` — all of it, and what a segment has done at its end (`Acting.acts`)

The use case, which calls both in one task, is left out (`Pc.direct`): between its `start()` and its
`stop()` it gives the lock back and asks for it again.
-/

set_option autoImplicit false

namespace FlinkPractices.Service

open Lib
open Connector (TaskId)

variable {U : UpperTable} {P : ConnectorPort U} {Q : PublisherPort}

/-- Where a suspended call stands with the lock. -/
def Pc.lockStatus : Pc P Q → AsyncLock.Status
  | .startLock _ => .waiting
  | .stopLock _ => .waiting
  | .connecting _ _ => .holding
  | _ => .idle

def Act.lockStatus (a : Act P Q) : AsyncLock.Status := a.pc.elim .idle Pc.lockStatus

/-- Not in the use case. -/
def Pc.direct : Pc P Q → Bool
  | .startLock .useCase => false
  | .connecting .useCase _ => false
  | .sleeping => false
  | _ => true

/-- `wait_for` raises `TimeoutError`, its own or that of the task. -/
def handlesTimeout (outcome : TaskId → Option Outcome) : Pc P Q → Resume P → Bool
  | .waiting _ _ b, .wake _ => outcome b == some (.raised .timeoutError)
  | .timedOut _ _ b, .wake .done =>
    outcome b == some .cancelled || outcome b == some (.raised .timeoutError)
  | _, _ => false

/-- `start()`, under the lock, connects without suspension. -/
def connectsAtOnce (outcome : TaskId → Option Outcome) (s : IngestionService P Q) (t : TaskId) :
    Bool :=
  !s.running &&
    match P.connect outcome s.connector t with
    | (_, .returned) => true
    | _ => false

/-- The first segment is all of a `start()` that succeeds. -/
def callCompletes (outcome : TaskId → Option Outcome) (s : IngestionService P Q) (t : TaskId) :
    Op → Bool
  | .start => (s.lock.tryAcquire t).isSome && connectsAtOnce outcome s t
  | _ => false

/-- The segment is the end of a `start()` that succeeds. -/
def startCompletes (outcome : TaskId → Option Outcome) (s : IngestionService P Q) (t : TaskId) :
    Pc P Q → Resume P → Bool
  | .startLock _, .wake .done => connectsAtOnce outcome s t
  | .connecting _ pc, .wake w =>
    match P.resumeConnect outcome s.connector t pc w with
    | some (_, .finish .returned) => true
    | _ => false
  | _, _ => false

/-- No consumption task is created, and a `stop()` that begins finds the service running. -/
structure Kept (s s' : IngestionService P Q) : Prop where
  nextTask : s'.nextTask = s.nextTask
  backgroundTask : s'.backgroundTask = s.backgroundTask
  stops : s'.stops + s'.running.toNat ≤ s.stops + s.running.toNat

/-- A consumption task is created. -/
structure Created (s s' : IngestionService P Q) : Prop where
  nextTask : s'.nextTask = s.nextTask + 1
  backgroundTask : s'.backgroundTask = some s.nextTask
  stops : s'.stops = s.stops

/-- The task that the segment cancels. -/
def Act.cancels : Act P Q → Option TaskId
  | .cancelling _ b => some b
  | _ => none

/-- What a segment of `t` does, which has the lock status `st` and waits for the task `w`: the
first one of a call if `first`, the end of a `start()` if `completes`, and in the handler of
`TimeoutError` if `handler`. -/
structure Acts (outcome : TaskId → Option Outcome) (s : IngestionService P Q) (t : TaskId)
    (first : Bool) (st : AsyncLock.Status) (w : Option TaskId) (completes : Bool) (handler : Prop)
    (r : IngestionService P Q × Act P Q) : Prop where
  lock : AsyncLock.Use t s.lock st r.1.lock r.2.lockStatus
  idle : first = false → st = .idle → r.1.lock = s.lock
  kept : completes = false → Kept s r.1
  created : completes = true → Created s r.1 ∧ r.2.pc = none ∧
    ∃ l, AsyncLock.Gets t s.lock st l ∧ r.1.lock = l.release
  waits : ∀ b, r.2.waitsFor = some b → w = some b ∨
    s.backgroundTask = some b ∧ (first = true ∨ st = .waiting)
  cancels : ∀ b, r.2.cancels = some b →
    outcome b = none ∧ (w = some b ∨ handler ∧ s.backgroundTask = some b)
  direct : ∀ pc, r.2.pc = some pc → pc.direct = true

section

variable {outcome : TaskId → Option Outcome} {s v v' : IngestionService P Q} {t : TaskId}
  {p p' : Node P Q}

/-! ## Places -/

def StartCaller.isClient : StartCaller → Bool
  | .client => true
  | .useCase => false

/-- Not in the use case. -/
def Node.direct : Node P Q → Bool
  | .enter .useCase => false
  | .resumed pc _ => pc.direct
  | .start k => k.isClient
  | .startLocked k => k.isClient
  | .connect k _ => k.isClient
  | .started k _ => k.isClient
  | .suspended pc => pc.direct
  | .cancels pc _ => pc.direct
  | _ => true

theorem Arc.direct (ha : Arc outcome t p v p' v') (hp : p.direct = true) : p'.direct = true := by
  cases ha with
  | startAcquire | startRunning | connectFirst | connectReturned | connectFailed => exact hp
  | @startQueue k | @startWoken k | @startAbandoned k | @connectLater k | @connectSuspend k =>
    cases k with
    | client => rfl
    | useCase => cases hp
  | enterUseCase | startedSleep | startedStop | sleepAgain | sleepCancelled => cases hp
  | _ => rfl

def Node.lockStatus : Node P Q → AsyncLock.Status
  | .resumed pc _ => pc.lockStatus
  | .startLocked _ => .holding
  | .connect _ _ => .holding
  | .stopLocked _ => .holding
  | .suspended pc => pc.lockStatus
  | .cancels pc _ => pc.lockStatus
  | _ => .idle

/-- The lock has not been asked for. -/
def Node.asks : Node P Q → Bool
  | .enter _ => true
  | .start _ => true
  | .stop _ => true
  | _ => false

/-- The call is to be resumed. -/
def Node.isResumed : Node P Q → Bool
  | .resumed _ _ => true
  | _ => false

theorem Arc.begun (ha : Arc outcome t p v p' v') (hp : p.direct = true) :
    p'.isResumed = false ∧ (p.asks = false → p'.asks = false) := by
  cases ha with
  | enterStart | enterStop => exact ⟨rfl, id⟩
  | enterUseCase | startedStop | sleepCancelled => cases hp
  | _ => exact ⟨rfl, fun _ => rfl⟩

/-! ## The lock -/

/-- **An arc is one operation on the lock, or none.** -/
theorem Arc.lockStep (ha : Arc outcome t p v p' v') :
    p'.lockStatus = p.lockStatus ∧ v'.lock = v.lock ∨
      AsyncLock.LockStep t (v.lock, p.lockStatus) (v'.lock, p'.lockStatus) ∧ p'.asks = false ∧
        (p.asks = true ∨ p.lockStatus ≠ .idle) ∧
        (p.asks = true ∨ p.isResumed = true ∨ p.lockStatus = .holding) := by
  have hwaiting : AsyncLock.Status.waiting ≠ .idle := nofun
  have hholding : AsyncLock.Status.holding ≠ .idle := nofun
  cases ha with
  | startAcquire hl | stopAcquire hl => exact .inr ⟨.acquire hl, rfl, .inl rfl, .inl rfl⟩
  | startQueue | stopQueue => exact .inr ⟨.enqueue, rfl, .inl rfl, .inl rfl⟩
  | startWoken hl | stopWoken hl =>
    exact .inr ⟨.wake hl, rfl, .inr hwaiting, .inr (.inl rfl)⟩
  | startAbandoned | stopAbandoned =>
    exact .inr ⟨.abandon, rfl, .inr hwaiting, .inr (.inl rfl)⟩
  | startRunning | connectReturned | connectFailed | stopIdle | stopWait | stopNoTask =>
    exact .inr ⟨.release, rfl, .inr hholding, .inr (.inr rfl)⟩
  | turn h => exact .inl ⟨rfl, (turn_counted h).1.lock⟩
  | publishEnded _ h => exact .inl ⟨rfl, (endTurn_counted h).1.lock⟩
  | _ => exact .inl ⟨rfl, rfl⟩

/-- On the way of a task that had the status `st` with the lock `k`, in its first segment if
`first`: it has not used it, has got it, or is through with it. -/
inductive Locks (t : TaskId) (k : AsyncLock TaskId) (first : Bool) (st : AsyncLock.Status)
    (q : Node P Q) : AsyncLock TaskId → Prop
  | keeps : q.lockStatus = st → (first = true ∨ q.asks = false) → Locks t k first st q k
  | gets {l} : q.lockStatus = .holding → q.asks = false → (first = true ∨ st ≠ .idle) →
      AsyncLock.Gets t k st l → Locks t k first st q l
  | done {l} : q.lockStatus ≠ .holding → q.asks = false → q.isResumed = false →
      (first = true ∨ st ≠ .idle) → AsyncLock.Use t k st l q.lockStatus → Locks t k first st q l

section

variable {k l : AsyncLock TaskId} {first : Bool} {st : AsyncLock.Status}

theorem Locks.gets_of_holding (h : Locks t k first st p l) (hp : p.lockStatus = .holding) :
    AsyncLock.Gets t k st l := by
  cases h with
  | keeps hst => exact .inl ⟨hst.symm.trans hp, rfl⟩
  | gets _ _ _ hg => exact hg
  | done hne => exact absurd hp hne

theorem Locks.arc (h : Locks t k first st p v.lock) (ha : Arc outcome t p v p' v')
    (hd : p.direct = true) : Locks t k first st p' v'.lock := by
  obtain ⟨hresumed, hasks⟩ := ha.begun hd
  rcases ha.lockStep with ⟨hstatus, hlock⟩ | ⟨hstep, hafter, hidle, hentry⟩
  · rw [hlock]
    generalize v.lock = l at h
    cases h with
    | keeps hst hf => exact .keeps (hstatus.trans hst) (hf.imp_right hasks)
    | gets hp hna hf hg => exact .gets (hstatus.trans hp) (hasks hna) hf hg
    | done hp hna hnr hf hu => exact .done (hstatus ▸ hp) (hasks hna) hresumed hf (hstatus ▸ hu)
  · generalize v.lock = l at h hstep
    cases h with
    | keeps hst hf =>
      subst hst
      have hfirst : first = true ∨ p.lockStatus ≠ .idle := by
        rcases hidle with hidle | hidle
        · exact .inl (hf.resolve_right (by rw [hidle]; nofun))
        · exact .inr hidle
      by_cases hp' : p'.lockStatus = .holding
      · exact .gets hp' hafter hfirst (.inr (hp' ▸ hstep))
      · exact .done hp' hafter hresumed hfirst hstep.use
    | gets hp hna hf hg =>
      rw [hp] at hstep
      obtain ⟨hl, hst⟩ := hstep.of_holding
      rw [hl]
      refine .done (by rw [hst]; nofun) hafter hresumed hf ?_
      rw [hst]
      exact .pass hg
    | done hp hna hnr =>
      rcases hentry with he | he | he
      · rw [hna] at he
        cases he
      · rw [hnr] at he
        cases he
      · exact absurd he hp

/-! ## The consumption task -/

/-- From this place on, a `start()` succeeds. -/
def Node.completes (outcome : TaskId → Option Outcome) (s : IngestionService P Q) (t : TaskId) :
    Node P Q → Bool
  | .enter op => callCompletes outcome s t op
  | .start _ => callCompletes outcome s t .start
  | .startLocked _ => connectsAtOnce outcome s t
  | .connect _ (.finish .returned) => true
  | .resumed pc w => startCompletes outcome s t pc w
  | _ => false

/-- On the way from the service `s`: everything is as it was, a `stop()` is past the lock, or
`start()` has created a task. -/
inductive Spawns (outcome : TaskId → Option Outcome) (s : IngestionService P Q) (t : TaskId)
    (st : AsyncLock.Status) (completes : Bool) (q : Node P Q) : IngestionService P Q → Prop
  | same {u} : q.completes outcome u t = completes → Flags s u →
      Spawns outcome s t st completes q u
  | stopping {u} : completes = false → ((∃ x, q.stage = some x) ∨ ∃ o, q = .finished o) →
      Kept s u → Spawns outcome s t st completes q u
  | created {u} : completes = true → ((∃ k, q = .started k .returned) ∨ ∃ o, q = .finished o) →
      Created s u → (∃ l, AsyncLock.Gets t s.lock st l ∧ u.lock = l.release) →
      Spawns outcome s t st completes q u

theorem Flags.kept (h : Flags s v) : Kept s v :=
  ⟨h.nextTask, h.backgroundTask, by rw [h.stops, h.running]⟩

theorem Spawns.same_arc {completes : Bool} (hc : p.completes outcome v t = completes)
    (hv : Flags s v) (hl : Locks t s.lock first st p v.lock) (ha : Arc outcome t p v p' v')
    (hd : p.direct = true) : Spawns outcome s t st completes p' v' := by
  cases ha with
  | enterUseCase | sleepAgain | sleepCancelled => cases hd
  | connectReturned =>
    exact .created hc.symm (.inl ⟨_, rfl⟩)
      ⟨congrArg (· + 1) hv.nextTask, congrArg some hv.nextTask, hv.stops⟩
      ⟨_, hl.gets_of_holding rfl, rfl⟩
  | stopWait hr hb | stopNoTask hr hb =>
    refine .stopping hc.symm (.inl ⟨_, rfl⟩) ⟨hv.nextTask, hv.backgroundTask, ?_⟩
    show v.stops + 1 + false.toNat ≤ s.stops + s.running.toNat
    rw [hv.stops, ← hv.running, hr]
    exact Nat.le_refl _
  | startAcquire hacq =>
    refine .same ?_ { hv with }
    rw [← hc]
    simp [Node.completes, callCompletes, hacq, connectsAtOnce]
  | startQueue hacq =>
    refine .same ?_ { hv with }
    rw [← hc]
    simp [Node.completes, callCompletes, hacq]
  | startRunning hr =>
    refine .same ?_ { hv with }
    rw [← hc]
    simp [Node.completes, connectsAtOnce, hr]
  | @connectFirst _ _ _ a hr hcon =>
    refine .same ?_ { hv with }
    rw [← hc]
    cases a <;> simp [Node.completes, connectsAtOnce, hr, hcon, Start.next]
  | @connectLater _ _ _ _ _ x hcon =>
    refine .same ?_ { hv with }
    rw [← hc]
    rcases x with _ | _ | _ | _ <;> simp [Node.completes, startCompletes, hcon]
  | @connectFailed _ _ o hne =>
    cases o with
    | returned => exact absurd rfl hne
    | raised | cancelled => exact .same hc { hv with }
  | turn h => exact .same hc (hv.trans (turn_counted h).1.toFlags)
  | publishEnded _ h => exact .same hc (hv.trans { (endTurn_counted h).1.toFlags with })
  | _ => exact .same hc { hv with }

theorem Spawns.arc {completes : Bool} (h : Spawns outcome s t st completes p v)
    (hl : Locks t s.lock first st p v.lock) (ha : Arc outcome t p v p' v')
    (hd : p.direct = true) : Spawns outcome s t st completes p' v' := by
  cases h with
  | same hc hv => exact .same_arc hc hv hl ha hd
  | stopping hc hp hk =>
    rcases hp with ⟨x, hx⟩ | ⟨o, rfl⟩
    · cases ha with
      | stopEnd => exact .stopping hc (.inr ⟨_, rfl⟩) { hk with }
      | waitDone | waitTimeout | waitCancelled | lateDone | lateCancelled | abortDone
      | abortCancelled | waitedReturned | waitedTimeout | waitedRaised | waitedCancelled
      | waitedLate | timeoutDone | timeoutCancels | timeoutNone | awaitDone | awaitCancelled
      | awaitedOver | awaitedRaised | flushFirst | flushLater | flushSuspend | flushOver
      | flushCancelled | disconnectFirst | disconnectLater | disconnectSuspend | disconnectOver
      | disconnectCancelled => exact .stopping hc (.inl ⟨_, rfl⟩) { hk with }
      | _ => cases hx
    · cases ha
  | created hc hp hv hlock =>
    rcases hp with ⟨k, rfl⟩ | ⟨o, rfl⟩
    · cases ha with
      | startedClient => exact .created hc (.inr ⟨_, rfl⟩) hv hlock
      | startedSleep | startedStop => cases hd
    · cases ha

/-- `s` has the background task of the moment, unless `start()` is over. -/
theorem Spawns.backgroundTask {completes : Bool} (h : Spawns outcome s t st completes p v) :
    v.backgroundTask = s.backgroundTask ∨ (∃ k, p = .started k .returned) ∨ ∃ o, p = .finished o := by
  cases h with
  | same _ hv => exact .inl hv.backgroundTask
  | stopping _ _ hk => exact .inl hk.backgroundTask
  | created _ hp => exact .inr hp

end

/-! ## Waits and cancellations -/

/-- `wait_for` may come next. -/
def Node.mayStop : Node P Q → Bool
  | .enter _ => true
  | .start _ => true
  | .stop _ => true
  | .stopLocked _ => true
  | _ => false

/-- The handler of `TimeoutError` is entered. -/
def Node.handles (outcome : TaskId → Option Outcome) : Node P Q → Bool
  | .resumed pc w => handlesTimeout outcome pc w
  | .waited _ _ late o => o == .raised .timeoutError || late && o == .cancelled
  | .timeout _ _ => true
  | _ => false

def Node.cancelled : Node P Q → Option TaskId
  | .cancels _ b => some b
  | _ => none

/-- On the way from the service `s` of a task that waits for `w`: which tasks it waits for and
cancels. -/
structure Watches (outcome : TaskId → Option Outcome) (s : IngestionService P Q) (first : Bool)
    (st : AsyncLock.Status) (w : Option TaskId) (handler : Prop) (q : Node P Q) : Prop where
  stops : q.mayStop = true → first = true ∨ st = .waiting
  resumed : ∀ pc wake, q = .resumed pc wake → pc.lockStatus = st ∧ pc.waitsFor = w
  waits : ∀ b, q.waitsFor = some b → w = some b ∨
    s.backgroundTask = some b ∧ (first = true ∨ st = .waiting)
  handles : q.handles outcome = true → handler
  cancels : ∀ b, q.cancelled = some b →
    outcome b = none ∧ (w = some b ∨ handler ∧ s.backgroundTask = some b)

section

variable {first : Bool} {st : AsyncLock.Status} {w : Option TaskId} {handler : Prop}

/-- In no wait for a task. -/
theorem Watches.free (hr : p.isResumed = false) (hw : p.waitsFor = none) (hc : p.cancelled = none)
    (hs : p.mayStop = true → first = true ∨ st = .waiting) (hh : p.handles outcome = true → handler) :
    Watches outcome s first st w handler p where
  stops := hs
  resumed pc wake h := by
    subst h
    cases hr
  waits b hb := nomatch hw.symm.trans hb
  handles := hh
  cancels b hb := nomatch hc.symm.trans hb

/-- Before the lock. -/
theorem Watches.stopping (h : first = true ∨ st = .waiting) (hr : p.isResumed = false)
    (hw : p.waitsFor = none) (hc : p.cancelled = none) (hh : p.handles outcome = false) :
    Watches outcome s first st w handler p :=
  .free hr hw hc (fun _ => h) fun h => nomatch hh.symm.trans h

/-- After the wait. -/
theorem Watches.handling (h : p.handles outcome = true → handler) (hr : p.isResumed = false)
    (hw : p.waitsFor = none) (hc : p.cancelled = none) (hs : p.mayStop = false) :
    Watches outcome s first st w handler p :=
  .free hr hw hc (fun h => nomatch hs.symm.trans h) h

/-- A place that has nothing to do with other tasks. -/
theorem Watches.quiet (hr : p.isResumed = false) (hw : p.waitsFor = none) (hc : p.cancelled = none)
    (hs : p.mayStop = false) (hh : p.handles outcome = false) :
    Watches outcome s first st w handler p :=
  .handling (fun h => nomatch hh.symm.trans h) hr hw hc hs

/-- In a wait. -/
theorem Watches.suspended {pc : Pc P Q}
    (hw : ∀ b, pc.waitsFor = some b → w = some b ∨
      s.backgroundTask = some b ∧ (first = true ∨ st = .waiting)) :
    Watches outcome s first st w handler (.suspended pc) where
  stops h := nomatch h
  resumed _ _ h := nomatch h
  waits := hw
  handles h := nomatch h
  cancels _ h := nomatch h

/-- `b` has just been cancelled. -/
theorem Watches.cancelling {pc : Pc P Q} {b : TaskId} (hw : ∀ c, pc.waitsFor = some c → w = some c)
    (hb : outcome b = none ∧ (w = some b ∨ handler ∧ s.backgroundTask = some b)) :
    Watches outcome s first st w handler (.cancels pc b) where
  stops h := nomatch h
  resumed _ _ h := nomatch h
  waits c hc := .inl (hw c hc)
  handles h := nomatch h
  cancels _ hc := Option.some.inj hc ▸ hb

theorem Watches.arc (h : Watches outcome s first st w handler p)
    (hb : v.backgroundTask = s.backgroundTask ∨ (∃ k, p = .started k .returned) ∨
      ∃ o, p = .finished o) (ha : Arc outcome t p v p' v') (hd : p.direct = true) :
    Watches outcome s first st w handler p' := by
  cases ha with
  | enterUseCase | startedStop | sleepCancelled => cases hd
  | enterStart | enterStop | stopAcquire => exact .stopping (h.stops rfl) rfl rfl rfl rfl
  | stopWoken => exact .stopping (.inr (h.resumed _ _ rfl).1.symm) rfl rfl rfl rfl
  | stopWait _ hbg =>
    have hb := hb.resolve_right (by rintro (⟨_, hp⟩ | ⟨_, hp⟩) <;> cases hp)
    refine .suspended fun b hw => ?_
    cases hw
    exact .inr ⟨hb.symm.trans hbg, h.stops rfl⟩
  | waitDone hwk ho =>
    refine .handling (fun hh => h.handles ?_) rfl rfl rfl rfl
    simpa [Node.handles, handlesTimeout, ho] using hh
  | lateDone ho =>
    refine .handling (fun hh => h.handles ?_) rfl rfl rfl rfl
    simpa [Node.handles, handlesTimeout, ho, or_comm] using hh
  | waitTimeout ho | waitCancelled ho =>
    have hw := (h.resumed _ _ rfl).2.symm
    exact .cancelling (fun _ => hw.trans) ⟨ho, .inl hw⟩
  | waitedTimeout | waitedLate =>
    exact .handling (fun _ => h.handles (by simp [Node.handles])) rfl rfl rfl rfl
  | timeoutCancels hbg ho =>
    have hb := hb.resolve_right (by rintro (⟨_, hp⟩ | ⟨_, hp⟩) <;> cases hp)
    exact .cancelling (fun _ hc => (nomatch hc)) ⟨ho, .inr ⟨h.handles rfl, hb.symm.trans hbg⟩⟩
  | _ => exact .quiet rfl rfl rfl rfl rfl

end

/-! ## Segments -/

section

variable {first completes : Bool} {st : AsyncLock.Status} {w : Option TaskId} {handler : Prop}
  {r : IngestionService P Q × Act P Q}

/-- All of it, on the way. -/
structure Acting (outcome : TaskId → Option Outcome) (s : IngestionService P Q) (t : TaskId)
    (first : Bool) (st : AsyncLock.Status) (w : Option TaskId) (completes : Bool) (handler : Prop)
    (p : Node P Q) (v : IngestionService P Q) : Prop where
  direct : p.direct = true
  locks : Locks t s.lock first st p v.lock
  spawns : Spawns outcome s t st completes p v
  watches : Watches outcome s first st w handler p

theorem Acting.arc (ha : Arc outcome t p v p' v')
    (h : Acting outcome s t first st w completes handler p v) :
    Acting outcome s t first st w completes handler p' v' where
  direct := ha.direct h.direct
  locks := h.locks.arc ha h.direct
  spawns := h.spawns.arc h.locks ha h.direct
  watches := h.watches.arc h.spawns.backgroundTask ha h.direct

/-- The end of a segment. -/
theorem Acting.acts (h : Acting outcome s t first st w completes handler r.2.node r.1) :
    Acts outcome s t first st w completes handler r := by
  obtain ⟨hdirect, hlocks, hspawns, hwatches⟩ := h
  obtain ⟨v, a⟩ := r
  have hnode : a.node.lockStatus = a.lockStatus ∧ a.node.waitsFor = a.waitsFor ∧
      a.node.cancelled = a.cancels ∧ a.node.completes outcome v t = false := by
    cases a <;> exact ⟨rfl, rfl, rfl, rfl⟩
  obtain ⟨hstatus, hwaits, hcancels, hcompletes⟩ := hnode
  refine ⟨?_, fun hf hi => ?_, fun hc => ?_, fun hc => ?_, ?_, ?_, fun pc hpc => ?_⟩
  · rw [← hstatus]
    generalize v.lock = l at hlocks
    cases hlocks with
    | keeps hst => exact hst ▸ .keep
    | gets hp _ _ hg => exact hp ▸ .take hg
    | done _ _ _ _ hu => exact hu
  · generalize v.lock = l at hlocks
    cases hlocks with
    | keeps => rfl
    | gets _ _ hfirst | done _ _ _ hfirst =>
      rcases hfirst with hfirst | hfirst
      · rw [hf] at hfirst
        cases hfirst
      · exact absurd hi hfirst
  · cases hspawns with
    | same _ hv => exact hv.kept
    | stopping _ _ hk => exact hk
    | created hc' =>
      rw [hc] at hc'
      cases hc'
  · cases hspawns with
    | same hc' =>
      rw [hcompletes, hc] at hc'
      cases hc'
    | stopping hc' =>
      rw [hc] at hc'
      cases hc'
    | created _ hp hv hlock =>
      refine ⟨hv, ?_, hlock⟩
      cases a with
      | finish => rfl
      | suspend | cancelling => rcases hp with ⟨_, hp⟩ | ⟨_, hp⟩ <;> cases hp
  · rw [← hwaits]
    exact hwatches.waits
  · rw [← hcancels]
    exact hwatches.cancels
  · cases a with
    | suspend | cancelling =>
      cases hpc
      exact hdirect
    | finish => cases hpc

/-- **A first segment.** -/
theorem call_acts (s : IngestionService P Q) (t : TaskId) {op : Op} (hop : op ≠ .useCase) :
    Acts outcome s t true .idle w (callCompletes outcome s t op) handler (call outcome s t op) := by
  have hstart : Acting outcome s t true .idle w (callCompletes outcome s t op) handler
      (.enter op) s := by
    refine ⟨?_, .keeps rfl (.inl rfl), .same rfl (.refl s), .stopping (.inl rfl) rfl rfl rfl rfl⟩
    cases op with
    | start | stop => rfl
    | useCase => exact absurd rfl hop
  exact ((call_leads op).keeps Acting.arc hstart).acts

/-- **A later segment.** -/
theorem segment_acts {pc : Pc P Q} {wake : Resume P} (hp : pc.direct = true)
    (h : advance outcome s t pc wake = some r) :
    Acts outcome s t false pc.lockStatus pc.waitsFor (startCompletes outcome s t pc wake)
      (handlesTimeout outcome pc wake = true) r := by
  refine ((advance_leads h).keeps Acting.arc ⟨hp, .keeps rfl (.inr rfl), .same rfl (.refl s),
    ⟨(nomatch ·), ?_, fun _ hb => .inl hb, id, fun _ hc => (nomatch hc)⟩⟩).acts
  intro _ _ hpc
  cases hpc
  exact ⟨rfl, rfl⟩

end

/-! ## The handler of `TimeoutError` -/

theorem startCompletes_inLoop {pc : Pc P Q} {wake : Resume P} (h : pc.inLoop = true) :
    startCompletes outcome s t pc wake = false := by
  cases pc <;> first | rfl | cases h

/-- On the way to the cancellation of `b`. -/
structure Handling (outcome : TaskId → Option Outcome) (b : TaskId) (p : Node P Q)
    (v : IngestionService P Q) : Prop where
  backgroundTask : v.backgroundTask = some b
  place : p.handles outcome = true ∨ p.cancelled = some b

theorem Handling.arc {b : TaskId} (ho : outcome b = none) (ha : Arc outcome t p v p' v')
    (h : Handling outcome b p v) : Handling outcome b p' v' := by
  obtain ⟨hb, hp⟩ := h
  cases ha with
  | waitDone hw hc =>
    refine ⟨hb, .inl ?_⟩
    rcases hw with rfl | rfl <;>
      simpa [Node.handles, Node.cancelled, handlesTimeout, hc] using hp
  | lateDone hc =>
    refine ⟨hb, .inl ?_⟩
    simpa [Node.handles, Node.cancelled, handlesTimeout, hc, or_comm] using hp
  | waitedTimeout | waitedLate => exact ⟨hb, .inl rfl⟩
  | timeoutCancels hb' => exact ⟨hb, .inr (hb'.symm.trans hb)⟩
  | timeoutDone hb' ho' =>
    rw [hb] at hb'
    cases hb'
    rw [ho] at ho'
    cases ho'
  | timeoutNone hb' =>
    rw [hb] at hb'
    cases hb'
  | waitCancelled hc =>
    simp [Node.handles, Node.cancelled, handlesTimeout, hc] at hp
  | waitedReturned | waitedCancelled => simp [Node.handles, Node.cancelled] at hp
  | waitedRaised hne => simp [Node.handles, Node.cancelled, hne] at hp
  | _ => rcases hp with hp | hp <;> cases hp

/-- **The handler cancels the background task of the moment**, if it is not done. -/
theorem handler_cancels {pc : Pc P Q} {wake : Resume P} {r : IngestionService P Q × Act P Q}
    (h : advance outcome s t pc wake = some r) (hh : handlesTimeout outcome pc wake = true)
    {b : TaskId} (hb : s.backgroundTask = some b) (ho : outcome b = none) :
    r.2.cancels = some b := by
  obtain ⟨-, hp⟩ := (advance_leads h).keeps (Handling.arc ho) ⟨hb, .inl hh⟩
  obtain ⟨v, a⟩ := r
  cases a with
  | suspend | finish => rcases hp with hp | hp <;> cases hp
  | cancelling =>
    rcases hp with hp | hp
    · cases hp
    · exact hp

end

end FlinkPractices.Service
