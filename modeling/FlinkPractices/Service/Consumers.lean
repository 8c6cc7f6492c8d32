import FlinkPractices.Service.Segments
import FlinkPractices.Service.Tally

/-!
# One consumer

Any number of clients that call `start()` and `stop()`.  `stop()` gives the lock back before it
waits for the consumption task, and reads `_background_task` again after the wait, so a `start()`
that gets in between makes a second consumer, and the `stop()` may cancel it.

`Chronicle` dates the calls and records what every `stop()` cancels.  `OneConsumer` says that at
most one consumption task is unfinished, that no `stop()` cancels the task of a later `start()`,
and that there are no more flushes and disconnections than successful calls of `start()`.
Principal result: `oneConsumer_iff` — a run keeps to this iff no `start()` completes while a
consumption task is unfinished, and no `stop()` handles a timeout while a later task runs
(`Careful`).

## Proof

* `Segment` — a segment of one task in a run with its times; what it does with the lock, the
  background task and the cancellations is `Acts` of `Service.Segments`, and `step_segment` says
  that a step is such a segment or concerns none of this (`Quiet`)
* `Sound` — the invariant of every run: calls are served in the order of their times, and
  consumption tasks are born in that order; `Sound.counts` are the flushes and disconnections, by
  `Service.Tally`
* `Segment.keeps_iff_careful` — a segment keeps to one consumer iff it is careful

`startedTwice_notOne` is a run in which both happens: two consumers at once, and then the wrong one
is cancelled.
-/

set_option autoImplicit false

namespace FlinkPractices.Service

open Lib Function
open Connector (TaskId)

variable {U : UpperTable} (P : ConnectorPort U) (Q : PublisherPort)

/-- The service with the times of its calls. -/
structure Chronicle where
  sys : Sys P Q
  /-- the time of the next step -/
  now : Nat
  /-- when the last call of a client began -/
  began : TaskId → Nat
  /-- when the `start()` began that has created a consumption task -/
  born : TaskId → Nat
  /-- the consumption tasks that a `stop()` has cancelled, with the time at which it began -/
  cancels : List (Nat × TaskId)

variable {P Q}

/-- The task that makes the step. -/
def Label.task : Label P → TaskId
  | .call t _ => t
  | .resume t _ => t
  | .cancel t => t
  | .exit t _ => t

/-- Nothing but `start()` and `stop()` is called. -/
def Label.StartsOrStops : Label P → Prop
  | .call _ op => op ≠ .useCase
  | _ => True

/-- The tasks that a step of a `stop()` cancels: the one it calls `cancel()` on, and the one at
which the cancellation arrives. -/
def Sys.stopCancels (s : Sys P Q) : Label P → List TaskId
  | .resume t w =>
    match (s.tasks t).call.bind fun pc => advance s.outcome s.service t pc w with
    | some (v, .cancelling pc b) =>
      let s' := { s.setTask t { s.tasks t with call := some pc, cancelling := false } with
        service := v }
      b :: (s'.cancelTarget (v.nextTask + 1) b).toList
    | _ => []
  | _ => []

/-- A consumption task that exists. -/
def Sys.Consumer (s : Sys P Q) (b : TaskId) : Prop := s.clients ≤ b ∧ b < s.service.nextTask

instance (s : Sys P Q) (b : TaskId) : Decidable (s.Consumer b) :=
  inferInstanceAs (Decidable (_ ∧ _))

/-- An unfinished one. -/
def Sys.Consuming (s : Sys P Q) (b : TaskId) : Prop := s.Consumer b ∧ s.outcome b = none

/-- The calls of `start()` that have succeeded; each has created a consumption task. -/
def Sys.starts (s : Sys P Q) : Nat := s.service.nextTask - s.clients

namespace Chronicle

def init (s : Sys P Q) : Chronicle P Q := ⟨s, 1, fun _ => 0, fun _ => 0, []⟩

/-- The calls in progress after a step, with the times at which they began. -/
def dated (c : Chronicle P Q) : Label P → TaskId → Nat
  | .call t _ => update c.began t c.now
  | _ => c.began

/-- One step, with its time. -/
def step (c : Chronicle P Q) (l : Label P) : Option (Chronicle P Q) :=
  match Service.step c.sys l with
  | some s =>
    some {
      sys := s
      now := c.now + 1
      began := c.dated l
      born :=
        if s.service.nextTask = c.sys.service.nextTask then c.born
        else update c.born c.sys.service.nextTask (c.dated l l.task)
      cancels := c.cancels ++
        ((c.sys.stopCancels l).filter c.sys.Consumer).map fun u => (c.dated l l.task, u) }
  | none => none

/-- At most one consumer. -/
structure OneConsumer (c : Chronicle P Q) : Prop where
  one : ∀ b b', c.sys.Consuming b → c.sys.Consuming b' → b = b'
  /-- no `stop()` has cancelled the task of a `start()` that began after it -/
  earlier : ∀ x ∈ c.cancels, ¬x.1 < c.born x.2
  flush : (c.sys.service.history.filterMap Event.flushOf).length ≤ c.sys.starts
  disconnect : (c.sys.service.history.filterMap Event.disconnectOf).length ≤ c.sys.starts

/-- No `start()` completes while a consumption task is unfinished, and no `stop()` handles a
timeout while the background task is an unfinished one of a `start()` that began after it. -/
def Careful (c : Chronicle P Q) : Label P → Prop
  | .call t op => callCompletes c.sys.outcome c.sys.service t op = true →
      ∀ b, ¬c.sys.Consuming b
  | .resume t w => ∀ pc, (c.sys.tasks t).call = some pc →
      (startCompletes c.sys.outcome c.sys.service t pc w = true → ∀ b, ¬c.sys.Consuming b) ∧
      (handlesTimeout c.sys.outcome pc w = true → ∀ b, c.sys.service.backgroundTask = some b →
        c.sys.outcome b = none → ¬c.began t < c.born b)
  | _ => True

end Chronicle

/-! ## What a step does -/

def Sys.lockStatus (s : Sys P Q) (t : TaskId) : AsyncLock.Status :=
  (s.tasks t).call.elim .idle Pc.lockStatus

def Sys.waitsFor (s : Sys P Q) (t : TaskId) : Option TaskId := (s.tasks t).call.bind Pc.waitsFor

theorem Sys.cancelTarget_unfinished {s : Sys P Q} {u : TaskId} : ∀ {d : Nat} {t : TaskId},
    s.outcome t = none → s.cancelTarget d t = some u → s.outcome u = none
  | 0, _, _, h => by cases h
  | d + 1, t, ht, h => by
    simp only [Sys.cancelTarget] at h
    split at h
    · rename_i o _
      split at h
      · cases h
        exact ht
      · rename_i ho
        exact Sys.cancelTarget_unfinished (by simpa using ho) h
    · cases h
      exact ht

/-- A segment of `t` that ends with `r`, in a run with its times. -/
structure Segment (c c' : Chronicle P Q) (t : TaskId) (first completes : Bool) (handler : Prop)
    (r : IngestionService P Q × Act P Q) : Prop where
  unfinished : c.sys.outcome t = none
  settled : Settled c.sys c'.sys t r
  acts : Acts c.sys.outcome c.sys.service t first (c.sys.lockStatus t) (c.sys.waitsFor t)
    completes handler r
  inLoop : ∀ pc, r.2.pc = some pc → (pc.inLoop = true ↔ c.sys.clients ≤ t)
  client : completes = true → t < c.sys.clients
  now : c'.now = c.now + 1
  others : ∀ u, u ≠ t → c'.began u = c.began u
  self : c'.began t = if first then c.now else c.began t
  idle : first = true → c.sys.lockStatus t = .idle
  later : handler → first = false
  born : c'.born = if completes then update c.born c.sys.service.nextTask (c'.began t) else c.born
  cancels : ∃ us : List TaskId, c'.cancels = c.cancels ++ us.map (fun u => (c'.began t, u)) ∧
    (∀ u ∈ us, c.sys.Consuming u ∧ ∃ b, r.2.cancels = some b) ∧
    ∀ b, r.2.cancels = some b → c.sys.Consumer b → b ∈ us

/-- A step that concerns neither the service nor the suspended calls. -/
structure Quiet (c c' : Chronicle P Q) : Prop where
  service : c'.sys.service = c.sys.service
  clients : c'.sys.clients = c.sys.clients
  calls : ∀ t, (c'.sys.tasks t).call = (c.sys.tasks t).call
  outcome : ∀ t, c'.sys.outcome t = c.sys.outcome t ∨ t < c.sys.clients
  now : c'.now = c.now + 1
  began : c'.began = c.began
  born : c'.born = c.born
  cancels : c'.cancels = c.cancels

/-- The invariant of every run: calls are served in the order of their times. -/
structure Sound (c : Chronicle P Q) : Prop where
  unborn : c.sys.Unborn
  direct : ∀ t pc, (c.sys.tasks t).call = some pc → pc.direct = true
  loops : ∀ t pc, (c.sys.tasks t).call = some pc → (pc.inLoop = true ↔ c.sys.clients ≤ t)
  coherent : c.sys.service.lock.Coherent c.sys.lockStatus
  inOrder : c.sys.service.lock.InOrder c.began
  began : ∀ t, c.began t < c.now
  born : ∀ b, c.born b < c.now
  background : ∀ b, c.sys.service.backgroundTask = some b → c.sys.Consumer b
  queue : ∀ b, c.sys.Consumer b → ∀ t ∈ c.sys.service.lock.waiters, c.born b < c.began t
  waits : ∀ t b, c.sys.waitsFor t = some b → c.sys.Consumer b ∧ c.born b < c.began t
  recorded : ∀ x ∈ c.cancels, c.sys.Consumer x.2
  stops : c.sys.service.stops + c.sys.service.running.toNat ≤ c.sys.starts

/-- What a segment has to do with `Careful`. -/
structure Segment.Checks (c : Chronicle P Q) (l : Label P) (t : TaskId) (completes : Bool)
    (handler : Prop) (r : IngestionService P Q × Act P Q) : Prop where
  careful : c.Careful l ↔ (completes = true → ∀ b, ¬c.sys.Consuming b) ∧
    (handler → ∀ b, c.sys.service.backgroundTask = some b → c.sys.outcome b = none →
      ¬c.began t < c.born b)
  handles : handler → ∀ b, c.sys.service.backgroundTask = some b → c.sys.outcome b = none →
    r.2.cancels = some b

/-- What `stopCancels` lists, of a segment that ends with `r`. -/
theorem Sys.stopCancels_spec {s : Sys P Q} {t : TaskId} {pc : Pc P Q} {w : Resume P}
    {r : IngestionService P Q × Act P Q} (hc : (s.tasks t).call = some pc)
    (hr : advance s.outcome s.service t pc w = some r)
    (ho : ∀ b, r.2.cancels = some b → s.outcome b = none) :
    (∀ u ∈ s.stopCancels (.resume t w), s.outcome u = none ∧ ∃ b, r.2.cancels = some b) ∧
      ∀ b, r.2.cancels = some b → b ∈ s.stopCancels (.resume t w) := by
  obtain ⟨v, a⟩ := r
  have hb : ((s.tasks t).call.bind fun pc => advance s.outcome s.service t pc w) = some (v, a) := by
    rw [hc]
    exact hr
  cases a with
  | suspend pc' =>
    simp only [Sys.stopCancels, hb]
    exact ⟨fun _ hu => (by cases hu), fun _ h => (by cases h)⟩
  | finish o =>
    simp only [Sys.stopCancels, hb]
    exact ⟨fun _ hu => (by cases hu), fun _ h => (by cases h)⟩
  | cancelling pc' b =>
    simp only [Sys.stopCancels, hb]
    refine ⟨fun u hu => ⟨?_, b, rfl⟩, ?_⟩
    · rcases List.mem_cons.1 hu with rfl | hu
      · exact ho u rfl
      · have hsame : ∀ x, Sys.outcome { s.setTask t { s.tasks t with
            call := some pc', cancelling := false } with service := v } x = s.outcome x := by
          intro x
          unfold Sys.outcome
          by_cases hx : x = t
          · subst hx
            simp [Sys.setTask]
          · simp [Sys.setTask, hx]
        have hun := Sys.cancelTarget_unfinished ((hsame b).trans (ho b rfl))
          (Option.mem_toList.1 hu)
        exact (hsame u).symm.trans hun
    · intro b' h
      cases h
      exact List.mem_cons_self

theorem Chronicle.step_some {c c' : Chronicle P Q} {l : Label P} (h : c.step l = some c') :
    Service.step c.sys l = some c'.sys ∧ c'.now = c.now + 1 ∧
      c'.began = c.dated l ∧
      c'.born = (if c'.sys.service.nextTask = c.sys.service.nextTask then c.born
        else update c.born c.sys.service.nextTask (c'.began l.task)) ∧
      c'.cancels = c.cancels ++ ((c.sys.stopCancels l).filter c.sys.Consumer).map
        fun u => (c'.began l.task, u) := by
  unfold Chronicle.step at h
  split at h
  · rename_i s hs
    cases h
    exact ⟨hs, rfl, rfl, rfl, rfl⟩
  · cases h

theorem step_call {s s' : Sys P Q} {t : TaskId} {op : Op}
    (h : Service.step s (.call t op) = some s') : t < s.clients ∧ s.outcome t = none ∧
      (s.tasks t).call = none ∧ Settled s s' t (call s.outcome s.service t op) := by
  cases step_move h with
  | call ht ho hc => exact ⟨ht, ho, hc, s.settle_settled _ _ ho⟩

theorem step_resume {s s' : Sys P Q} {t : TaskId} {w : Resume P}
    (h : Service.step s (.resume t w) = some s') : ∃ pc r, t < s.service.nextTask ∧
      s.outcome t = none ∧ (s.tasks t).call = some pc ∧
      advance s.outcome s.service t pc w = some r ∧ Settled s s' t r := by
  cases step_move h with
  | resume ht ho hc _ hr => exact ⟨_, _, ht, ho, hc, hr, s.settle_settled _ _ ho⟩

theorem step_quiet {s s' : Sys P Q} {l : Label P} (h : Service.step s l = some s')
    (hc : ∀ t op, l ≠ .call t op) (hr : ∀ t w, l ≠ .resume t w) :
    s'.service = s.service ∧ s'.clients = s.clients ∧
      (∀ t, (s'.tasks t).call = (s.tasks t).call) ∧
      ∀ t, s'.outcome t = s.outcome t ∨ t < s.clients := by
  cases step_effect h with
  | first => exact absurd rfl (hc _ _)
  | later => exact absurd rfl (hr _ _)
  | quiet _ hs hcl hcalls hout => exact ⟨hs, hcl, hcalls, fun t => (hout t).imp_right And.left⟩

/-- A segment makes a task iff it ends a `start()`; the task is born when that call began. -/
theorem Acts.born {c c' : Chronicle P Q} {l : Label P} {t : TaskId} {first completes : Bool}
    {handler : Prop} {st : AsyncLock.Status} {w : Option TaskId} {r : IngestionService P Q × Act P Q}
    (ha : Acts c.sys.outcome c.sys.service t first st w completes handler r)
    (hset : Settled c.sys c'.sys t r) (hs : c.step l = some c') (ht : l.task = t) :
    c'.born = if completes then update c.born c.sys.service.nextTask (c'.began t) else c.born := by
  obtain ⟨-, -, -, hborn, -⟩ := Chronicle.step_some hs
  subst ht
  rw [hborn, hset.service]
  cases completes with
  | false => exact if_pos (ha.kept rfl).nextTask
  | true =>
    rw [(ha.created rfl).1.nextTask]
    exact if_neg (Nat.succ_ne_self _)

/-- The first segment of a call. -/
theorem call_segment {c c' : Chronicle P Q} {t : TaskId} {op : Op}
    (hl : (Label.call t op : Label P).StartsOrStops) (hs : c.step (.call t op) = some c') :
    ∃ first completes handler r, Segment c c' t first completes handler r ∧
      Segment.Checks c (.call t op) t completes handler r := by
  obtain ⟨hstep, hnow, hbegan, -, hcancels⟩ := Chronicle.step_some hs
  obtain ⟨ht, ho, hc, hset⟩ := step_call hstep
  have hst : c.sys.lockStatus t = .idle := by
    rw [Sys.lockStatus, hc]
    rfl
  have hw : c.sys.waitsFor t = none := by
    rw [Sys.waitsFor, hc]
    rfl
  have ha : Acts c.sys.outcome c.sys.service t true .idle (c.sys.waitsFor t)
      (callCompletes c.sys.outcome c.sys.service t op) False
      (call c.sys.outcome c.sys.service t op) := call_acts c.sys.service t hl
  refine ⟨true, callCompletes c.sys.outcome c.sys.service t op, False, _,
    ⟨ho, hset, ?_, ?_, fun _ => ht, hnow, ?_, ?_, fun _ => hst, False.elim, ha.born hset hs rfl,
      [], ?_, fun _ hu => (by cases hu), ?_⟩,
    ⟨fun hg => ⟨hg, False.elim⟩, fun hg => hg.1⟩, False.elim⟩
  · rw [hst]
    exact ha
  · intro pc hpc
    rw [call_outside pc hpc]
    exact ⟨nofun, fun hle => absurd ht (Nat.not_lt.2 hle)⟩
  · intro u hu
    rw [hbegan]
    exact update_of_ne hu _ _
  · rw [hbegan]
    exact update_self t c.now c.began
  · rw [hcancels]
    rfl
  · intro b hb
    obtain ⟨-, hb | ⟨hf, -⟩⟩ := ha.cancels b hb
    · rw [hw] at hb
      cases hb
    · exact hf.elim

/-- A later segment. -/
theorem resume_segment {c c' : Chronicle P Q} {t : TaskId} {w : Resume P} (h : Sound c)
    (hs : c.step (.resume t w) = some c') :
    ∃ first completes handler r, Segment c c' t first completes handler r ∧
      Segment.Checks c (.resume t w) t completes handler r := by
  obtain ⟨hstep, hnow, hbegan, -, hcancels⟩ := Chronicle.step_some hs
  obtain ⟨pc, r, ht, ho, hc, hr, hset⟩ := step_resume hstep
  have hst : c.sys.lockStatus t = pc.lockStatus := by
    rw [Sys.lockStatus, hc]
    rfl
  have hw : c.sys.waitsFor t = pc.waitsFor := by
    rw [Sys.waitsFor, hc]
    rfl
  have ha := segment_acts (h.direct t pc hc) hr
  have hloop := h.loops t pc hc
  obtain ⟨hfrom, hto⟩ := Sys.stopCancels_spec hc hr fun b hb => (ha.cancels b hb).1
  refine ⟨false, startCompletes c.sys.outcome c.sys.service t pc w,
    handlesTimeout c.sys.outcome pc w = true, r,
    ⟨ho, hset, ?_, ?_, ?_, hnow, ?_, ?_, nofun, fun _ => rfl, ha.born hset hs rfl,
      (c.sys.stopCancels (.resume t w)).filter fun u => c.sys.Consumer u, ?_, ?_, ?_⟩,
    ⟨fun hg => hg pc hc, ?_⟩, fun hh b hb hob => handler_cancels hr hh hb hob⟩
  · rw [hst, hw]
    exact ha
  · intro pc' hpc
    rw [segment_inLoop_eq hr hpc]
    exact hloop
  · intro hcomp
    refine Nat.lt_of_not_le fun hle => ?_
    rw [startCompletes_inLoop (hloop.2 hle)] at hcomp
    cases hcomp
  · intro u _
    rw [hbegan]
    rfl
  · rw [hbegan]
    rfl
  · rw [hcancels, hbegan]
    rfl
  · intro u hu
    obtain ⟨hu, hcon⟩ := List.mem_filter.1 hu
    obtain ⟨hou, hb⟩ := hfrom u hu
    exact ⟨⟨of_decide_eq_true hcon, hou⟩, hb⟩
  · intro b hb hcon
    exact List.mem_filter.2 ⟨hto b hb, decide_eq_true hcon⟩
  · intro hg pc' hpc'
    rw [hc] at hpc'
    cases hpc'
    exact hg

/-- Any other step. -/
theorem quiet_segment {c c' : Chronicle P Q} {l : Label P} (hs : c.step l = some c')
    (hc : ∀ t op, l ≠ .call t op) (hr : ∀ t w, l ≠ .resume t w) (hbegan : c.dated l = c.began)
    (hcancels : c.sys.stopCancels l = []) : Quiet c c' := by
  obtain ⟨hstep, hnow, hbegan', hborn, hcancels'⟩ := Chronicle.step_some hs
  obtain ⟨hsv, hcl, hcalls, hout⟩ := step_quiet hstep hc hr
  refine ⟨hsv, hcl, hcalls, hout, hnow, hbegan'.trans hbegan, ?_, ?_⟩
  · rw [hborn, hsv, if_pos rfl]
  · rw [hcancels', hcancels]
    exact List.append_nil _

/-- **A step of a run**: a segment of a call or of a consumption task, or nothing that matters. -/
theorem step_segment {c c' : Chronicle P Q} {l : Label P} (h : Sound c) (hl : l.StartsOrStops)
    (hs : c.step l = some c') :
    (∃ t first completes handler r, Segment c c' t first completes handler r ∧
      Segment.Checks c l t completes handler r) ∨ Quiet c c' ∧ c.Careful l := by
  cases l with
  | call t op => exact .inl ⟨t, call_segment hl hs⟩
  | resume t w => exact .inl ⟨t, resume_segment h hs⟩
  | cancel t => exact .inr ⟨quiet_segment hs nofun nofun rfl rfl, trivial⟩
  | exit t o => exact .inr ⟨quiet_segment hs nofun nofun rfl rfl, trivial⟩

/-! ## The calls are served in their order -/

section

variable {c c' : Chronicle P Q} {t : TaskId} {first completes : Bool} {handler : Prop}
variable {r : IngestionService P Q × Act P Q}

/-- The call at the lock is not the one that begins. -/
theorem Segment.at_lock (hg : Segment c c' t first completes handler r) (h : Sound c) {u : TaskId}
    (hu : u ∈ c.sys.service.lock.waiters ∨ c.sys.service.lock.owner = some u) :
    c'.began u = c.began u := by
  by_cases hut : u = t
  · subst hut
    cases hf : first with
    | false => rw [hg.self, hf]; rfl
    | true =>
      have hi := hg.idle hf
      rcases hu with hu | hu
      · rw [(h.coherent.waiters u).1 hu] at hi
        cases hi
      · rw [(h.coherent.owner u).1 hu] at hi
        cases hi
  · exact hg.others u hut

theorem Segment.age (hg : Segment c c' t first completes handler r) (h : Sound c) :
    c.sys.service.lock.InOrder c'.began :=
  h.inOrder.congr fun _ hu => hg.at_lock h hu

theorem Segment.owns (_ : Segment c c' t first completes handler r) (h : Sound c) :
    c.sys.lockStatus t = .holding → c.sys.service.lock.owner = some t :=
  (h.coherent.owner t).2

/-- The step is younger than what the task has asked for before. -/
theorem Segment.self_le (hg : Segment c c' t first completes handler r) (h : Sound c) :
    c.began t ≤ c'.began t := by
  rw [hg.self]
  split
  · exact (h.began t).le
  · exact le_rfl

theorem Segment.inOrder (hg : Segment c c' t first completes handler r) (h : Sound c) :
    c'.sys.service.lock.InOrder c'.began := by
  rw [hg.settled.service]
  by_cases hidle : first = false ∧ c.sys.lockStatus t = .idle
  · rw [hg.acts.idle hidle.1 hidle.2]
    exact hg.age h
  · refine hg.acts.lock.inOrder (hg.age h) (hg.owns h) fun hst u hu => ?_
    have hf : first = true := Bool.not_eq_false _ ▸ fun hf => hidle ⟨hf, hst⟩
    rw [hg.at_lock h hu, hg.self, hf]
    exact h.began u

/-- Who waits for the lock has waited before, or calls now. -/
theorem Segment.waiting (hg : Segment c c' t first completes handler r) {u : TaskId}
    (hu : u ∈ c'.sys.service.lock.waiters) :
    u ∈ c.sys.service.lock.waiters ∨ first = true ∧ u = t := by
  rw [hg.settled.service] at hu
  rcases hg.acts.lock.waiters hu with hw | ⟨hst, rfl⟩
  · exact .inl hw
  · cases hf : first with
    | true => exact .inr ⟨rfl, rfl⟩
    | false =>
      rw [hg.acts.idle hf hst] at hu
      exact .inl hu

theorem Segment.coherent (hg : Segment c c' t first completes handler r) (h : Sound c) :
    c'.sys.service.lock.Coherent c'.sys.lockStatus := by
  have hst : c'.sys.lockStatus = update c.sys.lockStatus t r.2.lockStatus := by
    funext u
    by_cases hu : u = t
    · subst hu
      rw [update_self, Sys.lockStatus, hg.settled.call]
      rfl
    · rw [update_of_ne hu, Sys.lockStatus, (hg.settled.others u hu).1]
      rfl
  rw [hst, hg.settled.service]
  exact h.coherent.steps hg.acts.lock.steps

/-! ## The consumption tasks -/

theorem Segment.nextTask (hg : Segment c c' t first completes handler r) :
    c'.sys.service.nextTask = c.sys.service.nextTask + completes.toNat := by
  rw [hg.settled.service]
  cases hc : completes with
  | false => exact (hg.acts.kept hc).nextTask
  | true => exact (hg.acts.created hc).1.nextTask

/-- A consumption task of before, or the new one. -/
theorem Segment.consumer_iff (hg : Segment c c' t first completes handler r) (h : Sound c)
    {b : TaskId} : c'.sys.Consumer b ↔
      c.sys.Consumer b ∨ completes = true ∧ b = c.sys.service.nextTask := by
  have hn := h.unborn.clients
  unfold Sys.Consumer
  rw [hg.nextTask, hg.settled.clients]
  cases completes with
  | false => simp
  | true =>
    simp only [Bool.toNat_true, true_and]
    constructor
    · rintro ⟨h₁, h₂⟩
      rcases Nat.lt_or_eq_of_le (Nat.lt_succ_iff.1 h₂) with h₂ | h₂
      · exact .inl ⟨h₁, h₂⟩
      · exact .inr h₂
    · rintro (⟨h₁, h₂⟩ | rfl)
      · exact ⟨h₁, Nat.lt_succ_of_lt h₂⟩
      · exact ⟨hn, Nat.lt_succ_self _⟩

theorem Segment.born_of_consumer (hg : Segment c c' t first completes handler r) {b : TaskId}
    (hb : c.sys.Consumer b) : c'.born b = c.born b := by
  rw [hg.born]
  split
  · exact update_of_ne (Nat.ne_of_lt hb.2) _ _
  · rfl

theorem Segment.queue (hg : Segment c c' t first completes handler r) (h : Sound c) {b : TaskId}
    (hb : c'.sys.Consumer b) {u : TaskId} (hu : u ∈ c'.sys.service.lock.waiters) :
    c'.born b < c'.began u := by
  rcases (hg.consumer_iff h).1 hb with hb | ⟨hc, rfl⟩
  · rw [hg.born_of_consumer hb]
    rcases hg.waiting hu with hw | ⟨hf, rfl⟩
    · rw [hg.at_lock h (.inl hw)]
      exact h.queue b hb u hw
    · rw [hg.self, hf]
      exact h.born b
  · -- the `start()` of the new task has had the lock before those that still wait
    obtain ⟨-, -, l, hl, hlock⟩ := hg.acts.created hc
    rw [hg.born, hc, if_pos rfl, update_self]
    apply hl.older (hg.age h) (hg.owns h) u
    rw [hg.settled.service, hlock] at hu
    exact hu

theorem Segment.waits (hg : Segment c c' t first completes handler r) (h : Sound c)
    {u b : TaskId} (hu : c'.sys.waitsFor u = some b) :
    c'.sys.Consumer b ∧ c'.born b < c'.began u := by
  have old : c.sys.Consumer b ∧ c.born b < c'.began u := by
    by_cases hut : u = t
    · subst hut
      rw [Sys.waitsFor, hg.settled.call] at hu
      rcases hg.acts.waits b hu with hw | ⟨hb, hf | hst⟩
      · exact ⟨(h.waits u b hw).1, (h.waits u b hw).2.trans_le (hg.self_le h)⟩
      · rw [hg.self, hf]
        exact ⟨h.background b hb, h.born b⟩
      · have hq := h.queue b (h.background b hb) u ((h.coherent.waiters u).2 hst)
        exact ⟨h.background b hb, hq.trans_le (hg.self_le h)⟩
    · rw [Sys.waitsFor, (hg.settled.others u hut).1] at hu
      rw [hg.others u hut]
      exact h.waits u b hu
  exact ⟨(hg.consumer_iff h).2 (.inl old.1), (hg.born_of_consumer old.1).symm ▸ old.2⟩

theorem Segment.background (hg : Segment c c' t first completes handler r) (h : Sound c)
    {b : TaskId} (hb : c'.sys.service.backgroundTask = some b) : c'.sys.Consumer b := by
  rw [hg.settled.service] at hb
  rw [hg.consumer_iff h]
  cases hc : completes with
  | false =>
    rw [(hg.acts.kept hc).backgroundTask] at hb
    exact .inl (h.background b hb)
  | true =>
    rw [(hg.acts.created hc).1.backgroundTask] at hb
    exact .inr ⟨rfl, (Option.some.inj hb).symm⟩

theorem Segment.stops (hg : Segment c c' t first completes handler r) (h : Sound c) :
    c'.sys.service.stops + c'.sys.service.running.toNat ≤ c'.sys.starts := by
  have hs := h.stops
  have hn := h.unborn.clients
  have hb : c'.sys.service.running.toNat ≤ 1 := Bool.toNat_le _
  unfold Sys.starts at hs ⊢
  rw [hg.nextTask, hg.settled.clients]
  rw [hg.settled.service] at hb ⊢
  cases hc : completes with
  | false => exact (hg.acts.kept hc).stops.trans hs
  | true =>
    rw [(hg.acts.created hc).1.stops]
    simp only [Bool.toNat_true]
    omega

end

/-- **Every step keeps the order.** -/
theorem Sound.step {c c' : Chronicle P Q} {l : Label P} (h : Sound c) (hl : l.StartsOrStops)
    (hs : c.step l = some c') : Sound c' := by
  have hunborn := h.unborn.step (Chronicle.step_some hs).1
  rcases step_segment h hl hs with ⟨t, first, completes, handler, r, hg, -⟩ | ⟨hq, -⟩
  · refine ⟨hunborn, ?_, ?_, hg.coherent h, hg.inOrder h, ?_, ?_, fun b hb => hg.background h hb,
      fun b hb u hu => hg.queue h hb hu, fun u b hu => hg.waits h hu, ?_, hg.stops h⟩
    · intro u pc hpc
      by_cases hu : u = t
      · subst hu
        exact hg.acts.direct pc (hg.settled.call ▸ hpc)
      · exact h.direct u pc ((hg.settled.others u hu).1 ▸ hpc)
    · intro u pc hpc
      rw [hg.settled.clients]
      by_cases hu : u = t
      · subst hu
        exact hg.inLoop pc (hg.settled.call ▸ hpc)
      · exact h.loops u pc ((hg.settled.others u hu).1 ▸ hpc)
    · intro u
      rw [hg.now]
      by_cases hu : u = t
      · subst hu
        rw [hg.self]
        split
        · omega
        · exact Nat.lt_succ_of_lt (h.began u)
      · rw [hg.others u hu]
        exact Nat.lt_succ_of_lt (h.began u)
    · intro b
      rw [hg.now, hg.born]
      split
      · by_cases hb : b = c.sys.service.nextTask
        · rw [hb, update_self, hg.self]
          split
          · omega
          · exact Nat.lt_succ_of_lt (h.began t)
        · rw [update_of_ne hb]
          exact Nat.lt_succ_of_lt (h.born b)
      · exact Nat.lt_succ_of_lt (h.born b)
    · intro x hx
      obtain ⟨us, hus, hcon, -⟩ := hg.cancels
      rw [hus] at hx
      refine (hg.consumer_iff h).2 (.inl ?_)
      rcases List.mem_append.1 hx with hx | hx
      · exact h.recorded x hx
      · obtain ⟨u, hu, rfl⟩ := List.mem_map.1 hx
        exact (hcon u hu).1.1
  · have hst : c'.sys.lockStatus = c.sys.lockStatus := by
      funext u
      rw [Sys.lockStatus, hq.calls u]
      rfl
    have hcon : ∀ b, c'.sys.Consumer b ↔ c.sys.Consumer b := fun b => by
      unfold Sys.Consumer
      rw [hq.service, hq.clients]
    refine ⟨hunborn, fun u pc hpc => h.direct u pc (hq.calls u ▸ hpc), ?_, ?_, ?_, ?_, ?_, ?_, ?_,
      ?_, ?_, ?_⟩
    · intro u pc hpc
      rw [hq.clients]
      exact h.loops u pc (hq.calls u ▸ hpc)
    · rw [hq.service, hst]
      exact h.coherent
    · rw [hq.service, hq.began]
      exact h.inOrder
    · intro u
      rw [hq.began, hq.now]
      exact Nat.lt_succ_of_lt (h.began u)
    · intro b
      rw [hq.born, hq.now]
      exact Nat.lt_succ_of_lt (h.born b)
    · intro b hb
      rw [hq.service] at hb
      exact (hcon b).2 (h.background b hb)
    · intro b hb u hu
      rw [hq.service] at hu
      rw [hq.born, hq.began]
      exact h.queue b ((hcon b).1 hb) u hu
    · intro u b hu
      rw [Sys.waitsFor, hq.calls u] at hu
      rw [hcon, hq.born, hq.began]
      exact h.waits u b hu
    · intro x hx
      rw [hq.cancels] at hx
      exact (hcon x.2).2 (h.recorded x hx)
    · unfold Sys.starts
      rw [hq.service, hq.clients]
      exact h.stops

theorem sound_init (connector : P.State) (publisher : Q.State)
    (maxConsecutiveFailures clients : Nat) :
    Sound (.init (Sys.init connector publisher maxConsecutiveFailures clients)) := by
  have call : ∀ t pc, ((Sys.init (P := P) connector publisher maxConsecutiveFailures
      clients).tasks t).call = some pc → clients ≤ t ∧ pc = .ready := by
    intro t pc h
    simp only [Sys.init] at h
    split at h
    · cases h
    · rename_i ht
      cases h
      exact ⟨Nat.not_lt.1 ht, rfl⟩
  have idle : ∀ t, Sys.lockStatus (Sys.init (P := P) connector publisher maxConsecutiveFailures
      clients) t = .idle := by
    intro t
    unfold Sys.lockStatus
    cases hc : ((Sys.init (P := P) connector publisher maxConsecutiveFailures
      clients).tasks t).call with
    | none => rfl
    | some pc => rw [(call t pc hc).2]; rfl
  refine ⟨unborn_init connector publisher maxConsecutiveFailures clients, ?_, ?_, ?_,
    ⟨.nil, fun _ h => (by cases h)⟩, fun _ => Nat.one_pos, fun _ => Nat.one_pos,
    fun _ h => (by cases h), fun _ _ _ h => (by cases h), ?_, fun _ h => (by cases h),
    Nat.zero_le _⟩
  · intro t pc h
    rw [(call t pc h).2]
    rfl
  · intro t pc h
    rw [(call t pc h).2]
    exact ⟨fun _ => (call t pc h).1, fun _ => rfl⟩
  · rw [show Sys.lockStatus (Chronicle.init (Sys.init (P := P) connector publisher
      maxConsecutiveFailures clients)).sys = fun _ => .idle from funext idle]
    exact AsyncLock.coherent_free
  · intro t b h
    unfold Sys.waitsFor at h
    obtain ⟨pc, hpc, hw⟩ := Option.bind_eq_some_iff.1 h
    rw [(call t pc hpc).2] at hw
    cases hw

/-! ## When there is one consumer -/

theorem Settled.alive {s s' : Sys P Q} {t u : TaskId} {r : IngestionService P Q × Act P Q}
    (hs : Settled s s' t r) (ht : s.outcome t = none) (hu : s'.outcome u = none) :
    s.outcome u = none := by
  by_cases hut : u = t
  · rw [hut]
    exact ht
  · rw [← (hs.others u hut).2]
    exact hu

/-- No `stop()` has more than one flush and one disconnection, and every one has its `start()`. -/
theorem Sound.counts {c : Chronicle P Q} (h : Sound c) (ht : c.sys.Tallied) :
    (c.sys.service.history.filterMap Event.flushOf).length ≤ c.sys.starts ∧
      (c.sys.service.history.filterMap Event.disconnectOf).length ≤ c.sys.starts := by
  have hs : c.sys.service.stops ≤ c.sys.starts := (Nat.le_add_right _ _).trans h.stops
  exact ⟨ht.flush.length_le.trans hs, ht.disconnect.length_le.trans hs⟩

section

variable {c c' : Chronicle P Q} {t : TaskId} {first completes : Bool} {handler : Prop}
variable {r : IngestionService P Q × Act P Q}

/-- The unfinished tasks after a segment: those of before, and the new one. -/
theorem Segment.consuming (hg : Segment c c' t first completes handler r) (h : Sound c)
    {b : TaskId} (hb : c'.sys.Consuming b) :
    c.sys.Consuming b ∨ completes = true ∧ b = c.sys.service.nextTask := by
  rcases (hg.consumer_iff h).1 hb.1 with hc | hc
  · exact .inl ⟨hc, hg.settled.alive hg.unfinished hb.2⟩
  · exact .inr hc

/-- The end of a `start()` leaves the tasks of before, and a new one. -/
theorem Segment.both (hg : Segment c c' t first completes handler r) (h : Sound c)
    (hc : completes = true) {b : TaskId} (hb : c.sys.Consuming b) :
    c'.sys.Consuming b ∧ c'.sys.Consuming c.sys.service.nextTask ∧
      b ≠ c.sys.service.nextTask := by
  have ht := hg.client hc
  have hn := h.unborn.clients
  have alive : ∀ {u}, c.sys.clients ≤ u → c.sys.outcome u = none → c'.sys.outcome u = none :=
    fun {u} hu ho => ((hg.settled.others u (Nat.ne_of_gt (Nat.lt_of_lt_of_le ht hu))).2).trans ho
  exact ⟨⟨(hg.consumer_iff h).2 (.inl hb.1), alive hb.1.1 hb.2⟩,
    ⟨(hg.consumer_iff h).2 (.inr ⟨hc, rfl⟩), alive hn (h.unborn.unborn _ le_rfl).2⟩,
    Nat.ne_of_lt hb.1.2⟩

/-- Whom a segment cancels, while there is one consumer: one that is older than the call, or one
that it finds in the handler. -/
theorem Segment.cancelled (hg : Segment c c' t first completes handler r) (h : Sound c)
    (hone : ∀ b b', c.sys.Consuming b → c.sys.Consuming b' → b = b') {x : Nat × TaskId}
    (hx : x ∈ c'.cancels) : x ∈ c.cancels ∨ x.1 = c'.began t ∧ c.sys.Consumer x.2 ∧
      (c.born x.2 < c'.began t ∨
        handler ∧ c.sys.service.backgroundTask = some x.2 ∧ c.sys.outcome x.2 = none) := by
  obtain ⟨us, hus, hcon, -⟩ := hg.cancels
  rw [hus] at hx
  rcases List.mem_append.1 hx with hx | hx
  · exact .inl hx
  · obtain ⟨u, hu, rfl⟩ := List.mem_map.1 hx
    obtain ⟨hu, b, hb⟩ := hcon u hu
    obtain ⟨ho, hw | ⟨hh, hbt⟩⟩ := hg.acts.cancels b hb
    · obtain ⟨hbc, hborn⟩ := h.waits t b hw
      cases hone u b hu ⟨hbc, ho⟩
      exact .inr ⟨rfl, hu.1, .inl (hborn.trans_le (hg.self_le h))⟩
    · cases hone u b hu ⟨h.background b hbt, ho⟩
      exact .inr ⟨rfl, hu.1, .inr ⟨hh, hbt, ho⟩⟩

/-- **A segment keeps to one consumer** iff it is careful. -/
theorem Segment.keeps_iff_careful {l : Label P} (hg : Segment c c' t first completes handler r)
    (hk : Segment.Checks c l t completes handler r) (h : Sound c) (hp : c.OneConsumer)
    (h' : Sound c') (ht' : c'.sys.Tallied) : c'.OneConsumer ↔ c.Careful l := by
  rw [hk.careful]
  constructor
  · intro hp'
    refine ⟨?_, ?_⟩
    · intro hc b hb
      obtain ⟨h₁, h₂, hne⟩ := hg.both h hc hb
      exact hne (hp'.one _ _ h₁ h₂)
    · intro hh b hb ho hlt
      obtain ⟨us, hus, -, hall⟩ := hg.cancels
      have hcon := h.background b hb
      have hmem : (c'.began t, b) ∈ c'.cancels := by
        rw [hus]
        exact List.mem_append_right _
          (List.mem_map.2 ⟨b, hall b (hk.handles hh b hb ho) hcon, rfl⟩)
      have hself : c'.began t = c.began t := by rw [hg.self, hg.later hh]; rfl
      apply hp'.earlier _ hmem
      rw [hself, hg.born_of_consumer hcon]
      exact hlt
  · rintro ⟨hfree, hbefore⟩
    obtain ⟨hf, hd⟩ := h'.counts ht'
    refine ⟨?_, ?_, hf, hd⟩
    · intro b b' hb hb'
      rcases hg.consuming h hb with hb | ⟨hc, rfl⟩
      · rcases hg.consuming h hb' with hb' | ⟨hc, -⟩
        · exact hp.one b b' hb hb'
        · exact absurd hb (hfree hc b)
      · rcases hg.consuming h hb' with hb' | ⟨-, rfl⟩
        · exact absurd hb' (hfree hc b')
        · rfl
    · intro x hx hlt
      rcases hg.cancelled h hp.one hx with hx | ⟨hx₁, hcon, hold | ⟨hh, hb, ho⟩⟩
      · rw [hg.born_of_consumer (h.recorded x hx)] at hlt
        exact hp.earlier x hx hlt
      · rw [hx₁, hg.born_of_consumer hcon] at hlt
        exact Nat.lt_asymm hold hlt
      · have hself : c'.began t = c.began t := by rw [hg.self, hg.later hh]; rfl
        rw [hx₁, hg.born_of_consumer hcon, hself] at hlt
        exact hbefore hh x.2 hb ho hlt

end

theorem Quiet.oneConsumer {c c' : Chronicle P Q} (hq : Quiet c c') (hp : c.OneConsumer) :
    c'.OneConsumer := by
  have alive : ∀ {b}, c'.sys.Consuming b → c.sys.Consuming b := by
    rintro b ⟨⟨h₁, h₂⟩, ho⟩
    rw [hq.clients] at h₁
    rw [hq.service] at h₂
    refine ⟨⟨h₁, h₂⟩, ?_⟩
    rcases hq.outcome b with hb | hb
    · exact hb.symm.trans ho
    · exact absurd hb (Nat.not_lt.2 h₁)
  refine ⟨fun b b' hb hb' => hp.one b b' (alive hb) (alive hb'), ?_, ?_, ?_⟩
  · rw [hq.cancels, hq.born]
    exact hp.earlier
  · unfold Sys.starts
    rw [hq.service, hq.clients]
    exact hp.flush
  · unfold Sys.starts
    rw [hq.service, hq.clients]
    exact hp.disconnect

/-- **One consumer.**  A run of any number of clients that call `start()` and `stop()`, over any
connector and any publisher, with cancellations at any time, keeps to one consumer iff no
`start()` completes while a consumption task is unfinished, and no `stop()` handles a timeout
while the task of a later `start()` is the background task and unfinished. -/
theorem oneConsumer_iff (connector : P.State) (publisher : Q.State)
    (maxConsecutiveFailures clients : Nat) {ls : List (Label P)} {c : Chronicle P Q}
    (hl : ∀ l ∈ ls, l.StartsOrStops)
    (hr : run Chronicle.step
      (.init (Sys.init connector publisher maxConsecutiveFailures clients)) ls = some c) :
    Always Chronicle.step Chronicle.OneConsumer
        (.init (Sys.init connector publisher maxConsecutiveFailures clients)) ls ↔
      Guarded Chronicle.step Chronicle.Careful
        (.init (Sys.init connector publisher maxConsecutiveFailures clients)) ls := by
  refine always_iff_guarded (I := fun c => Sound c ∧ c.sys.Tallied)
    (H := fun _ l => l.StartsOrStops) ?_ ?_ ⟨sound_init connector publisher _ _,
      tallied_init connector publisher _ _⟩ ?_ (Guarded.of_mem hl) hr
  · rintro c l c' ⟨h, ht⟩ hl - hs
    exact ⟨h.step hl hs, ht.step (Chronicle.step_some hs).1⟩
  · rintro c l c' ⟨h, ht⟩ hl hp hs
    have ht' := ht.step (Chronicle.step_some hs).1
    rcases step_segment h hl hs with ⟨t, first, completes, handler, r, hg, hk⟩ | ⟨hq, hc⟩
    · exact hg.keeps_iff_careful hk h hp (h.step hl hs) ht'
    · exact ⟨fun _ => hc, fun _ => hq.oneConsumer hp⟩
  · refine ⟨fun b _ hb => ?_, fun _ hx => (by cases hx), Nat.zero_le _, Nat.zero_le _⟩
    exact absurd hb.1.1 (Nat.not_le.2 hb.1.2)

/-! ## Two consumers -/

/-- A connector whose `connect()` and `disconnect()` return at once, as in the tests of the
service, and whose streams give any messages. -/
abbrev steadyConnector : ConnectorPort asciiTable where
  State := Unit
  ConnectPc := Empty
  DisconnectPc := Empty
  StreamPc := Unit
  Input := MarketDataMessage
  config _ := none
  connect _ c _ := (c, .returned)
  resumeConnect _ _ _ pc _ := nomatch pc
  disconnect c _ := (c, .returned)
  resumeDisconnect _ _ pc _ := nomatch pc
  stream _ c _ := (c, .suspend ())
  resumeStream _ c _ _ w := some (c, match w with
    | .input m => .batch m []
    | .done => .finish .returned
    | .raised e => .finish (.raised e)
    | .cancelled => .finish .cancelled)
  connectAwaits _ := none
  streamAwaits _ := none

/-- A new service with two clients. -/
def steadyService : Chronicle steadyConnector (Kafka.publisher Kafka.acceptingProducer) :=
  .init (Sys.init () Kafka.Adapter.init 10 2)

/-- While the client 1 waits for the task 2 in `stop()`, the client 0 starts the service again. -/
def startedTwice : List (Label steadyConnector) :=
  [.call 0 .start, .resume 2 (.wake .done), .call 1 .stop, .call 0 .start, .resume 3 (.wake .done)]

/-- The time of that `stop()` is over, and it finds the task 3. -/
def stoppedLate : List (Label steadyConnector) :=
  startedTwice ++ [.resume 1 .timeout, .resume 2 (.wake .cancelled), .resume 1 (.wake .done)]

theorem run_startedTwice : (run Chronicle.step steadyService startedTwice).map (fun c =>
    (c.sys.service.nextTask, c.sys.outcome 2, c.sys.outcome 3)) = some (4, none, none) := rfl

theorem run_stoppedLate : (run Chronicle.step steadyService stoppedLate).map (fun c =>
    (c.cancels, c.born 2, c.born 3)) = some ([(3, 2), (3, 2), (3, 3), (3, 3)], 1, 4) := rfl

/-- **Two consumers, and the wrong one is cancelled**: in a run of calls of `start()` and `stop()`
only, the tasks 2 and 3 are unfinished at once, and then the `stop()` that began at 3 cancels the
task of the `start()` that began at 4. -/
theorem startedTwice_notOne :
    (∀ l ∈ stoppedLate, l.StartsOrStops) ∧
      (∃ c, run Chronicle.step steadyService startedTwice = some c ∧
        c.sys.Consuming 2 ∧ c.sys.Consuming 3) ∧
      ∃ c, run Chronicle.step steadyService stoppedLate = some c ∧
        ∃ x ∈ c.cancels, x.1 < c.born x.2 := by
  refine ⟨by simp [stoppedLate, startedTwice, Label.StartsOrStops], ?_, ?_⟩
  · obtain ⟨c, hc, he⟩ := Option.map_eq_some_iff.1 run_startedTwice
    simp only [Prod.mk.injEq] at he
    have hcl : c.sys.clients = 2 := by
      have h : (run Chronicle.step steadyService startedTwice).map (fun c => c.sys.clients) =
        some 2 := rfl
      rw [hc] at h
      exact Option.some.inj h
    refine ⟨c, hc, ⟨⟨hcl.le, ?_⟩, he.2.1⟩, ⟨?_, ?_⟩, he.2.2⟩
    all_goals first | rw [hcl] | rw [he.1]
    all_goals decide
  · obtain ⟨c, hc, he⟩ := Option.map_eq_some_iff.1 run_stoppedLate
    simp only [Prod.mk.injEq] at he
    refine ⟨c, hc, (3, 3), ?_, ?_⟩
    · rw [he.1]
      exact List.mem_append_right [(3, 2), (3, 2)] List.mem_cons_self
    · rw [he.2.2]
      decide

/-- The service is started again after a `stop()`. -/
def startedAgain : List (Label steadyConnector) :=
  [.call 0 .start, .resume 2 (.wake .done), .call 1 .stop, .resume 2 (.wake .done),
    .resume 1 (.wake .done), .call 0 .start]

theorem run_startedAgain :
    (run Chronicle.step steadyService startedAgain).isSome = true := rfl

/-- `oneConsumer_iff` at that run. -/
theorem oneConsumer_iff_startedAgain :
    Always Chronicle.step Chronicle.OneConsumer steadyService startedAgain ↔
      Guarded Chronicle.step Chronicle.Careful steadyService startedAgain := by
  have hl : ∀ l ∈ startedAgain, l.StartsOrStops := by
    simp [startedAgain, Label.StartsOrStops]
  obtain ⟨c, hc⟩ := Option.isSome_iff_exists.1 run_startedAgain
  exact @oneConsumer_iff _ steadyConnector (Kafka.publisher Kafka.acceptingProducer) ()
    Kafka.Adapter.init 10 2 startedAgain c hl hc

end FlinkPractices.Service
