import FlinkPractices.Service.LoopRuns
import FlinkPractices.Service.Segments

/-!
# What `get_status()` reports

Any number of clients and consumption tasks share the two counters, and no `start()` resets them.
In every run they are what the publisher has answered so far (`StatusAgrees`); and as long as a loop
goes on after a rejection the limit has not been reached, so that the rejections in a row are fewer
than the limit and the loops that were ended by one together.

Principal result: `status_of_run`, for a limit of at least one.

## Proof

* `endTurn_agrees` — a result of `publish()` is counted as it should be: a success, or a rejection;
  neither a cancellation nor any other exception is counted (`counted`)
* `endTurn_bound` — the loop goes on below the limit, or is ended by the rejection
* `Loop.Reports` — both along the steps of a loop, from whatever the counters were before; a segment
  of the loop is such a run (`segment_reports`, by `Service.LoopRuns`)
* `Sys.EndedBy` — the tasks that account for what is beyond the limit: they are distinct, and a
  rejection has ended each of them
* `Sys.Status.step` — one step; tasks outside the loop touch neither counter

The bound is met: `status_rejectedTwice` has the limit 1 and two failures in a row, after a restart.
-/

set_option autoImplicit false

namespace FlinkPractices.Service

open Lib
open Connector (TaskId)

variable {U : UpperTable} {P : ConnectorPort U} {Q : PublisherPort}

/-- A success, or a rejection; neither a cancellation nor any other exception is counted. -/
def counted : Outcome → Bool
  | .returned => true
  | .raised e => e.isPublishException
  | .cancelled => false

/-- The counters after the results `os`. -/
def Agrees (s : IngestionService P Q) (os : List Outcome) : Prop :=
  s.getStatus.2.1 = os.count .returned ∧ s.getStatus.2.2 = rejectionsSince (os.filter counted)

/-- The counters are those of the record. -/
def StatusAgrees (s : IngestionService P (recording Q)) : Prop := Agrees s s.record.outcomes

/-- Ended by a rejection. -/
def Rejected (o : Outcome) : Prop := ∃ message, o = .raised (.publishException message)

/-- The counters, and how far they may go: `m` is the limit, and `f` the rejections in a row when
the segment began. -/
structure Loop.Reports (m f : Nat) (x : Loop P (recording Q)) : Prop where
  reported : StatusAgrees x.service
  limit : x.service.maxConsecutiveFailures = m
  bound : x.service.consecutiveFailures < m ∨ x.service.consecutiveFailures ≤ f ∨
    x.service.consecutiveFailures ≤ max (f + 1) m ∧ ∃ o, x.place = .ended o ∧ Rejected o

/-- The tasks that no client runs. -/
def Sys.Apart (s : Sys P Q) : Prop :=
  ∀ t, t < s.clients → ∀ pc, (s.tasks t).call = some pc → pc.inLoop = false

/-- The tasks `bs` account for what is beyond the limit. -/
structure Sys.EndedBy (s : Sys P Q) (bs : List TaskId) : Prop where
  nodup : bs.Nodup
  ended : ∀ b ∈ bs, s.clients ≤ b ∧ ∃ o, s.outcome b = some o ∧ Rejected o

/-! ## One result -/

theorem agrees_uncounted {s : IngestionService P Q} {os : List Outcome} {o : Outcome}
    (h : Agrees s os) (ho : counted o = false) : Agrees s (os ++ [o]) := by
  have hne : o ≠ .returned := by
    rintro rfl
    cases ho
  refine ⟨h.1.trans ?_, h.2.trans ?_⟩
  · rw [List.count_append, List.count_singleton]
    simp [hne]
  · rw [List.filter_append]
    simp [ho]

/-- **A result is counted.** -/
theorem endTurn_agrees {s : IngestionService P Q} {os : List Outcome} (h : Agrees s os)
    (o : Outcome) : Agrees (endTurn s o).1 (os ++ [o]) := by
  cases o with
  | returned =>
    refine ⟨?_, ?_⟩
    · show s.processedCount + 1 = _
      rw [show s.processedCount = os.count .returned from h.1]
      simp
    · show 0 = _
      rw [List.filter_append, show [Outcome.returned].filter counted = [.returned] from rfl,
        rejectionsSince_returned]
  | raised e =>
    cases he : e.isPublishException with
    | false =>
      have hs : (endTurn s (.raised e)).1 = s := by simp [endTurn, countPublish, he]
      rw [hs]
      exact agrees_uncounted h he
    | true =>
      have hs : (endTurn s (.raised e)).1 =
          { s with consecutiveFailures := s.consecutiveFailures + 1 } := by
        by_cases hm : s.maxConsecutiveFailures ≤ s.consecutiveFailures + 1 <;>
          simp [endTurn, countPublish, he, hm]
      rw [hs]
      refine ⟨?_, ?_⟩
      · show s.processedCount = _
        rw [show s.processedCount = os.count .returned from h.1]
        simp
      · show s.consecutiveFailures + 1 = _
        rw [List.filter_append, show [Outcome.raised e].filter counted = [.raised e] by
          simp [counted, he], rejectionsSince_raised]
        exact congrArg (· + 1) h.2
  | cancelled => exact agrees_uncounted h rfl

/-- The loop goes on below the limit, or is ended by the rejection. -/
theorem endTurn_bound {s : IngestionService P Q} {m f : Nat} (hm : s.maxConsecutiveFailures = m)
    (h : s.consecutiveFailures < m ∨ s.consecutiveFailures ≤ f) (o : Outcome) :
    (endTurn s o).1.consecutiveFailures < m ∨ (endTurn s o).1.consecutiveFailures ≤ f ∨
      (endTurn s o).1.consecutiveFailures ≤ max (f + 1) m ∧
        ∃ o', (endTurn s o).2.place = .ended o' ∧ Rejected o' := by
  cases o with
  | returned => exact .inr (.inl (Nat.zero_le f))
  | cancelled =>
    rcases h with h | h
    · exact .inl h
    · exact .inr (.inl h)
  | raised e =>
    cases he : e.isPublishException with
    | false =>
      have hs : (endTurn s (.raised e)).1 = s := by simp [endTurn, countPublish, he]
      rw [hs]
      rcases h with h | h
      · exact .inl h
      · exact .inr (.inl h)
    | true =>
      obtain ⟨message, rfl⟩ : ∃ message, e = .publishException message := by
        cases e with
        | publishException message => exact ⟨message, rfl⟩
        | _ => cases he
      rw [InProgress.endTurn_rejected]
      dsimp only
      by_cases hlim : s.maxConsecutiveFailures ≤ s.consecutiveFailures + 1
      · rw [if_pos hlim]
        refine .inr (.inr ⟨?_, _, rfl, message, rfl⟩)
        omega
      · left
        omega

/-! ## The loop -/

variable {b : TaskId} {m f : Nat}

/-- A call of `publish()` is over. -/
theorem Loop.Reports.ended {s v : IngestionService P (recording Q)}
    {place : LoopPlace (recording Q)} (h : Loop.Reports m f ⟨s, place⟩)
    (hp : ∀ o, place ≠ .ended o) (o : Outcome)
    (hs : v.processedCount = s.processedCount ∧ v.consecutiveFailures = s.consecutiveFailures ∧
      v.maxConsecutiveFailures = s.maxConsecutiveFailures)
    (ho : v.record.outcomes = s.record.outcomes ++ [o]) :
    Loop.Reports m f ⟨(endTurn v o).1, (endTurn v o).2.place⟩ where
  reported := by
    have hv : Agrees v s.record.outcomes := ⟨hs.1.trans h.reported.1, hs.2.1.trans h.reported.2⟩
    show Agrees (endTurn v o).1 (endTurn v o).1.record.outcomes
    rw [show (endTurn v o).1.record = v.record from congrArg Prod.snd (endTurn_rest v o).2, ho]
    exact endTurn_agrees hv o
  limit := (endTurn_rest v o).1.trans (hs.2.2.trans h.limit)
  bound := by
    refine endTurn_bound (hs.2.2.trans h.limit) ?_ o
    rw [hs.2.1]
    rcases h.bound with hb | hb | ⟨-, o', ho', -⟩
    · exact .inl hb
    · exact .inr hb
    · exact absurd ho' (hp o')

/-- The counters and the record stay. -/
theorem Loop.Reports.keep {s v : IngestionService P (recording Q)}
    {place place' : LoopPlace (recording Q)} (h : Loop.Reports m f ⟨s, place⟩)
    (hu : Untouched s v) (hp : (∀ o, place ≠ .ended o) ∨ place' = place) :
    Loop.Reports m f ⟨v, place'⟩ where
  reported := by
    show Agrees v v.record.outcomes
    rw [hu.record]
    exact ⟨hu.processedCount.trans h.reported.1, hu.consecutiveFailures.trans h.reported.2⟩
  limit := hu.maxConsecutiveFailures.trans h.limit
  bound := by
    show v.consecutiveFailures < m ∨ v.consecutiveFailures ≤ f ∨ v.consecutiveFailures ≤ _ ∧ _
    rw [hu.consecutiveFailures]
    rcases h.bound with hb | hb | ⟨hb, o, ho, hr⟩
    · exact .inl hb
    · exact .inr (.inl hb)
    · rcases hp with hp | hp
      · exact absurd ho (hp o)
      · exact .inr (.inr ⟨hb, o, hp.trans ho, hr⟩)

/-- The body of the loop. -/
theorem Loop.Reports.turn {s : IngestionService P (recording Q)}
    (h : Loop.Reports m f (⟨s, .asks⟩ : Loop P (recording Q))) (a : MarketDataMessage) :
    Loop.Reports m f ⟨(turn b s a).1, (turn b s a).2.place⟩ := by
  have hasks : ∀ o, (LoopPlace.asks : LoopPlace (recording Q)) ≠ .ended o := fun o ho => by cases ho
  have hself : Untouched s s := ⟨rfl, rfl, rfl, rfl⟩
  unfold Service.turn
  split
  · split
    · exact h.keep hself (.inl hasks)
    · exact h.keep hself (.inl hasks)
    · split
      · exact h.keep hself (.inl hasks)
      · rename_i proto _
        simp only [recording]
        -- a call that is over at once has its result in the record
        rcases Q.publish s.publisher.1 (getTopicForMessage a) (keyForMessage U a) proto with
          ⟨q, pc | _ | e⟩
        · refine ⟨h.reported, h.limit, h.bound.imp_right fun hb => ?_⟩
          rcases hb with hb | ⟨_, o, ho, _⟩
          · exact .inl hb
          · exact absurd ho (hasks o)
        · exact h.ended hasks .returned ⟨rfl, rfl, rfl⟩ rfl
        · exact h.ended hasks (.raised e) ⟨rfl, rfl, rfl⟩ rfl
  · exact h.keep hself (.inl hasks)

/-- **A step of the loop.** -/
theorem Loop.Reports.step {running : Bool} {x x' : Loop P (recording Q)}
    {l : LoopLabel P (recording Q)} (h : x.Reports m f) (hl : Passive running x l)
    (hs : x.step b l = some x') : x'.Reports m f := by
  obtain ⟨s, place⟩ := x
  cases l with
  | yields a =>
    cases place with
    | asks => cases hs; exact h.turn a
    | publishing | ended => cases hs
  | wakes w =>
    cases place with
    | asks | ended => cases hs
    | publishing pc =>
      have hpub : ∀ o, LoopPlace.publishing (Q := recording Q) pc ≠ .ended o :=
        fun o ho => by cases ho
      simp only [Loop.step, recording] at hs
      rcases hq : Q.resumePublish s.publisher.1 pc w with _ | ⟨q, pc' | o⟩
      all_goals rw [hq] at hs; cases hs
      · exact h.keep ⟨rfl, rfl, rfl, rfl⟩ (.inl hpub)
      · exact h.ended hpub o ⟨rfl, rfl, rfl⟩ rfl
  | others v =>
    cases hs
    exact h.keep hl (.inr rfl)

/-- **A segment of the loop.** -/
theorem segment_reports {outcome : TaskId → Option Outcome} {s : IngestionService P (recording Q)}
    {pc : Pc P (recording Q)} {w : Resume P} {place : LoopPlace (recording Q)}
    {r : IngestionService P (recording Q) × Act P (recording Q)} (hp : pc.loopPlace = some place)
    (hr : advance outcome s b pc w = some r) (h : StatusAgrees s)
    (hm : s.maxConsecutiveFailures = m) :
    StatusAgrees r.1 ∧ r.1.maxConsecutiveFailures = m ∧
      (r.1.consecutiveFailures < m ∨ r.1.consecutiveFailures ≤ s.consecutiveFailures ∨
        r.1.consecutiveFailures ≤ max (s.consecutiveFailures + 1) m ∧
          ∃ o, r.2 = .finish o ∧ Rejected o) := by
  obtain ⟨ls, x', hrun, hg, hx⟩ := segment_loop hp hr
  have hrep : x'.Reports m s.consecutiveFailures :=
    run_guarded_invariant (fun _ _ _ h hl hs => h.step hl hs)
      ⟨h, hm, .inr (.inl (Nat.le_refl _))⟩ hg hrun
  rw [← hx.1]
  refine ⟨hrep.reported, hrep.limit, ?_⟩
  rcases hrep.bound with hb | hb | ⟨hb, o, ho, hrej⟩
  · exact .inl hb
  · exact .inr (.inl hb)
  · refine .inr (.inr ⟨hb, o, ?_, hrej⟩)
    -- only a loop that is over ends so
    obtain ⟨v, a⟩ := r
    have hleft := hx.2
    rw [ho] at hleft
    cases a with
    | suspend pc' => cases pc' <;> first | cases hleft.1 | exact hleft.elim
    | cancelling => exact hleft.elim
    | finish o' =>
      rcases hleft with ⟨hasks, -⟩ | ⟨hended, -⟩
      · cases hasks
      · cases hended
        rfl

/-! ## The whole service -/

theorem Pc.loopPlace_isSome (pc : Pc P Q) : pc.loopPlace.isSome = pc.inLoop := by
  cases pc <;> rfl

theorem Sys.apart_init {c : P.State} {q : Q.State} {maxConsecutiveFailures clients : Nat} :
    (Sys.init (P := P) (Q := Q) c q maxConsecutiveFailures clients).Apart := by
  intro t ht pc hpc
  simp only [Sys.init, if_pos (show t < clients from ht)] at hpc
  cases hpc

/-- No client enters the loop. -/
theorem Sys.Apart.step {s s' : Sys P Q} {l : Label P} (h : s.Apart)
    (hs : Service.step s l = some s') : s'.Apart := by
  intro u hu pc hpc
  cases step_effect hs with
  | @first t op _ ht _ _ hset =>
    rw [hset.clients] at hu
    by_cases hut : u = t
    · subst hut
      rw [hset.call] at hpc
      exact call_outside pc hpc
    · rw [(hset.others u hut).1] at hpc
      exact h u hu pc hpc
  | @later t pc₀ w r _ _ _ hc _ hr hset =>
    rw [hset.clients] at hu
    by_cases hut : u = t
    · subst hut
      rw [hset.call] at hpc
      exact (segment_inLoop_eq hr hpc).trans (h u hu pc₀ hc)
    · rw [(hset.others u hut).1] at hpc
      exact h u hu pc hpc
  | quiet _ _ hclients hcall _ =>
    rw [hclients] at hu
    rw [hcall] at hpc
    exact h u hu pc hpc

/-- The invariant of all runs: the rejections in a row, and the loops that one has ended. -/
structure Sys.Status (m : Nat) (s : Sys P (recording Q)) (bs : List TaskId) : Prop where
  apart : s.Apart
  reported : StatusAgrees s.service
  limit : s.service.maxConsecutiveFailures = m
  endedBy : s.EndedBy bs
  bound : s.service.consecutiveFailures < m + bs.length

theorem Sys.EndedBy.mono {s s' : Sys P Q} {bs : List TaskId} (h : s.EndedBy bs)
    (hc : s'.clients = s.clients)
    (ho : ∀ b o, s.clients ≤ b → s.outcome b = some o → s'.outcome b = some o) : s'.EndedBy bs :=
  ⟨h.nodup, fun b hb => by
    obtain ⟨hle, o, hbo, hr⟩ := h.ended b hb
    exact ⟨hc.trans_le hle, o, ho b o hle hbo, hr⟩⟩

/-- Other tasks touch neither counter. -/
theorem Sys.Status.others {s s' : Sys P (recording Q)} {bs : List TaskId} {t : TaskId}
    {r : IngestionService P (recording Q) × Act P (recording Q)} (h : s.Status m bs)
    (ha : s'.Apart) (ht : s.outcome t = none) (hset : Settled s s' t r)
    (hu : Untouched s.service r.1) : s'.Status m bs := by
  rw [← hset.service] at hu
  refine ⟨ha, ?_, hu.maxConsecutiveFailures.trans h.limit,
    h.endedBy.mono hset.clients fun b o _ hb => hset.done ht hb, ?_⟩
  · show Agrees s'.service s'.service.record.outcomes
    rw [hu.record]
    exact ⟨hu.processedCount.trans h.reported.1, hu.consecutiveFailures.trans h.reported.2⟩
  · rw [hu.consecutiveFailures]
    exact h.bound

/-- **One step.** -/
theorem Sys.Status.step {s s' : Sys P (recording Q)} {l : Label P} {bs : List TaskId}
    (h : s.Status m bs) (hs : Service.step s l = some s') : ∃ bs', s'.Status m bs' := by
  have ha := h.apart.step hs
  cases step_effect hs with
  | @first t op _ _ ho _ hset => exact ⟨bs, h.others ha ho hset (call_untouched op)⟩
  | @later t pc w r _ _ ho hc _ hr hset =>
    cases hin : pc.inLoop with
    | false => exact ⟨bs, h.others ha ho hset (segment_untouched hin hr)⟩
    | true =>
      obtain ⟨place, hp⟩ := Option.isSome_iff_exists.1 (pc.loopPlace_isSome.trans hin)
      obtain ⟨hrep, hlim, hb⟩ := segment_reports hp hr h.reported h.limit
      have hended := h.endedBy.mono hset.clients fun b o _ hb => hset.done ho hb
      rw [← hset.service] at hrep hlim hb
      have hbound := h.bound
      rcases hb with hb | hb | ⟨hb, o, hro, hrej⟩
      · exact ⟨bs, ha, hrep, hlim, hended, by omega⟩
      · exact ⟨bs, ha, hrep, hlim, hended, by omega⟩
      · -- this loop accounts for one rejection more
        have hle : s.clients ≤ t := by
          by_contra hlt
          have hout := h.apart t (by omega) pc hc
          rw [hin] at hout
          cases hout
        have hto : s'.outcome t = some o := by
          rw [hset.outcome, hro]
          exact if_neg (Nat.not_lt.2 hle)
        have hfresh : t ∉ bs := by
          intro hmem
          obtain ⟨-, o', ho', -⟩ := h.endedBy.ended t hmem
          cases ho.symm.trans ho'
        refine ⟨t :: bs, ha, hrep, hlim, ⟨List.nodup_cons.2 ⟨hfresh, hended.nodup⟩, ?_⟩, ?_⟩
        · intro b hmem
          rcases List.mem_cons.1 hmem with rfl | hmem
          · exact ⟨hset.clients.trans_le hle, o, hto, hrej⟩
          · exact hended.ended b hmem
        · rw [List.length_cons]
          omega
  | quiet _ hservice hclients _ houtcome =>
    refine ⟨bs, ha, hservice ▸ h.reported, hservice ▸ h.limit,
      h.endedBy.mono hclients fun b o hle hb => ?_, hservice ▸ h.bound⟩
    rcases houtcome b with he | ⟨hlt, -⟩
    · exact he.trans hb
    · exact absurd hlt (Nat.not_lt.2 hle)

theorem Sys.status_init {c : P.State} {q : Q.State} {clients : Nat} (hm : 1 ≤ m) :
    (Sys.init (P := P) (Q := recording Q) c (q, Record.empty) m clients).Status m [] where
  apart := Sys.apart_init
  reported := ⟨rfl, rfl⟩
  limit := rfl
  endedBy := ⟨List.nodup_nil, fun b hb => by cases hb⟩
  bound := hm

/-- **What `get_status()` reports**: in every run of any number of clients and consumption tasks,
with whatever cancellations, the processed messages are the calls of `publish()` that have
returned, and the failures in a row the rejections since the last of them, over all loops and all
starts; and they are fewer than the limit and the loops ended by a rejection together. -/
theorem status_of_run {c : P.State} {q : Q.State} {clients : Nat} {ls : List (Label P)}
    {s : Sys P (recording Q)} (hm : 1 ≤ m)
    (h : run step (Sys.init c (q, Record.empty) m clients) ls = some s) :
    StatusAgrees s.service ∧
      ∃ bs, s.EndedBy bs ∧ s.service.consecutiveFailures < m + bs.length := by
  obtain ⟨bs, hs⟩ := run_invariant (P := fun s : Sys P (recording Q) => ∃ bs, s.Status m bs)
    (fun _ _ _ ⟨_, hi⟩ hs => hi.step hs) ⟨[], Sys.status_init hm⟩ h
  exact ⟨hs.reported, bs, hs.endedBy, hs.bound⟩

/-- With the limit 1 and a producer that accepts one record: a loop is ended by its second message,
and after a restart the next loop by its first. -/
def rejectedTwice : List (Label mockConnector) :=
  [.call 0 .start, .resume 2 (.wake .done), .resume 2 (.wake (.input (tradeMessage "KRW-BTC" []))),
    .resume 2 (.wake (.input (tradeMessage "KRW-BTC" []))), .call 1 .stop, .call 0 .start,
    .resume 3 (.wake .done), .resume 3 (.wake (.input (tradeMessage "KRW-BTC" [])))]

theorem rejectedTwice_isSome : (run step
    (Sys.init (Q := recording (Kafka.publisher oneRecordProducer)) ()
      (Kafka.Adapter.init, Record.empty) 1 2) rejectedTwice).isSome = true := rfl

def rejectedTwiceEnd : Sys mockConnector (recording (Kafka.publisher oneRecordProducer)) :=
  Option.get _ rejectedTwice_isSome

/-- `status_of_run` of that run: one message is processed, and there are two failures in a row. -/
theorem status_rejectedTwice : rejectedTwiceEnd.service.getStatus.2 = (1, 2) ∧
    StatusAgrees rejectedTwiceEnd.service ∧ ∃ bs, rejectedTwiceEnd.EndedBy bs ∧
      rejectedTwiceEnd.service.consecutiveFailures < 1 + bs.length :=
  ⟨rfl, status_of_run (Nat.le_refl 1) (Option.some_get rejectedTwice_isSome).symm⟩

end FlinkPractices.Service
