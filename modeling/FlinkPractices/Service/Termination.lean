import FlinkPractices.Service.Progress

/-!
# `stop()` comes to an end

A `stop()` waits for the lock, for the consumption task and, in `disconnect()`, for the lock of the
connector and for the socket.  It passes each of these places at most once, whatever the other tasks
do: `Pc.stopRank` counts the places that are still to come, and every segment of the call lowers it.

Principal results:

* `run_callCountdown` — for any call whose segments lower a rank: it is not resumed more often than
  the rank goes down, as long as it has not ended (`Lib.run_countdown`, for the call of one task)
* `stopEnds_of_run` — a `stop()` is resumed at most five times without ending

## Proof

* `Node.stopRank` — the rank of a place of `stop()`: what is suspended from here on can be resumed
  so often
* `Arc.stopRank_le` — no arc of a `stop()` goes up, and none leads back to where it waits
* `segment_below` — so every segment of a `stop()` ends it or goes down; in `disconnect()` the
  socket comes after the lock (`disconnect_rank`)

That a place is left at all (that somebody releases the lock, that the loop handles its
cancellation, that the socket answers) is not said here: `Service.Progress` is about who can go on.
-/

set_option autoImplicit false

namespace FlinkPractices.Service

open Lib
open Connector (TaskId Conn Subclass Point)

variable {U : UpperTable} {S : Subclass} {cfg : ExchangeConfig U}
variable {message : S.Msg → MarketDataMessage} {K : Kafka.Producer}

/-- How often a suspended `disconnect()` can be resumed without ending. -/
def disconnectRank : Connector.Pc S → Nat
  | .disconnectLock => 1
  | _ => 0

/-- How often a suspended `stop()` can be resumed without ending. -/
def Pc.stopRank : Pc (webSocket S cfg message) (Kafka.publisher K) → Option Nat
  | .stopLock _ => some 5
  | .waiting _ _ _ => some 4
  | .timedOut _ _ _ => some 3
  | .aborting _ _ _ => some 3
  | .awaiting _ _ _ => some 2
  | .disconnecting _ _ pc => some (disconnectRank (S := S) pc)
  | _ => none

/-- A segment of a `stop()` ends it, or leaves it below the rank `i`. -/
def Act.Below (i : Nat) (a : Act (webSocket S cfg message) (Kafka.publisher K)) : Prop :=
  ∀ pc, a.pc = some pc → ∃ j, pc.stopRank = some j ∧ j < i

/-- The same for a place of `stop()`: what is suspended from here on can be resumed so often, the
next time included. -/
def Node.stopRank : Node (webSocket S cfg message) (Kafka.publisher K) → Option Nat
  | .resumed pc _ => pc.stopRank
  | .stopLocked _ => some 5
  | .waited _ _ _ _ => some 3
  | .timeout _ _ => some 3
  | .awaited _ _ _ => some 2
  | .flush _ _ => some 2
  | .flushed _ _ _ => some 2
  | .disconnect _ _ => some 2
  | .disconnected _ _ (.suspend pc) => some (disconnectRank (S := S) pc + 1)
  | .disconnected _ _ (.finish _) => some 0
  | .stopEnd _ _ _ => some 0
  | .suspended pc => pc.stopRank.map (· + 1)
  | .cancels pc _ => pc.stopRank.map (· + 1)
  | .finished _ => some 0
  | _ => none

/-! ## A segment -/

section

variable {s v v' : IngestionService (webSocket S cfg message) (Kafka.publisher K)}
variable {p p' : Node (webSocket S cfg message) (Kafka.publisher K)}
variable {outcome : TaskId → Option Outcome} {t : TaskId}

/-- In `disconnect()` the socket comes after the lock, and then the end. -/
theorem disconnect_rank {c c' : Conn S} {cpc pc' : Connector.Pc S} {w : Connector.Wake S}
    (hp : (Point.suspended cpc).Of .disconnect)
    (h : Connector.advance cfg (fun _ => false) c t cpc w = some (c', .suspend pc')) :
    disconnectRank pc' < disconnectRank cpc := by
  have hfinish : ∀ c c' : Conn S, Connector.disconnectFinish c ≠ (c', .suspend pc') := by
    intro c c' h
    unfold Connector.disconnectFinish at h
    split at h <;> cases h
  cases cpc with
  | disconnectLock =>
    cases w with
    | done =>
      simp only [Connector.advance] at h
      split at h
      · unfold Connector.disconnectLocked at h
        split at h
        · cases h
        · split at h
          · cases h
            exact Nat.one_pos
          · exact absurd (Option.some.inj h) (hfinish _ _)
      · cases h
    | _ => cases h
  | disconnectClosing x =>
    cases w with
    | done | raised => exact absurd (Option.some.inj h) (hfinish _ _)
    | _ => cases h
  | connect k pc => cases k <;> cases hp
  | _ => cases hp

/-- On the way of a `stop()` that was at the rank `i`. -/
structure Falls (i : Nat) (p : Node (webSocket S cfg message) (Kafka.publisher K)) : Prop where
  rank : ∃ j, p.stopRank = some j ∧ j ≤ i
  place : ∀ k n cpc w, p = .resumed (.disconnecting k n cpc) w →
    (Point.suspended cpc).Of .disconnect

/-- **No arc of a `stop()` goes up.** -/
theorem Arc.stopRank_le {i : Nat} (ha : Arc outcome t p v p' v') (hi : p.stopRank = some i)
    (hp : ∀ k n cpc w, p = .resumed (.disconnecting k n cpc) w →
      (Point.suspended cpc).Of .disconnect) :
    ∃ j, p'.stopRank = some j ∧ j ≤ i := by
  cases ha with
  | stopWoken | stopAbandoned | stopIdle | stopWait | stopNoTask | waitDone | waitTimeout
  | waitCancelled | lateDone | lateCancelled | abortDone | abortCancelled | waitedReturned
  | waitedTimeout | waitedRaised | waitedCancelled | waitedLate | timeoutDone | timeoutCancels
  | timeoutNone | awaitDone | awaitCancelled | awaitedOver | awaitedRaised | flushFirst | flushOver
  | flushCancelled | disconnectOver | disconnectCancelled | stopEnd =>
    cases hi
    exact ⟨_, rfl, by decide⟩
  | @flushSuspend _ _ _ pc => exact Empty.elim pc
  | @disconnectFirst _ _ _ _ a hc =>
    cases hi
    cases a with
    | suspend cpc =>
      refine ⟨_, rfl, ?_⟩
      cases cpc <;> simp [disconnectRank]
    | returned | raised => exact ⟨0, rfl, Nat.zero_le _⟩
  | @disconnectLater k n _ cpc w c x hc =>
    cases hi
    obtain ⟨⟨c', a⟩, ha, he⟩ := Option.map_eq_some_iff.1 hc
    cases a with
    | suspend pc' =>
      cases he
      exact ⟨_, rfl, disconnect_rank (hp k n cpc _ rfl) ha⟩
    | finish | yields =>
      cases he
      exact ⟨0, rfl, Nat.zero_le _⟩
  | disconnectSuspend => exact ⟨i, hi, Nat.le_refl i⟩
  | _ => cases hi

theorem Falls.arc {i : Nat} (ha : Arc outcome t p v p' v') (h : Falls i p) : Falls i p' := by
  obtain ⟨⟨j, hj, hle⟩, hp⟩ := h
  obtain ⟨j', hj', hle'⟩ := ha.stopRank_le hj hp
  refine ⟨⟨j', hj', hle'.trans hle⟩, fun k n cpc w h => ?_⟩
  subst h
  cases ha

/-- **Every segment of a `stop()` goes down.** -/
theorem segment_below {pc : Pc (webSocket S cfg message) (Kafka.publisher K)}
    {w : Resume (webSocket S cfg message)}
    {r : IngestionService (webSocket S cfg message) (Kafka.publisher K) ×
      Act (webSocket S cfg message) (Kafka.publisher K)} {i : Nat}
    (hpc : pc.stopRank = some i) (hp : ∀ k n cpc, pc = .disconnecting k n cpc →
      (Point.suspended cpc).Of .disconnect)
    (hr : advance outcome s t pc w = some r) : r.2.Below i := by
  have hstart : Falls i (.resumed pc w : Node (webSocket S cfg message) (Kafka.publisher K)) := by
    refine ⟨⟨i, hpc, Nat.le_refl i⟩, fun k n cpc w h => ?_⟩
    cases h
    exact hp k n cpc rfl
  obtain ⟨⟨j, hj, hle⟩, -⟩ := (advance_leads hr).keeps (J := fun p _ => Falls i p) Falls.arc hstart
  obtain ⟨v, a⟩ := r
  intro pc' hpc'
  cases a with
  | suspend | cancelling =>
    cases hpc'
    obtain ⟨m, hm, rfl⟩ := Option.map_eq_some_iff.1 hj
    exact ⟨m, hm, hle⟩
  | finish => cases hpc'

end

/-! ## A run -/

/-- The step resumes `t`. -/
def Label.resumes (t : TaskId) : Label (webSocket S cfg message) → Bool
  | .resume u _ => u == t
  | _ => false

section

variable {Q : PublisherPort} {s s' : Sys (webSocket S cfg message) Q} {t : TaskId}
variable {rank : Pc (webSocket S cfg message) Q → Option Nat}

/-- If the segments of `t` lower the rank of its call, resuming it does, and nothing else changes
it. -/
theorem step_countdown {l : Label (webSocket S cfg message)} {i j : Nat}
    (hrank : ∀ pc w r pc' i j, (s.tasks t).call = some pc → rank pc = some i →
      advance s.outcome s.service t pc w = some r → r.2.pc = some pc' → rank pc' = some j → j < i)
    (hi : (s.tasks t).call.bind rank = some i) (hj : (s'.tasks t).call.bind rank = some j)
    (hs : Service.step s l = some s') : j + (if l.resumes t = true then 1 else 0) ≤ i := by
  obtain ⟨pc, hc, hpc⟩ := Option.bind_eq_some_iff.1 hi
  obtain ⟨pc', hc', hpc'⟩ := Option.bind_eq_some_iff.1 hj
  -- of another task
  have others : (s'.tasks t).call = (s.tasks t).call → j = i := by
    intro hcall
    rw [hcall, hi] at hj
    exact (Option.some.inj hj).symm
  cases step_effect hs with
  | @first u op _ _ _ hcu hset =>
    have hut : t ≠ u := by
      rintro rfl
      rw [hc] at hcu
      cases hcu
    rw [others (hset.others t hut).1]
    simp [Label.resumes]
  | @later u pcu w r _ _ _ hcu _ hr hset =>
    by_cases hut : t = u
    · subst hut
      rw [hc] at hcu
      obtain rfl := Option.some.inj hcu
      rw [if_pos (show Label.resumes t (Label.resume t w) = true from beq_self_eq_true t)]
      exact hrank _ _ _ _ _ _ hc hpc hr (hset.call.symm.trans hc') hpc'
    · rw [others (hset.others t hut).1]
      simp [Label.resumes, Ne.symm hut]
  | quiet hl _ _ hcall _ =>
    rw [others (hcall t)]
    cases l with
    | resume u w => exact absurd rfl (hl u w)
    | _ => simp [Label.resumes]

/-- The rank of the call of `t`. -/
def Sys.callRank (rank : Pc (webSocket S cfg message) Q → Option Nat) (t : TaskId)
    (s : Sys (webSocket S cfg message) Q) : Nat :=
  ((s.tasks t).call.bind rank).getD 0

/-- **A call runs down.**  If the segments of `t` lower the rank of its call, `t` is not resumed
more often than that, as long as its call has a rank. -/
theorem run_callCountdown {I : Sys (webSocket S cfg message) Q → Prop}
    {ms : List (Label (webSocket S cfg message))}
    (hI : ∀ s l s', I s → Service.step s l = some s' → I s')
    (hrank : ∀ s, I s → ∀ pc w r pc' i j, (s.tasks t).call = some pc → rank pc = some i →
      advance s.outcome s.service t pc w = some r → r.2.pc = some pc' → rank pc' = some j → j < i)
    (h : I s) (hm : run Service.step s ms = some s')
    (hin : Always Service.step (fun s => ((s.tasks t).call.bind rank).isSome = true) s ms) :
    ∃ pc i, (s.tasks t).call = some pc ∧ rank pc = some i ∧ ms.countP (Label.resumes t) ≤ i := by
  have hstep : ∀ (s : Sys (webSocket S cfg message) Q) l s', I s →
      ((s.tasks t).call.bind rank).isSome = true → ((s'.tasks t).call.bind rank).isSome = true →
        Service.step s l = some s' →
          Sys.callRank rank t s' + (if Label.resumes t l = true then 1 else 0) ≤ Sys.callRank rank t s := by
    intro s l s' h hin hin' hs
    obtain ⟨i, hi⟩ := Option.isSome_iff_exists.1 hin
    obtain ⟨j, hj⟩ := Option.isSome_iff_exists.1 hin'
    simp only [Sys.callRank, hi, hj, Option.getD_some]
    exact step_countdown (hrank s h) hi hj hs
  have hcount := run_countdown hI hstep h hin hm
  obtain ⟨i, hi⟩ := Option.isSome_iff_exists.1 hin.head
  obtain ⟨pc, hc, hpc⟩ := Option.bind_eq_some_iff.1 hi
  refine ⟨pc, i, hc, hpc, ?_⟩
  simp only [Sys.callRank, hi, Option.getD_some] at hcount
  omega

end

section

variable {s s' : Sys (webSocket S cfg message) (Kafka.publisher K)} {t : TaskId}

/-- How often the `stop()` that `t` is in can be resumed without ending; `none` if it is in none. -/
def Sys.stopRank (s : Sys (webSocket S cfg message) (Kafka.publisher K)) (t : TaskId) :
    Option Nat :=
  (s.tasks t).call.bind Pc.stopRank

/-- `t` is in a `stop()`, its own or that of the use case. -/
def Sys.InStop (t : TaskId) (s : Sys (webSocket S cfg message) (Kafka.publisher K)) : Prop :=
  (s.stopRank t).isSome = true

theorem Pc.stopRank_le {pc : Pc (webSocket S cfg message) (Kafka.publisher K)} {i : Nat}
    (h : pc.stopRank = some i) : i ≤ 5 := by
  cases pc with
  | disconnecting k n cpc =>
    obtain rfl := Option.some.inj h
    cases cpc <;> simp [disconnectRank]
  | _ => cases h <;> decide

/-- A segment of a `stop()` lowers its rank. -/
theorem Sys.Sound.stop_lowers (h : s.Sound)
    {pc pc' : Pc (webSocket S cfg message) (Kafka.publisher K)}
    {w : Resume (webSocket S cfg message)}
    {r : IngestionService (webSocket S cfg message) (Kafka.publisher K) ×
      Act (webSocket S cfg message) (Kafka.publisher K)} {i j : Nat}
    (hc : (s.tasks t).call = some pc) (hi : pc.stopRank = some i)
    (hr : advance s.outcome s.service t pc w = some r) (hpc' : r.2.pc = some pc')
    (hj : pc'.stopRank = some j) : j < i := by
  have hp : ∀ k n cpc, pc = .disconnecting k n cpc → (Point.suspended cpc).Of .disconnect := by
    rintro k n cpc rfl
    have hfits := h.ordered.fits t
    rw [Sys.site_of_call hc] at hfits
    exact hfits.2
  obtain ⟨m, hm, hlt⟩ := segment_below hi hp hr pc' hpc'
  rw [hj] at hm
  obtain rfl := Option.some.inj hm
  exact hlt

/-- **A `stop()` ends**, over any websocket connector and the Kafka adapter, whatever the other
tasks do and whatever is cancelled or fails: it is not resumed more than five times without ending,
so it ends with the sixth at the latest. -/
theorem stopEnds_of_run {inst : S.Inst} {q : (Kafka.publisher K).State} {n clients : Nat}
    {ls ms : List (Label (webSocket S cfg message))}
    (hr : run Service.step (Sys.init (Conn.init S inst) q n clients) ls = some s)
    (hm : run Service.step s ms = some s') (hin : Always Service.step (Sys.InStop t) s ms) :
    ms.countP (Label.resumes t) ≤ 5 := by
  have h : s.Sound := run_invariant (P := Sys.Sound) (fun _ _ _ h hs => h.step hs) Sys.sound_init hr
  obtain ⟨pc, i, -, hi, hcount⟩ := run_callCountdown (fun _ _ _ h hs => Sys.Sound.step h hs)
    (fun _ h _ _ _ _ _ _ => h.stop_lowers) h hm hin
  exact Nat.le_trans hcount (Pc.stopRank_le hi)

end

/-! ## A stop that runs out of time -/

/-- Client 1 stops a service whose loop, task 4, is waiting for a message. -/
def stopReceiving : List (Label testConnector) :=
  [.call 0 .start, .resume 0 (.wake .done), .resume 4 (.wake .done), .call 1 .stop]

/-- The time is over, the loop ends cancelled, and the socket is being closed. -/
def outOfTime : List (Label testConnector) :=
  [.resume 1 .timeout, .resume 4 (.wake .cancelled), .resume 1 (.wake .done)]

/-- The state in between. -/
def stoppingReceiving : Sys testConnector (Kafka.publisher Kafka.acceptingProducer) :=
  (run Service.step fourClients stopReceiving).get rfl

/-- `stopEnds_of_run` of these: client 1 has been resumed twice, and once more will do. -/
theorem stopEnds_outOfTime : ∃ s, run Service.step stoppingReceiving outOfTime = some s ∧
    s.stopRank 1 = some 0 ∧ outOfTime.countP (Label.resumes 1) = 2 ∧
    outOfTime.countP (Label.resumes 1) ≤ 5 := by
  have hr : run Service.step fourClients stopReceiving = some stoppingReceiving :=
    (Option.some_get _).symm
  have hm : run Service.step stoppingReceiving outOfTime =
      some ((run Service.step stoppingReceiving outOfTime).get rfl) := (Option.some_get _).symm
  have hin : Always Service.step (Sys.InStop 1) stoppingReceiving outOfTime := by
    refine ⟨rfl, fun s₁ h₁ => ?_⟩
    cases h₁
    refine ⟨rfl, fun s₂ h₂ => ?_⟩
    cases h₂
    refine ⟨rfl, fun s₃ h₃ => ?_⟩
    cases h₃
    rfl
  exact ⟨_, hm, rfl, rfl, stopEnds_of_run hr hm hin⟩

end FlinkPractices.Service
