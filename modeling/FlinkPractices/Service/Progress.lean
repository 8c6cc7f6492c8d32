import FlinkPractices.Kafka.Producer
import FlinkPractices.Service.Ledger
import FlinkPractices.Service.Seniority

/-!
# No deadlock in the service

Any number of clients start, stop and run the use case over a websocket connector and the Kafka
adapter, in any interleaving and with whatever cancellations.  They wait for each other in three
ways (`WaitsFor`): for the lock of the service, for a consumption task that a `stop()` has
cancelled, and inside the connector (`Connector.WaitsFor`).  The order of `Service.Seniority` makes
all waits go down (`waitRank`), so no wait closes a circle, and a chain of waits that cannot be
followed any further ends at a task that waits for nobody.

Such a task is `Ready`: its call can be resumed, or it is in no call at all.  The second is possible
because `await self._connecting_task` waits for the whole task that makes an attempt: when its
`connect()` has returned and it goes on to something else, those that joined it still wait.

Principal results:

* `Sys.Sound.grounded` — in a sound state every chain of waits is finite, and none is a circle
* `Sys.Sound.ready` — a created task that waits for nobody is `Ready`
* `deadlockFree_of_run` — so from every task in every run a chain of waits leads to a `Ready` one.
-/

set_option autoImplicit false

namespace FlinkPractices.Service

open Lib Function Relation
open Connector (TaskId Conn Subclass Point Kind Awaits Disciplined Orderly)

variable {U : UpperTable} {S : Subclass} {cfg : ExchangeConfig U}
variable {message : S.Msg → MarketDataMessage} {Q : PublisherPort}

/-! ## Waiting -/

/-- The consumption task that a `stop()` awaits without a limit of time. -/
def Pc.awaitsLoop : Pc (webSocket S cfg message) Q → Option TaskId
  | .timedOut _ _ b => some b
  | .aborting _ _ b => some b
  | .awaiting _ _ b => some b
  | _ => none

/-- The tasks of the service as tasks of the connector. -/
def Sys.calling (s : Sys (webSocket S cfg message) Q) : Connector.Sys S :=
  callers s.point s.outcome s.service.connector

theorem Sys.calling_point (s : Sys (webSocket S cfg message) Q) : s.calling.point = s.point :=
  callers_point s.point_resting s.outcome s.service.connector

/-- In a call, `t` cannot go on before `u` has. -/
inductive WaitsFor (s : Sys (webSocket S cfg message) Q) (t u : TaskId) : Prop
  /-- in the connector: a task or the lock -/
  | connector : Connector.WaitsFor s.calling t u → WaitsFor s t u
  /-- in `stop()` -/
  | loop : (s.tasks t).call.bind Pc.awaitsLoop = some u → s.outcome u = none → WaitsFor s t u
  /-- the lock of the service is held -/
  | owner : t ∈ s.service.lock.waiters → s.service.lock.owner = some u → WaitsFor s t u
  /-- it is free, and it is somebody else's turn -/
  | turn : t ∈ s.service.lock.waiters → s.service.lock.owner = none →
      s.service.lock.waiters.head? = some u → u ≠ t → WaitsFor s t u

/-- The task is in no call, and so waits for nobody; or its call can be resumed. -/
def Ready (s : Sys (webSocket S cfg message) Q) (t : TaskId) : Prop :=
  (s.tasks t).call = none ∨ ∃ w s', Service.step s (.resume t w) = some s'

/-! ## No circles -/

section

variable {s : Sys (webSocket S cfg message) Q} {t u : TaskId}

theorem Sys.site_of_call {pc : Pc (webSocket S cfg message) Q} (h : (s.tasks t).call = some pc) :
    s.site t = pc.site := by
  rw [Sys.site, h]
  rfl

theorem Sys.Sound.queued (h : s.Sound) (ht : t ∈ s.service.lock.waiters) :
    s.site t = .queued := by
  have hstatus : (s.site t).lockStatus = .waiting := (h.ordered.lock.waiters t).1 ht
  cases hsite : s.site t with
  | queued => rfl
  | calls κ P =>
    rw [hsite] at hstatus
    cases κ <;> cases hstatus
  | _ =>
    rw [hsite] at hstatus
    cases hstatus

/-- Between two segments the lock is held by a client that connects. -/
theorem Sys.Sound.owner (h : s.Sound) (ho : s.service.lock.owner = some t) :
    ∃ R, s.site t = .calls .connect R := by
  have hstatus : (s.site t).lockStatus = .holding := (h.ordered.lock.owner t).1 ho
  unfold Sys.site at hstatus ⊢
  cases hc : (s.tasks t).call with
  | none =>
    rw [hc] at hstatus
    cases hstatus
  | some pc =>
    rw [hc] at hstatus
    cases pc <;> first | exact ⟨_, rfl⟩ | cases hstatus

theorem calls_of_point (h : s.point t ≠ .idle) : ∃ κ P, s.site t = .calls κ P := by
  unfold Sys.point at h
  cases hsite : s.site t with
  | calls κ P => exact ⟨κ, P, rfl⟩
  | _ =>
    rw [hsite] at h
    exact absurd rfl h

theorem calls_of_lock (h : (s.point t).lockStatus ≠ .idle) : ∃ κ P, s.site t = .calls κ P :=
  calls_of_point fun hidle => h (by rw [hidle]; rfl)

/-- Nobody waits in the connector outside of its calls. -/
theorem Sys.Sound.calls (h : s.Sound) (hw : Connector.WaitsFor s.calling t u) :
    ∃ κ P, s.site t = .calls κ P := by
  have queues : t ∈ s.service.connector.connectLock.waiters → ∃ κ P, s.site t = .calls κ P :=
    fun hm => calls_of_lock (by rw [(h.orderly.disciplined.lock.waiters t).1 hm]; nofun)
  cases hw with
  | task ha =>
    refine calls_of_point fun hidle => ?_
    have hcall : (s.calling.tasks t).call = none :=
      Connector.Sys.point_idle.1 (by rw [s.calling_point]; exact hidle)
    rw [hcall] at ha
    cases ha
  | owner hm => exact queues hm
  | turn hm => exact queues hm

theorem awaitsLoop_site (h : (s.tasks t).call.bind Pc.awaitsLoop = some u) :
    s.site t = .waits u := by
  obtain ⟨pc, hc, hpc⟩ := Option.bind_eq_some_iff.1 h
  rw [Sys.site_of_call hc]
  cases pc <;> first | cases hpc; rfl | cases hpc

/-- The waits that may last. -/
inductive LastingWait (s : Sys (webSocket S cfg message) Q) (t u : TaskId) : Prop
  | awaits : Awaits s.point t u → LastingWait s t u
  | loop : s.site t = .waits u → LastingWait s t u
  | lock {R} : s.site t = .queued → s.site u = .calls .connect R → LastingWait s t u

/-- Whoever has the connector's lock, or gets a lock next, waits for nobody. -/
theorem Sys.Sound.waitsFor (h : s.Sound) (hw : WaitsFor s t u) :
    LastingWait s t u ∨ ∀ v, ¬WaitsFor s u v := by
  have hpoint : s.calling.point = s.point := s.calling_point
  have horderly : Orderly s.calling.point s.calling.conn := by
    rw [hpoint]
    exact h.orderly
  have hconn := h.orderly.disciplined.lock
  -- in the connector, waiting for nobody there
  have inCall : (s.point u).lockStatus ≠ .idle → (∀ v, ¬Connector.WaitsFor s.calling u v) →
      ∀ v, ¬WaitsFor s u v := by
    intro hu hc v hv
    obtain ⟨κ, P, hP⟩ := calls_of_lock hu
    have hm : u ∉ s.service.lock.waiters := by
      intro hm
      rw [h.queued hm] at hP
      cases hP
    cases hv with
    | connector hw => exact hc v hw
    | loop hb =>
      rw [awaitsLoop_site hb] at hP
      cases hP
    | owner hu => exact hm hu
    | turn hu => exact hm hu
  cases hw with
  | connector hw =>
    rcases horderly.waitsFor hw with ha | hsink
    · rw [hpoint] at ha
      exact .inl (.awaits ha)
    · cases hw with
      | task ha _ =>
        have hawaits : Awaits s.point t u := by
          rw [← hpoint]
          exact Connector.awaited_eq.trans ha
        exact .inl (.awaits hawaits)
      | owner _ ho => exact .inr (inCall (by rw [(hconn.owner u).1 ho]; nofun) hsink)
      | turn _ _ hh _ =>
        have hu := (hconn.waiters u).1 (List.mem_of_mem_head? hh)
        exact .inr (inCall (by rw [hu]; nofun) hsink)
  | loop hb => exact .inl (.loop (awaitsLoop_site hb))
  | owner hm ho =>
    obtain ⟨R, hR⟩ := h.owner ho
    exact .inl (.lock (h.queued hm) hR)
  | turn hm ho hh hne =>
    have hu := h.queued (List.mem_of_mem_head? hh)
    refine .inr fun v hv => ?_
    cases hv with
    | connector hw =>
      obtain ⟨κ, P, hP⟩ := h.calls hw
      rw [hu] at hP
      cases hP
    | loop hb =>
      rw [awaitsLoop_site hb] at hu
      cases hu
    | owner _ ho' =>
      rw [ho] at ho'
      cases ho'
    | turn _ _ hh' hne' =>
      rw [hh] at hh'
      exact hne' (Option.some.inj hh').symm

/-- Somebody who connects under the lock waits for `t`, or is `t`. -/
def UnderLock (s : Sys (webSocket S cfg message) Q) (t : TaskId) : Prop :=
  ∃ w R, s.site w = .calls .connect R ∧ ReflTransGen (Awaits s.point) w t

/-- Clients are not among those whom a client awaits under the lock. -/
theorem Sys.Sound.not_underLock (h : s.Sound) (ht : t < s.clients)
    (hs : ∀ R, s.site t ≠ .calls .connect R) : ¬UnderLock s t := by
  rintro ⟨w, R, hw, hr⟩
  rcases reflTransGen_iff_eq_or_transGen.1 hr with rfl | hr
  · exact hs R hw
  · exact h.ordered.connecting w R hw t ht hr

open Classical in
/-- It goes down along all lasting waits: the lock comes first, and then the age of the youngest who
awaits the task. -/
noncomputable def waitRank (s : Sys (webSocket S cfg message) Q) (t : TaskId) : Nat :=
  (if UnderLock s t then 0 else s.service.nextTask + 1) +
    (s.service.nextTask - eldest (Awaits s.point) s.service.nextTask t)

/-- A client that waits for a loop is older than the loop, and so is whoever awaits the client. -/
theorem Sys.Sound.eldest_loop (h : s.Sound) (hb : s.site t = .waits u) :
    eldest (Awaits s.point) s.service.nextTask t < u ∧ u ≤ s.service.nextTask := by
  have hfits : (s.site t).Fits s.clients t s.service.shared := h.ordered.fits t
  rw [hb] at hfits
  obtain ⟨ht, hu, b, hbg, hub⟩ := hfits
  have hold : t < u := Nat.lt_of_lt_of_le ht hu
  refine ⟨eldest_lt (Nat.lt_of_le_of_lt (Nat.zero_le t) hold) fun a ha => ?_,
    Nat.le_trans hub (Nat.le_of_lt (h.ordered.background b hbg).2)⟩
  rcases reflTransGen_iff_eq_or_transGen.1 ha with rfl | ha
  · exact hold
  · exact h.ordered.stopping t u hb a ha

open Classical in
theorem LastingWait.rank (h : s.Sound) (hw : LastingWait s t u) :
    waitRank s u < waitRank s t ∨ waitRank s u = waitRank s t ∧ Awaits s.point t u := by
  have hfits : (s.site t).Fits s.clients t s.service.shared := h.ordered.fits t
  unfold waitRank
  cases hw with
  | awaits ha =>
    have hunder : UnderLock s t → UnderLock s u := by
      rintro ⟨w, R, hw, hr⟩
      exact ⟨w, R, hw, hr.tail ha⟩
    have hlock : (if UnderLock s u then 0 else s.service.nextTask + 1) ≤
        if UnderLock s t then 0 else s.service.nextTask + 1 := by
      by_cases ht : UnderLock s t
      · rw [if_pos ht, if_pos (hunder ht)]
      · rw [if_neg ht]
        split
        · exact Nat.zero_le _
        · exact Nat.le_refl _
    have hage := Nat.sub_le_sub_left (eldest_mono (n := s.service.nextTask) ha) s.service.nextTask
    rcases Nat.lt_or_eq_of_le (Nat.add_le_add hlock hage) with hlt | heq
    · exact .inl hlt
    · exact .inr ⟨heq, ha⟩
  | loop hb =>
    rw [hb] at hfits
    have hunder := h.not_underLock hfits.1 fun R hR => by rw [hb] at hR; cases hR
    obtain ⟨hlt, hnext⟩ := h.eldest_loop hb
    have hself : u ≤ eldest (Awaits s.point) s.service.nextTask u := le_eldest hnext
    have hle : eldest (Awaits s.point) s.service.nextTask u ≤ s.service.nextTask := eldest_le u
    have hage : s.service.nextTask - eldest (Awaits s.point) s.service.nextTask u <
        s.service.nextTask - eldest (Awaits s.point) s.service.nextTask t :=
      Nat.sub_lt_sub_left (Nat.lt_of_lt_of_le hlt (Nat.le_trans hself hle))
        (Nat.lt_of_lt_of_le hlt hself)
    left
    rw [if_neg hunder]
    exact Nat.add_lt_add_of_le_of_lt (by split <;> omega) hage
  | @lock R hq hu =>
    rw [hq] at hfits
    have hunder := h.not_underLock hfits fun R hR => by rw [hq] at hR; cases hR
    left
    rw [if_neg hunder, if_pos ⟨u, R, hu, .refl⟩]
    omega

theorem Sys.Sound.grounded (h : s.Sound) : Grounded (WaitsFor s) := by
  have hlasting : Grounded (LastingWait s) :=
    h.orderly.awaits.of_rank (waitRank s) fun _ _ hw => hw.rank h
  exact hlasting.of_sinks fun _ _ hw => h.waitsFor hw

end

/-! ## Who can go on -/

section

variable {K : Kafka.Producer} {s : Sys (webSocket S cfg message) (Kafka.publisher K)} {t : TaskId}

theorem resume_isSome {pc : Pc (webSocket S cfg message) (Kafka.publisher K)}
    {w : Resume (webSocket S cfg message)} (hc : (s.tasks t).call = some pc)
    (ht : t < s.service.nextTask) (ho : s.outcome t = none)
    (ha : s.admits (s.tasks t) pc w = true)
    (hr : (advance s.outcome s.service t pc w).isSome = true) : Ready s t := by
  obtain ⟨r, hr⟩ := Option.isSome_iff_exists.1 hr
  refine .inr ⟨w, s.settle t { s.tasks t with cancelling := false } r, ?_⟩
  simp only [Service.step, hc]
  rw [if_pos ⟨ht, ho, ha⟩, hr]

/-- Where the connector goes on, the service does. -/
theorem advance_connecting_isSome {outcome : TaskId → Option Outcome}
    {v : IngestionService (webSocket S cfg message) (Kafka.publisher K)} {k : StartCaller}
    {pc : Connector.ConnectPc S} {w : Wake S.Frame}
    (h : (Connector.advance cfg (isDone outcome) v.connector t (.connect .task pc)
      w.toConnector).isSome = true) :
    (advance outcome v t (.connecting k pc) (.wake w)).isSome = true := by
  obtain ⟨r, hr⟩ := Option.isSome_iff_exists.1 h
  obtain ⟨r₀, hr₀, -⟩ := Option.map_eq_some_iff.1 hr
  simp only [advance, hr₀, Option.map_some]
  rcases laterConnect S r₀ with ⟨c, pc' | _ | e | _⟩ <;> rfl

theorem advance_receiving_isSome {outcome : TaskId → Option Outcome}
    {v : IngestionService (webSocket S cfg message) (Kafka.publisher K)} {pc : Connector.Pc S}
    {w : Wake S.Frame}
    (h : (Connector.advance cfg (isDone outcome) v.connector t pc w.toConnector).isSome = true) :
    (advance outcome v t (.receiving pc) (.wake w)).isSome = true := by
  obtain ⟨r, hr⟩ := Option.isSome_iff_exists.1 h
  simp only [advance, hr, Option.map_some]
  rcases laterStream S message r with ⟨c, pc' | r | ⟨m, ms⟩⟩ <;> rfl

theorem advance_disconnecting_isSome {outcome : TaskId → Option Outcome}
    {v : IngestionService (webSocket S cfg message) (Kafka.publisher K)} {k : StopCaller} {n : Nat}
    {pc : Connector.Pc S} {w : Wake S.Frame}
    (h : (Connector.advance cfg (fun _ => false) v.connector t pc w.toConnector).isSome = true) :
    (advance outcome v t (.disconnecting k n pc) (.wake w)).isSome = true := by
  obtain ⟨r, hr⟩ := Option.isSome_iff_exists.1 h
  simp only [advance, hr, Option.map_some]
  rcases laterDisconnect S r with ⟨c, pc' | _ | e | _⟩ <;> rfl

/-- A call of the connector can be cancelled wherever it is suspended. -/
theorem connector_cancelled (isDone : TaskId → Bool) (c : Conn S) (pc : Connector.Pc S) :
    (Connector.advance cfg isDone c t pc .cancelled).isSome = true := by
  cases pc with
  | connect k pc => cases pc <;> rfl
  | _ => rfl

/-- **A cancellation gets through everywhere.** -/
theorem advance_cancelled {outcome : TaskId → Option Outcome}
    (v : IngestionService (webSocket S cfg message) (Kafka.publisher K))
    (pc : Pc (webSocket S cfg message) (Kafka.publisher K)) :
    (advance outcome v t pc (.wake .cancelled)).isSome = true := by
  cases pc with
  | connecting k pc => exact advance_connecting_isSome (connector_cancelled _ _ _)
  | receiving pc => exact advance_receiving_isSome (connector_cancelled _ _ _)
  | disconnecting k n pc => exact advance_disconnecting_isSome (connector_cancelled _ _ _)
  | waiting k n b =>
    simp only [advance]
    split <;> rfl
  | flushing k n pc => exact Empty.elim pc
  | _ => rfl

/-- A pending cancellation. -/
theorem Sys.Sound.ready_cancelling (h : s.Sound) (ht : t < s.service.nextTask)
    (hk : (s.tasks t).cancelling = true) : Ready s t := by
  cases hc : (s.tasks t).call with
  | none => exact .inl hc
  | some pc =>
    have hcall : (s.tasks t).call ≠ none := by
      rw [hc]
      exact Option.some_ne_none pc
    refine resume_isSome (w := .wake .cancelled) hc ht (h.live t hcall) ?_
      (advance_cancelled _ _)
    simp [Sys.admits, hk]

theorem Wake.toConnector_surjective (w : Connector.Wake S) :
    ∃ w' : Wake S.Frame, w'.toConnector = w := by
  cases w with
  | done => exact ⟨.done, rfl⟩
  | frame f => exact ⟨.input f, rfl⟩
  | raised e => exact ⟨.raised e, rfl⟩
  | cancelled => exact ⟨.cancelled, rfl⟩

/-- What the connector admits, the service admits. -/
theorem admits_of_connector {pc : Pc (webSocket S cfg message) (Kafka.publisher K)}
    {cpc : Connector.Pc S} {w : Wake S.Frame} (hk : (s.tasks t).cancelling = false)
    (hpc : pc.awaitsLoop = none) (hawaits : pc.awaited = cpc.awaited)
    (h : s.calling.admits (s.calling.tasks t) cpc w.toConnector = true) :
    s.admits (s.tasks t) pc (.wake w) = true := by
  have houtcome : ∀ o, (s.calling.tasks o).outcome = s.outcome o := fun _ => rfl
  have hcancelling : (s.calling.tasks t).cancelling = false := rfl
  have hne : ∀ k n b, pc ≠ .awaiting k n b := by
    rintro k n b rfl
    cases hpc
  unfold Connector.Sys.admits at h
  unfold Sys.admits
  cases hca : cpc.awaited with
  | none =>
    rw [hca] at h hawaits
    cases w <;> simp_all [Wake.toConnector]
  | some o =>
    rw [hca] at h hawaits
    cases w <;> simp_all [Wake.toConnector]

/-- A call of the connector that waits for nobody can be resumed. -/
theorem Sys.Sound.connector_ready (h : s.Sound) {cpc : Connector.Pc S}
    (hp : s.point t = .suspended cpc) (hn : ∀ u, ¬WaitsFor s t u) :
    ∃ w : Wake S.Frame, s.calling.admits (s.calling.tasks t) cpc w.toConnector = true ∧
      (Connector.advance cfg (isDone s.outcome) s.service.connector t cpc
        w.toConnector).isSome = true := by
  have horderly : Orderly s.calling.point s.calling.conn := by
    rw [s.calling_point]
    exact h.orderly
  have hc : (s.calling.tasks t).call = some cpc :=
    Connector.Sys.point_suspended.1 (by rw [s.calling_point]; exact hp)
  rcases horderly.ready fun u hw => hn u (.connector hw) with hnone | ⟨w, s', hs, -⟩
  · rw [hc] at hnone
    cases hnone
  · obtain ⟨w, rfl⟩ := Wake.toConnector_surjective w
    simp only [Connector.step, hc] at hs
    split at hs
    · rename_i ha
      split at hs
      · rename_i r hr
        exact ⟨w, ha, by rw [show isDone s.outcome = s.calling.isDone from rfl]; exact
          Option.isSome_iff_exists.2 ⟨r, hr⟩⟩
      · cases hs
    · cases hs

theorem resume_wake {pc : Pc (webSocket S cfg message) (Kafka.publisher K)}
    (hc : (s.tasks t).call = some pc) (ht : t < s.service.nextTask) (ho : s.outcome t = none)
    (hk : (s.tasks t).cancelling = false)
    (hpc : pc.awaited = none ∨ ∃ k n b, pc = .awaiting k n b)
    (hr : (advance s.outcome s.service t pc (.wake .done)).isSome = true) : Ready s t := by
  refine resume_isSome hc ht ho ?_ hr
  rcases hpc with hpc | ⟨k, n, b, rfl⟩
  · cases pc <;> simp_all [Sys.admits]
  · simp [Sys.admits, hk]

/-- Whoever queues for the lock of the service without waiting for anybody gets it. -/
theorem Sys.Sound.wakes (h : s.Sound) (hs : s.site t = .queued) (hn : ∀ u, ¬WaitsFor s t u) :
    ∃ l, s.service.lock.wake t = some l := by
  have hstatus : (s.site t).lockStatus = .waiting := by
    rw [hs]
    rfl
  have hm : t ∈ s.service.lock.waiters := (h.ordered.lock.waiters t).2 hstatus
  have ho : s.service.lock.owner = none :=
    Option.eq_none_iff_forall_ne_some.2 fun u hu => hn u (.owner hm hu)
  refine Connector.wake_of_first hm ho fun u hu => ?_
  by_contra hne
  exact hn u (.turn hm ho hu hne)

theorem disconnect_awaited {cpc : Connector.Pc S} (hp : (Point.suspended cpc).Of .disconnect) :
    cpc.awaited = none := by
  cases cpc with
  | disconnectLock | disconnectClosing => rfl
  | connect k pc => cases k <;> cases hp
  | _ => cases hp

/-- `disconnect()` does not ask which tasks are done. -/
theorem advance_disconnect {cpc : Connector.Pc S} (hp : (Point.suspended cpc).Of .disconnect)
    {isDone : TaskId → Bool} {c : Conn S} {w : Connector.Wake S} :
    Connector.advance cfg isDone c t cpc w =
      Connector.advance cfg (fun _ => false) c t cpc w := by
  cases cpc with
  | disconnectLock | disconnectClosing => cases w <;> rfl
  | connect k pc => cases k <;> cases hp
  | _ => cases hp

/-- A call of the connector that waits for nobody. -/
theorem Sys.Sound.ready_call (h : s.Sound) (ht : t < s.service.nextTask)
    (hk : (s.tasks t).cancelling = false) (hn : ∀ u, ¬WaitsFor s t u)
    {pc : Pc (webSocket S cfg message) (Kafka.publisher K)} (hc : (s.tasks t).call = some pc)
    (ho : s.outcome t = none) {κ : Kind} {P : Point S} (hP : pc.site = .calls κ P) :
    Ready s t := by
  have hsite := Sys.site_of_call hc
  have hpoint : s.point t = pc.site.point := congrArg Site.point hsite
  cases pc with
  | connecting k cpc =>
    obtain ⟨w, ha, hr⟩ := h.connector_ready hpoint hn
    have hawaits : connectAwaits cpc = (Connector.Pc.connect .task cpc).awaited := by
      cases cpc <;> rfl
    exact resume_isSome hc ht ho (admits_of_connector hk rfl hawaits ha)
      (advance_connecting_isSome hr)
  | receiving cpc =>
    obtain ⟨w, ha, hr⟩ := h.connector_ready hpoint hn
    have hawaits : streamAwaits cpc = cpc.awaited := by
      cases cpc with
      | connect k cpc => cases cpc <;> rfl
      | _ => rfl
    exact resume_isSome hc ht ho (admits_of_connector hk rfl hawaits ha)
      (advance_receiving_isSome hr)
  | disconnecting k n cpc =>
    have hfits := h.ordered.fits t
    rw [hsite] at hfits
    obtain ⟨w, ha, hr⟩ := h.connector_ready hpoint hn
    rw [advance_disconnect hfits.2] at hr
    have hawaits : none = cpc.awaited := (disconnect_awaited hfits.2).symm
    exact resume_isSome hc ht ho (admits_of_connector hk rfl hawaits ha)
      (advance_disconnecting_isSome hr)
  | _ => cases hP

/-- **Whoever waits for nobody can go on.** -/
theorem Sys.Sound.ready (h : s.Sound) (ht : t < s.service.nextTask) (hn : ∀ u, ¬WaitsFor s t u) :
    Ready s t := by
  cases hk : (s.tasks t).cancelling with
  | true => exact h.ready_cancelling ht hk
  | false =>
    cases hc : (s.tasks t).call with
    | none => exact .inl hc
    | some pc =>
      have hcall : (s.tasks t).call ≠ none := by
        rw [hc]
        exact Option.some_ne_none pc
      have ho : s.outcome t = none := h.live t hcall
      have hsite := Sys.site_of_call hc
      -- a consumption task that is awaited without a limit of time is done
      have hloop : ∀ b, pc.awaitsLoop = some b → ∃ r, s.outcome b = some r := by
        intro b hb
        cases hr : s.outcome b with
        | some r => exact ⟨r, rfl⟩
        | none => exact absurd (.loop (by rw [hc]; exact hb) hr) (hn b)
      cases pc with
      | startLock k =>
        obtain ⟨l, hl⟩ := h.wakes hsite hn
        exact resume_wake hc ht ho hk (.inl rfl) (by simp only [advance, hl, Option.isSome_some])
      | stopLock k =>
        obtain ⟨l, hl⟩ := h.wakes hsite hn
        exact resume_wake hc ht ho hk (.inl rfl) (by simp only [advance, hl, Option.isSome_some])
      | connecting k cpc => exact h.ready_call ht hk hn hc ho rfl
      | receiving cpc => exact h.ready_call ht hk hn hc ho rfl
      | disconnecting k n cpc => exact h.ready_call ht hk hn hc ho rfl
      | waiting k n b =>
        cases hb : s.outcome b with
        | some r =>
          exact resume_wake hc ht ho hk (.inl rfl) (by simp only [advance, hb, Option.isSome_some])
        | none =>
          refine resume_isSome (w := .timeout) hc ht ho ?_ (by simp only [advance, hb]; rfl)
          simp [Sys.admits, hk]
      | timedOut k n b =>
        obtain ⟨r, hb⟩ := hloop b rfl
        exact resume_wake hc ht ho hk (.inl rfl) (by simp only [advance, hb, Option.isSome_some])
      | aborting k n b =>
        obtain ⟨r, hb⟩ := hloop b rfl
        exact resume_wake hc ht ho hk (.inl rfl) (by simp only [advance, hb, Option.isSome_some])
      | awaiting k n b =>
        obtain ⟨r, hb⟩ := hloop b rfl
        exact resume_wake hc ht ho hk (.inr ⟨k, n, b, rfl⟩)
          (by simp only [advance, hb, Option.isSome_some])
      | flushing k n pc => exact Empty.elim pc
      | ready => exact resume_wake hc ht ho hk (.inl rfl) rfl
      | publishing pc ms =>
        refine resume_wake hc ht ho hk (.inl rfl) ?_
        have hnext : ∃ x, (Kafka.publisher K).resumePublish s.service.publisher pc .done = some x :=
          ⟨_, rfl⟩
        obtain ⟨⟨q, pc' | r⟩, hx⟩ := hnext
        · simp only [advance, Wake.plain, Option.bind_some, hx, Option.isSome_some]
        · simp only [advance, Wake.plain, Option.bind_some, hx, Option.isSome_some]
      | sleeping =>
        refine resume_isSome (w := .timeout) hc ht ho ?_ rfl
        simp [Sys.admits, hk]

/-- Whoever is waited for has been created. -/
theorem Sys.Sound.created (h : s.Sound) {u : TaskId} (hw : WaitsFor s t u) :
    u < s.service.nextTask := by
  have hsite : s.site u ≠ .idle → u < s.service.nextTask :=
    (h.ordered.fits u).created h.ordered.known
  have hconn := h.orderly.disciplined.lock
  have hcalls : (s.point u).lockStatus ≠ .idle → u < s.service.nextTask := by
    intro hu
    obtain ⟨κ, P, hP⟩ := calls_of_lock hu
    exact hsite (by rw [hP]; nofun)
  cases hw with
  | connector hw =>
    cases hw with
    | task ha =>
      have hawaits : Awaits s.point t u := by
        rw [← s.calling_point]
        exact Connector.awaited_eq.trans ha
      exact h.ordered.created t u hawaits
    | owner _ hu => exact hcalls (by rw [(hconn.owner u).1 hu]; nofun)
    | turn _ _ hu =>
      exact hcalls (by rw [(hconn.waiters u).1 (List.mem_of_mem_head? hu)]; nofun)
  | loop hb =>
    have hfits := h.ordered.fits t
    rw [awaitsLoop_site hb] at hfits
    obtain ⟨-, -, b, hbg, hub⟩ := hfits
    exact Nat.lt_of_le_of_lt hub (h.ordered.background b hbg).2
  | owner _ hu =>
    obtain ⟨R, hR⟩ := h.owner hu
    exact hsite (by rw [hR]; nofun)
  | turn _ _ hu =>
    have hq := h.queued (List.mem_of_mem_head? hu)
    exact hsite (by rw [hq]; nofun)

/-- **No deadlock in the service**, over any websocket connector and the Kafka adapter, whatever the
clients call, in every interleaving and with whatever cancellations: nobody waits for himself, not
even through others, and every task waits, if at all, through others for one that is `Ready`: in no
call, or in one that can be resumed.  It may be in no call because `await self._connecting_task`
awaits the task of the attempt, not the attempt, and is left waiting when that call has ended. -/
theorem deadlockFree_of_run {inst : S.Inst} {q : (Kafka.publisher K).State} {n clients : Nat}
    {ls : List (Label (webSocket S cfg message))}
    (hr : run Service.step (Sys.init (Conn.init S inst) q n clients) ls = some s)
    (ht : t < s.service.nextTask) :
    ¬TransGen (WaitsFor s) t t ∧ ∃ u, ReflTransGen (WaitsFor s) t u ∧ Ready s u := by
  have h : s.Sound := run_invariant (P := Sys.Sound) (fun _ _ _ h hs => h.step hs) Sys.sound_init hr
  obtain ⟨u, hu, hend⟩ := h.grounded.exists_end t
  have hcreated : u < s.service.nextTask := by
    rcases hu.cases_tail with rfl | ⟨v, -, hv⟩
    · exact ht
    · exact h.created hv
  exact ⟨h.grounded.acyclic t, u, hu, h.ready hcreated hend⟩

end

/-! ## Waiting for a loop -/

/-- The loop, task 4, dials again.  A `stop()` has cancelled it, a `start()` awaits it under the
lock, and another `stop()` queues for the lock. -/
def redialing : List (Label testConnector) :=
  [.call 0 .start, .resume 0 (.wake .done), .resume 4 (.wake .done),
    .resume 4 (.wake (.raised .connectionClosed)), .resume 4 (.wake .done),
    .resume 4 (.wake .done), .call 1 .stop, .resume 1 .timeout, .call 2 .start, .call 3 .stop]

/-- A new service with four clients. -/
def fourClients : Sys testConnector (Kafka.publisher Kafka.acceptingProducer) :=
  Sys.init (Conn.init _ ()) Kafka.Adapter.init 10 4

/-- `deadlockFree_of_run` of that run. -/
theorem deadlockFree_redialing : ∃ s, run Service.step fourClients redialing = some s ∧
    (WaitsFor s 3 2 ∧ WaitsFor s 2 4 ∧ WaitsFor s 1 4) ∧
    ¬TransGen (WaitsFor s) 3 3 ∧ ∃ u, ReflTransGen (WaitsFor s) 3 u ∧ Ready s u := by
  have hr : run Service.step fourClients redialing =
      some ((run Service.step fourClients redialing).get rfl) := (Option.some_get _).symm
  refine ⟨_, hr, ⟨.owner (by decide) rfl, .connector (.task rfl rfl), .loop rfl rfl⟩, ?_⟩
  exact deadlockFree_of_run hr (by decide)

end FlinkPractices.Service
