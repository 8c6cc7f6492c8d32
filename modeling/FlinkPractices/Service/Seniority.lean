import FlinkPractices.Connector.Limits
import FlinkPractices.Connector.Progress
import FlinkPractices.Service.Flow

/-!
# Who was there first

A consumption task may await a client, whose attempt it has found in flight, long after the
attempt: `connect()` awaits the whole task.  That this client does not in turn wait for it, in a
`stop()`, is a matter of who was there first (`Ordered`): a client that stops the service waits for
a consumption task that was created after everything that awaits the client, and a client that
connects under the lock awaits nobody who awaits a client.

Principal results: `Edge.ordered` (every edge of the control-flow graph keeps the order) and
`Sys.Sound.step` (so does every step of the system).

## Proof

* `Site.Fits` — where a task may stand: clients in calls of the service, the other tasks in the loop
* `Reaches` — who awaits whom in the connector, through others as well; an edge adds a wait only for
  a task that is making an attempt (`Edge.awaits_update`)
* `Edge.keeps_lock`, `Edge.keeps_background`, … — the parts of the order one after the other; each
  may use all of them before the edge
* `Edge.to_waits`, `Edge.to_connect` — the only edges at which a wait for a loop begins, and at
  which a client comes to connect under the lock
* `Sys.Sound` — the order, the connector's own discipline, and that a task that is done is in no
  call

`Service.Progress` draws the conclusion.
-/

set_option autoImplicit false

namespace FlinkPractices.Service

open Lib Function Relation
open Connector (TaskId Conn Subclass Point Kind Awaits Disciplined Orderly)

variable {U : UpperTable} {S : Subclass} {cfg : ExchangeConfig U}

/-! ## Who is where -/

def Site.lockStatus : Site S → AsyncLock.Status
  | .queued => .waiting
  | .locked => .holding
  | .calls .connect _ => .holding
  | _ => .idle

/-- A site where task `t` may stand. -/
def Site.Fits (clients : Nat) (t : TaskId) (x : Shared S) : Site S → Prop
  | .idle => True
  | .queued => t < clients
  | .locked => t < clients
  | .waits b => t < clients ∧ clients ≤ b ∧ ∃ b', x.backgroundTask = some b' ∧ b ≤ b'
  | .calls .connect P => t < clients ∧ x.running = false ∧ P.Of .connect
  | .calls .disconnect P => t < clients ∧ P.Of .disconnect
  | .calls .stream P => clients ≤ t ∧ t < x.nextTask ∧ P.Of .stream
  | .calls .own _ => False

/-- Where the tasks stand in the connector. -/
def points (p : TaskId → Site S) (t : TaskId) : Point S := (p t).point

/-- Task `a` awaits, perhaps through others, the task `v`. -/
def Reaches (p : TaskId → Site S) : TaskId → TaskId → Prop := TransGen (Awaits (points p))

/-- Who was there first. -/
structure Ordered (clients : Nat) (p : TaskId → Site S) (x : Shared S) : Prop where
  lock : x.lock.Coherent fun t => (p t).lockStatus
  known : clients ≤ x.nextTask
  background : ∀ b, x.backgroundTask = some b → clients ≤ b ∧ b < x.nextTask
  fits : ∀ t, (p t).Fits clients t x
  /-- awaited tasks have been created -/
  created : ∀ a v, Awaits (points p) a v → v < x.nextTask
  /-- whoever awaits a client is older than the loop of the running service -/
  running : x.running = true → ∀ b, x.backgroundTask = some b →
    ∀ a v, v < clients → Reaches p a v → a < b
  /-- and than the loop that the client waits for -/
  stopping : ∀ v b, p v = .waits b → ∀ a, Reaches p a v → a < b
  /-- a client under the lock awaits no client -/
  connecting : ∀ t P, p t = .calls .connect P → ∀ v, v < clients → ¬Reaches p t v

theorem Site.Fits.created {clients : Nat} {t : TaskId} {x : Shared S} {P : Site S}
    (h : P.Fits clients t x) (hc : clients ≤ x.nextTask) (hP : P ≠ .idle) : t < x.nextTask := by
  cases P with
  | idle => exact absurd rfl hP
  | queued | locked => exact Nat.lt_of_lt_of_le h hc
  | waits b => exact Nat.lt_of_lt_of_le h.1 hc
  | calls κ P =>
    cases κ with
    | connect | disconnect => exact Nat.lt_of_lt_of_le h.1 hc
    | stream => exact h.2.1
    | own => exact h.elim

/-- An attempt is made in `connect()`, or on behalf of a stream. -/
theorem attempting_kind {κ : Kind} {P : Point S} (h : P.Of κ)
    (hP : P.attempting = true) : κ = .connect ∨ κ = .stream := by
  have caller : ∀ k : Connector.Caller, k.kind = κ → κ = .connect ∨ κ = .stream := by
    intro k hk
    cases k with
    | task => exact .inl hk.symm
    | stream | reconnect => exact .inr hk.symm
  cases P with
  | suspended pc | resumed pc =>
    cases pc with
    | connect k pc => exact caller k h
    | _ => cases hP
  | attempt k | sent k | failed k => exact caller k h
  | _ => cases hP

/-- A client that makes an attempt is in `start()`. -/
theorem Ordered.attempts {clients : Nat} {p : TaskId → Site S} {x : Shared S}
    (h : Ordered clients p x) {v : TaskId} (hv : v < clients)
    (ha : (points p v).attempting = true) : ∃ P, p v = .calls .connect P := by
  have hfits := h.fits v
  unfold points at ha
  cases hp : p v with
  | calls κ P =>
    rw [hp] at hfits ha
    cases κ with
    | connect => exact ⟨P, rfl⟩
    | disconnect =>
      rcases attempting_kind hfits.2 ha with hκ | hκ <;> cases hκ
    | stream => exact absurd hv (Nat.not_lt.2 hfits.1)
    | own => exact hfits.elim
  | _ =>
    rw [hp] at ha
    cases ha

/-! ## What an edge keeps -/

theorem Edge.lockSteps {clients : Nat} {t : TaskId} {P P' : Site S} {x x' : Shared S}
    (h : Edge cfg clients t P x P' x') :
    AsyncLock.LockSteps t (x.lock, P.lockStatus) (x'.lock, P'.lockStatus) := by
  cases h with
  | acquire _ hl => exact .single (.acquire hl)
  | enqueue => exact .single .enqueue
  | woken hl => exact .single (.wake hl)
  | abandoned => exact .single .abandon
  | released | started | startFailed | stopped | stopping => exact .single .release
  | connect | timedOut | waited | disconnect | stream => exact .refl
  | @edge κ | @resumed κ => cases κ <;> exact .refl
  | @ended κ _ _ hκ =>
    cases κ with
    | connect => exact absurd rfl hκ
    | _ => exact .refl

theorem Site.Fits.mono {clients : Nat} {t : TaskId} {x x' : Shared S} {P : Site S}
    (h : P.Fits clients t x) (hn : x.nextTask ≤ x'.nextTask)
    (hb : ∀ b, x.backgroundTask = some b → ∃ b', x'.backgroundTask = some b' ∧ b ≤ b')
    (hr : P.lockStatus = .holding → x.running = false → x'.running = false) :
    P.Fits clients t x' := by
  cases P with
  | idle => trivial
  | queued | locked => exact h
  | waits b =>
    obtain ⟨ht, hc, b₁, h₁, hle⟩ := h
    obtain ⟨b₂, h₂, hle'⟩ := hb b₁ h₁
    exact ⟨ht, hc, b₂, h₂, Nat.le_trans hle hle'⟩
  | calls κ P =>
    cases κ with
    | connect => exact ⟨h.1, hr rfl h.2.1, h.2.2⟩
    | disconnect => exact h
    | stream => exact ⟨h.1, Nat.lt_of_lt_of_le h.2.1 hn, h.2.2⟩
    | own => exact h

section

variable {clients : Nat} {t : TaskId} {p : TaskId → Site S} {P P' : Site S} {x x' : Shared S}

/-- What an edge does to the flag and to the background task. -/
theorem Edge.flags (h : Edge cfg clients t P x P' x') (hP : P.Fits clients t x) :
    x'.nextTask = x.nextTask ∧ x'.backgroundTask = x.backgroundTask ∧
        (x'.running = true → x.running = true) ∨
      x'.nextTask = x.nextTask + 1 ∧ x'.backgroundTask = some x.nextTask ∧
        P.lockStatus = .holding ∧ P' = .idle ∧ x.running = false := by
  cases h with
  | started => exact .inr ⟨rfl, rfl, rfl, rfl, hP.2.1⟩
  | stopped | stopping => exact .inl ⟨rfl, rfl, nofun⟩
  | _ => exact .inl ⟨rfl, rfl, id⟩

/-- The task itself stands where it may. -/
theorem Edge.fits_self (h : Edge cfg clients t P x P' x') (hP : P.Fits clients t x)
    (hb : ∀ b, x.backgroundTask = some b → clients ≤ b) : P'.Fits clients t x' := by
  cases h with
  | acquire ht | enqueue ht | disconnect ht => first | exact ht | exact ⟨ht, rfl⟩
  | woken => exact hP
  | abandoned | released | started | startFailed | stopped | waited | ended => trivial
  | connect hr => exact ⟨hP, hr, rfl⟩
  | stopping _ hx => exact ⟨hP, hb _ hx, _, hx, Nat.le_refl _⟩
  | timedOut hx => exact ⟨hP.1, hb _ hx, _, hx, Nat.le_refl _⟩
  | stream ht hn => exact ⟨ht, hn, rfl⟩
  | @edge κ _ _ _ _ _ he =>
    cases κ with
    | connect => exact ⟨hP.1, hP.2.1, he.of hP.2.2⟩
    | disconnect => exact ⟨hP.1, he.of hP.2⟩
    | stream => exact ⟨hP.1, hP.2.1, he.of hP.2.2⟩
    | own => exact hP
  | @resumed κ =>
    cases κ with
    | connect => exact ⟨hP.1, hP.2.1, hP.2.2⟩
    | disconnect => exact ⟨hP.1, hP.2⟩
    | stream => exact ⟨hP.1, hP.2.1, hP.2.2⟩
    | own => exact hP

/-- A task that an edge begins to await is making an attempt, and is another one. -/
theorem Edge.awaits {v : TaskId} (h : Edge cfg clients t P x P' x')
    (hv : P'.point.awaited = some v) :
    P.point.awaited = some v ∨ x.conn.connectingTask = some v ∧ P.point.attempting = false := by
  cases h with
  | edge he => exact .inr (he.awaits hv)
  | resumed => exact .inl hv
  | _ => cases hv

theorem points_update (p : TaskId → Site S) (t : TaskId) (P : Site S) :
    points (update p t P) = update (points p) t P.point := by
  funext u
  by_cases hut : u = t
  · rw [hut, points, update_self, update_self]
  · rw [points, update_of_ne hut, update_of_ne hut]
    rfl

/-- Whom the tasks await after an edge: as before, or one that is making an attempt. -/
theorem Edge.awaits_update (h : Edge cfg clients t P x P' x') {a v : TaskId}
    (hw : Awaits (points (update p t P')) a v) : Awaits (points (update p t P)) a v ∨
      x.conn.connectingTask = some v ∧ P.point.attempting = false := by
  unfold Awaits at hw ⊢
  rw [points_update] at hw ⊢
  by_cases hat : a = t
  · subst hat
    rw [update_self] at hw ⊢
    exact h.awaits hw
  · rw [update_of_ne hat] at hw ⊢
    exact .inl hw

theorem Edge.reaches (h : Edge cfg clients t P x P' x')
    (hd : Disciplined (points (update p t P)) x.conn) {a v : TaskId}
    (hr : Reaches (update p t P') a v) : Reaches (update p t P) a v ∨
      (points (update p t P) v).attempting = true ∧ ∀ u, ¬Reaches (update p t P') v u := by
  have hsink : ∀ v, x.conn.connectingTask = some v ∧ P.point.attempting = false →
      ∀ u, ¬Awaits (points (update p t P')) v u := by
    intro v ⟨hc, hP⟩ u hw
    have ha := (hd.connecting v).1 hc
    have hvt : v ≠ t := by
      rintro rfl
      rw [points_update, update_self, hP] at ha
      cases ha
    rw [points_update, update_of_ne hvt] at ha
    unfold Awaits at hw
    rw [points_update, update_of_ne hvt] at hw
    rw [(Connector.Point.awaited_some hw).1] at ha
    cases ha
  have hcases := transGen_of_sinks
    (N := fun v => x.conn.connectingTask = some v ∧ P.point.attempting = false)
    (fun _ _ hw => h.awaits_update hw) hsink hr
  refine hcases.imp_right fun hv => ⟨(hd.connecting v).1 hv.1, fun u hu => ?_⟩
  obtain ⟨w, hw, -⟩ := TransGen.head'_iff.1 hu
  exact hsink v hv w hw

/-- Where a wait for a loop begins. -/
theorem Edge.to_waits {b : TaskId} (h : Edge cfg clients t P x (.waits b) x') :
    x.backgroundTask = some b ∧ (x.running = true ∧ P = .locked ∨ ∃ b', P = .waits b') := by
  cases h with
  | stopping hr hb => exact ⟨hb, .inl ⟨hr, rfl⟩⟩
  | timedOut hb => exact ⟨hb, .inr ⟨_, rfl⟩⟩

/-- Where `connect()` is called. -/
theorem Edge.to_connect {R : Point S} (h : Edge cfg clients t P x (.calls .connect R) x') :
    P.lockStatus = .holding ∧ (P = .locked ∨ ∃ R', P = .calls .connect R') := by
  cases h with
  | connect => exact ⟨rfl, .inl rfl⟩
  | edge | resumed => exact ⟨rfl, .inr ⟨_, rfl⟩⟩

/-- Nobody is awaited outside the connector. -/
theorem not_reaches {t v : TaskId} (h : (p t).point = .idle) : ¬Reaches p t v := by
  intro hr
  obtain ⟨w, hw, -⟩ := TransGen.head'_iff.1 hr
  unfold Awaits points at hw
  rw [h] at hw
  cases hw

theorem Ordered.attempting_created (h : Ordered clients p x) {v : TaskId}
    (ha : (points p v).attempting = true) : v < x.nextTask := by
  apply (h.fits v).created h.known
  intro hv
  unfold points at ha
  rw [hv] at ha
  cases ha

theorem Ordered.self (hJ : Ordered clients (update p t P) x) : P.Fits clients t x := by
  have hfits := hJ.fits t
  rwa [update_self] at hfits

theorem Edge.nextTask_le (h : Edge cfg clients t P x P' x') (hP : P.Fits clients t x) :
    x.nextTask ≤ x'.nextTask := by
  rcases h.flags hP with ⟨he, -⟩ | ⟨he, -⟩ <;> rw [he]
  exact Nat.le_succ _

theorem lockStatus_update (p : TaskId → Site S) (t : TaskId) (P : Site S) :
    (fun u => (update p t P u).lockStatus) =
      update (fun u => (p u).lockStatus) t P.lockStatus := by
  funext u
  by_cases hut : u = t
  · rw [hut, update_self, update_self]
  · rw [update_of_ne hut, update_of_ne hut]

/-! ### One part of the order after the other -/

theorem Edge.keeps_lock (h : Edge cfg clients t P x P' x')
    (hJ : Ordered clients (update p t P) x) :
    x'.lock.Coherent fun u => (update p t P' u).lockStatus := by
  have hlock := hJ.lock
  rw [lockStatus_update] at hlock ⊢
  have hsteps : AsyncLock.LockSteps t
      (x.lock, update (fun u => (p u).lockStatus) t P.lockStatus t) (x'.lock, P'.lockStatus) := by
    rw [update_self]
    exact h.lockSteps
  have := hlock.steps hsteps
  rwa [update_idem] at this

theorem Edge.keeps_background (h : Edge cfg clients t P x P' x')
    (hJ : Ordered clients (update p t P) x) (b : TaskId) (hb : x'.backgroundTask = some b) :
    clients ≤ b ∧ b < x'.nextTask := by
  rcases h.flags hJ.self with ⟨he, hb', -⟩ | ⟨he, hb', -⟩
  · rw [hb'] at hb
    rw [he]
    exact hJ.background b hb
  · rw [hb'] at hb
    cases hb
    rw [he]
    exact ⟨hJ.known, Nat.lt_succ_self _⟩

theorem Edge.keeps_fits (h : Edge cfg clients t P x P' x')
    (hJ : Ordered clients (update p t P) x) (u : TaskId) :
    (update p t P' u).Fits clients u x' := by
  by_cases hut : u = t
  · rw [hut, update_self]
    exact h.fits_self hJ.self fun b hb => (hJ.background b hb).1
  · have hu := hJ.fits u
    rw [update_of_ne hut] at hu ⊢
    refine hu.mono (h.nextTask_le hJ.self) (fun b hb => ?_) (fun hhold hr => ?_)
    · rcases h.flags hJ.self with ⟨-, hb', -⟩ | ⟨-, hb', -⟩
      · exact ⟨b, hb'.trans hb, Nat.le_refl _⟩
      · exact ⟨_, hb', Nat.le_of_lt (hJ.background b hb).2⟩
    · rcases h.flags hJ.self with ⟨-, -, hr'⟩ | ⟨-, -, hhold', -⟩
      · exact Bool.eq_false_iff.2 fun ht => by rw [hr' ht] at hr; cases hr
      · exact absurd (hJ.lock.mutex (by rw [update_of_ne hut]; exact hhold)
          (by rw [update_self]; exact hhold')) hut

theorem Edge.keeps_created (h : Edge cfg clients t P x P' x')
    (hd : Disciplined (points (update p t P)) x.conn) (hJ : Ordered clients (update p t P) x)
    (a v : TaskId) (hw : Awaits (points (update p t P')) a v) : v < x'.nextTask := by
  apply Nat.lt_of_lt_of_le _ (h.nextTask_le hJ.self)
  rcases h.awaits_update hw with hold | ⟨hc, -⟩
  · exact hJ.created a v hold
  · exact hJ.attempting_created ((hd.connecting v).1 hc)

theorem Edge.keeps_running (h : Edge cfg clients t P x P' x')
    (hd : Disciplined (points (update p t P)) x.conn) (hJ : Ordered clients (update p t P) x)
    (hr : x'.running = true) (b : TaskId) (hb : x'.backgroundTask = some b) (a v : TaskId)
    (hv : v < clients) (hreach : Reaches (update p t P') a v) : a < b := by
  rcases h.flags hJ.self with ⟨-, hb', hr'⟩ | ⟨-, hb', -, hidle, -⟩
  · rcases h.reaches hd hreach with hold | ⟨ha, -⟩
    · exact hJ.running (hr' hr) b (hb'.symm.trans hb) a v hv hold
    · -- clients make attempts in `start()`, while the service is not running
      obtain ⟨R, hR⟩ := hJ.attempts hv ha
      have hfits := hJ.fits v
      rw [hR] at hfits
      rw [hfits.2.1] at hr'
      cases hr' hr
  · rw [hb'] at hb
    cases hb
    -- the loop that has just been created is the youngest
    by_cases hat : a = t
    · subst hat
      exact absurd hreach (not_reaches (by rw [update_self, hidle]; rfl))
    · apply (hJ.fits a).created hJ.known
      intro ha
      rw [update_of_ne hat] at ha
      exact not_reaches (by rw [update_of_ne hat, ha]; rfl) hreach

theorem Edge.keeps_stopping (h : Edge cfg clients t P x P' x')
    (hd : Disciplined (points (update p t P)) x.conn) (hJ : Ordered clients (update p t P) x)
    (v b : TaskId) (hv : update p t P' v = .waits b) (a : TaskId)
    (hreach : Reaches (update p t P') a v) : a < b := by
  have hP : P.Fits clients t x := hJ.self
  by_cases hvt : v = t
  · subst hvt
    rw [update_self] at hv
    subst hv
    obtain ⟨hb, ⟨hr, rfl⟩ | ⟨b', rfl⟩⟩ := h.to_waits
    · rcases h.reaches hd hreach with hold | ⟨ha, -⟩
      · exact hJ.running hr b hb a v hP hold
      · rw [points_update, update_self] at ha
        cases ha
    · rcases h.reaches hd hreach with hold | ⟨ha, -⟩
      · obtain ⟨-, -, b₁, h₁, hle⟩ := hP
        rw [hb] at h₁
        cases h₁
        exact Nat.lt_of_lt_of_le (hJ.stopping v b' (update_self ..) a hold) hle
      · rw [points_update, update_self] at ha
        cases ha
  · rw [update_of_ne hvt] at hv
    rcases h.reaches hd hreach with hold | ⟨ha, -⟩
    · exact hJ.stopping v b (by rw [update_of_ne hvt]; exact hv) a hold
    · unfold points at ha
      rw [update_of_ne hvt, hv] at ha
      cases ha

theorem Edge.keeps_connecting (h : Edge cfg clients t P x P' x')
    (hd : Disciplined (points (update p t P)) x.conn) (hJ : Ordered clients (update p t P) x)
    (w : TaskId) (R : Point S) (hw : update p t P' w = .calls .connect R) (v : TaskId)
    (hv : v < clients) : ¬Reaches (update p t P') w v := by
  intro hreach
  have hhold : (update p t P w).lockStatus = .holding ∧ ¬Reaches (update p t P) w v := by
    by_cases hwt : w = t
    · subst hwt
      rw [update_self] at hw ⊢
      subst hw
      obtain ⟨hhold, rfl | ⟨R', rfl⟩⟩ := h.to_connect
      · exact ⟨hhold, not_reaches (by rw [update_self]; rfl)⟩
      · exact ⟨hhold, hJ.connecting w R' (update_self ..) v hv⟩
    · rw [update_of_ne hwt] at hw ⊢
      exact ⟨by rw [hw]; rfl, hJ.connecting w R (by rw [update_of_ne hwt]; exact hw) v hv⟩
  rcases h.reaches hd hreach with hold | ⟨ha, hsink⟩
  · exact hhold.2 hold
  · -- both are under the lock
    obtain ⟨R', hR'⟩ := hJ.attempts hv ha
    have hvw : v = w := hJ.lock.mutex (by rw [hR']; rfl) hhold.1
    subst hvw
    exact hsink v hreach

/-- **Every edge keeps the order.** -/
theorem Edge.ordered (h : Edge cfg clients t P x P' x')
    (hd : Disciplined (points (update p t P)) x.conn) (hJ : Ordered clients (update p t P) x) :
    Ordered clients (update p t P') x' where
  lock := h.keeps_lock hJ
  known := Nat.le_trans hJ.known (h.nextTask_le hJ.self)
  background := h.keeps_background hJ
  fits := h.keeps_fits hJ
  created := h.keeps_created hd hJ
  running := h.keeps_running hd hJ
  stopping := h.keeps_stopping hd hJ
  connecting := h.keeps_connecting hd hJ

end

/-! ## What every run keeps -/

theorem Path.ordered {clients : Nat} {t : TaskId} {p : TaskId → Site S}
    {x y : Site S × Shared S} (hrest : ∀ u, Resting (points p u)) (hp : Path cfg clients t x y)
    (ho : Orderly (points (update p t x.1)) x.2.conn) (hx : Ordered clients (update p t x.1) x.2) :
    Ordered clients (update p t y.1) y.2 := by
  rw [points_update] at ho
  induction hp with
  | refl => exact hx
  | tail hprefix he ih =>
    have hy := inherited_path ((Connector.keeps_orderly cfg).weaken fun _ _ _ => trivial) hrest hprefix ho
    rw [← points_update] at hy
    exact he.ordered hy.disciplined ih

variable {message : S.Msg → MarketDataMessage} {Q : PublisherPort}

/-- The invariant of all runs. -/
structure Sys.Sound (s : Sys (webSocket S cfg message) Q) : Prop where
  roles : s.Roles
  orderly : Orderly s.point s.service.connector
  ordered : Ordered s.clients s.site s.service.shared
  /-- a task in a call is not done -/
  live : ∀ t, (s.tasks t).call ≠ none → s.outcome t = none

section

variable {s s' : Sys (webSocket S cfg message) Q} {l : Label (webSocket S cfg message)}

/-- A step leaves no call behind in a task that is done. -/
theorem live_step (h : ∀ t, (s.tasks t).call ≠ none → s.outcome t = none)
    (hs : Service.step s l = some s') (u : TaskId) (hu : (s'.tasks u).call ≠ none) :
    s'.outcome u = none := by
  have settled : ∀ {t : TaskId}
      {r : IngestionService (webSocket S cfg message) Q × Act (webSocket S cfg message) Q},
      Settled s s' t r → s'.outcome u = none := by
    intro t r hset
    by_cases hut : u = t
    · subst hut
      rw [hset.call] at hu
      rw [hset.outcome]
      obtain ⟨v, a⟩ := r
      cases a with
      | finish o => exact absurd rfl hu
      | _ => rfl
    · rw [(hset.others u hut).1] at hu
      rw [(hset.others u hut).2]
      exact h u hu
  cases step_move hs with
  | call _ ho _ => exact settled (s.settle_settled _ _ ho)
  | resume _ ho _ _ _ => exact settled (s.settle_settled _ _ ho)
  | @cancel t _ _ =>
    obtain ⟨hcall, hout, -⟩ := s.cancel_tasks t u
    rw [hcall] at hu
    exact hout.trans (h u hu)
  | @exit t o _ _ hc =>
    by_cases hut : u = t
    · subst hut
      rw [Sys.setTask_self] at hu
      exact absurd hc hu
    · rw [Sys.setTask_ne s hut] at hu
      rw [Sys.outcome, Sys.setTask_ne s hut]
      exact h u hu

theorem Sys.Sound.step (h : s.Sound) (hs : Service.step s l = some s') : s'.Sound := by
  have hclients : s'.clients = s.clients := by
    cases step_effect hs with
    | first _ _ _ hset => exact hset.clients
    | later _ _ _ _ _ hset => exact hset.clients
    | quiet _ _ hclients => exact hclients
  have horderly := inherited_step ((Connector.keeps_orderly cfg).weaken fun _ _ _ => trivial)
    h.roles h.orderly hs
  refine ⟨h.roles.step hs, horderly, ?_, live_step h.live hs⟩
  rw [hclients]
  rcases step_path h.roles hs with ⟨t, P', hp, he⟩ | ⟨hsite, hshared⟩
  · rw [he]
    refine Path.ordered (p := s.site) s.point_resting hp ?_ ?_
    · rw [update_eq_self]
      exact h.orderly
    · rw [update_eq_self]
      exact h.ordered
  · rw [hsite, hshared]
    exact h.ordered

end

theorem Sys.sound_init {inst : S.Inst} {q : Q.State} {maxConsecutiveFailures clients : Nat} :
    (Sys.init (P := webSocket S cfg message) (Q := Q) (Conn.init S inst) q maxConsecutiveFailures
      clients).Sound := by
  have hsite : ∀ t, (Sys.init (P := webSocket S cfg message) (Q := Q) (Conn.init S inst) q
      maxConsecutiveFailures clients).site t = .idle := by
    intro t
    unfold Sys.site Sys.init
    dsimp only
    split <;> rfl
  refine ⟨Sys.roles_init, ?_, ?_, fun _ _ => rfl⟩
  · rw [Sys.point_init]
    exact Connector.orderly_init inst
  · refine ⟨?_, Nat.le_refl _, nofun, fun t => ?_, fun a v hw => ?_, nofun, fun v b hv => ?_,
      fun t P hP => ?_⟩
    · have hidle : (fun t => ((Sys.init (P := webSocket S cfg message) (Q := Q) (Conn.init S inst) q
          maxConsecutiveFailures clients).site t).lockStatus) = fun _ => .idle := by
        funext t
        rw [hsite]
        rfl
      rw [hidle]
      exact AsyncLock.coherent_free
    · rw [hsite]
      trivial
    · unfold Awaits points at hw
      rw [hsite] at hw
      cases hw
    · rw [hsite] at hv
      cases hv
    · rw [hsite] at hP
      cases hP

end FlinkPractices.Service
