import FlinkPractices.Connector.Backoff

/-!
# How long a stream holds out

Any number of tasks on one connector, with whatever calls, cancellations and failures.  They all
draw on one counter of attempts, which any of them sets back by connecting; all the same

* the counter never exceeds the configured limit, `Scheduled` says which delays there are, and
* `stream_market_data()` never returns, gives up only when the limit has been reached, and says so
  (`StreamEnd`); without a limit it never gives up.

## Proof

* `Limited` — the counter is allowed and each task asleep sleeps for a scheduled delay; an edge
  counts on, begins again or leaves the counter alone (`Edge.limits`), and a sleep begins as it
  counts, so the invariant holds of all tasks between them (`keeps_limited`)
* `Point.Ends` — how an operation of some kind may have ended when it reaches a place; kept along
  the edges (`Edge.ends`), so a segment of a stream ends as `StreamEnd` says
  (`streamEnds_of_limited`)

Principal result: `holdsOut_of_run`.  The delay is that of the code, which doubles once more than
the documentation says; `Connector.Backoff` is about the difference.
-/

set_option autoImplicit false

namespace FlinkPractices.Connector

open Lib Function

variable {U : UpperTable} {S : Subclass} (cfg : ExchangeConfig U)

/-- A number of attempts that the limit allows; `0` means without limit. -/
def Allowed (k : Nat) : Prop := cfg.maxReconnectAttempts ≠ 0 → k ≤ cfg.maxReconnectAttempts

/-- A delay before some attempt that the limit allows. -/
def Scheduled (n : Nat) : Prop :=
  ∃ k, 1 ≤ k ∧ Allowed cfg k ∧ n = min (2 ^ k) cfg.exponentialBackoffMaxSeconds

/-- How a stream may end. -/
inductive StreamEnd : Outcome → Prop where
  | cancelled : StreamEnd .cancelled
  | invalidTransition (message : String) : StreamEnd (.raised (.invalidTransitionError message))
  | gaveUp : cfg.maxReconnectAttempts ≠ 0 →
      StreamEnd (.raised (.connectionClosedError
        ("Failed to reconnect after " ++ toString cfg.maxReconnectAttempts ++ " attempts")))

/-- If the step ends a stream, it ends as it may. -/
def Sys.StreamEnds (s : Sys S) : Label S → Prop
  | .call t op => op.kind = .stream →
      ∀ r, (enter cfg s.isDone s.conn t op).2 = .finish r → StreamEnd cfg r
  | .next t => ∀ ms r, (s.tasks t).generator = some ms →
      (yieldMessages cfg s.isDone s.conn t ms).2 = .finish r → StreamEnd cfg r
  | .resume t w => ∀ pc c r, (s.tasks t).call = some pc → pc.kind = .stream →
      advance cfg s.isDone s.conn t pc w = some (c, .finish r) → StreamEnd cfg r
  | _ => True

variable {cfg}

/-! ## The counter and the delays -/

theorem allowed_succ {c : Conn S} (h : shouldAttemptReconnect cfg c = true) :
    Allowed cfg (c.reconnectAttempts + 1) := by
  intro hm
  rw [shouldAttemptReconnect, if_neg hm, decide_eq_true_iff] at h
  exact h

/-- Attempts that are allowed, and the last of them. -/
theorem exhausted_eq {c : Conn S} (h : Allowed cfg c.reconnectAttempts)
    (hx : shouldAttemptReconnect cfg c = false) :
    cfg.maxReconnectAttempts ≠ 0 ∧ c.reconnectAttempts = cfg.maxReconnectAttempts := by
  have hm : cfg.maxReconnectAttempts ≠ 0 := by
    intro hm
    rw [shouldAttemptReconnect, if_pos hm] at hx
    cases hx
  rw [shouldAttemptReconnect, if_neg hm, decide_eq_false_iff_not] at hx
  exact ⟨hm, Nat.le_antisymm (h hm) (Nat.not_lt.1 hx)⟩

/-- A call asleep in its back-off. -/
def Point.sleep : Point S → Option Nat
  | .suspended (.backoff n) => some n
  | .resumed (.backoff n) _ => some n
  | _ => none

/-- The counter is within the limit, and each sleep is one of the schedule. -/
structure Limited (cfg : ExchangeConfig U) (p : TaskId → Point S) (c : Conn S) : Prop where
  attempts : Allowed cfg c.reconnectAttempts
  sleeps : ∀ t n, (p t).sleep = some n → Scheduled cfg n

/-- An edge counts on, begins again or leaves the counter alone; a sleep begins as it counts. -/
theorem Edge.limits {isDone : TaskId → Bool} {t : TaskId} {P P' : Point S} {c c' : Conn S}
    (h : Edge cfg isDone t P c P' c') (ha : Allowed cfg c.reconnectAttempts) :
    Allowed cfg c'.reconnectAttempts ∧ ∀ n, P'.sleep = some n → Scheduled cfg n := by
  cases h
  case connected => exact ⟨fun _ => Nat.zero_le _, nofun⟩
  case backoff hx =>
    have hk := allowed_succ hx
    refine ⟨hk, fun n hn => ?_⟩
    obtain rfl := Option.some.inj hn
    exact ⟨_, Nat.le_add_left 1 _, hk, rfl⟩
  all_goals exact ⟨ha, nofun⟩

theorem Limited.place {p : TaskId → Point S} {c : Conn S} {t : TaskId} {P : Point S}
    (h : Limited cfg p c) (hP : ∀ n, P.sleep = some n → Scheduled cfg n) :
    Limited cfg (update p t P) c := by
  refine ⟨h.attempts, fun u n hu => ?_⟩
  by_cases hut : u = t
  · rw [hut, update_self] at hu
    exact hP n hu
  · rw [update_of_ne hut] at hu
    exact h.sleeps u n hu

theorem keeps_limited (cfg : ExchangeConfig U) :
    Keeps cfg (fun _ _ => True) (Limited (S := S) cfg) where
  edge := by
    intro isDone t p P c P' c' he h
    obtain ⟨ha, hs⟩ := he.limits h.attempts
    refine ⟨ha, fun u n hu => ?_⟩
    by_cases hut : u = t
    · rw [hut, update_self] at hu
      exact hs n hu
    · refine h.sleeps u n ?_
      rw [update_of_ne hut] at hu ⊢
      exact hu
  call _ _ h := h.place nofun
  next _ _ _ h := h.place nofun
  resume := by
    intro s t pc w _ hp h
    refine h.place fun n hn => h.sleeps t n ?_
    rw [hp]
    cases pc <;> exact hn
  rest := by
    intro p t c P h
    refine ⟨h.attempts, fun u n hu => h.sleeps u n ?_⟩
    by_cases hut : u = t
    · rw [hut, update_self] at hu ⊢
      cases P <;> exact hu
    · rw [update_of_ne hut] at hu ⊢
      exact hu

theorem limited_init (inst : S.Inst) :
    Limited cfg (Sys.init S inst).point (Sys.init S inst).conn :=
  ⟨fun _ => Nat.zero_le _, fun _ _ h => by cases h⟩

/-! ## How a segment comes to an end -/

/-- How `connect()` may end. -/
inductive ConnectEnd (cfg : ExchangeConfig U) : Outcome → Prop where
  | returned : ConnectEnd cfg .returned
  | cancelled : ConnectEnd cfg .cancelled
  | failed : ConnectEnd cfg (.raised (connectFailure cfg))
  | invalidTransition (message : String) :
      ConnectEnd cfg (.raised (.invalidTransitionError message))

/-- A place in an operation of kind `κ`. -/
def Point.Of (κ : Kind) : Point S → Prop
  | .enter op => op.kind = κ
  | .suspended pc => pc.kind = κ
  | .resumed pc _ => pc.kind = κ
  | .connect k => k.kind = κ
  | .acquire k => k.kind = κ
  | .locked k => k.kind = κ
  | .attempt k => k.kind = κ
  | .sent k _ => k.kind = κ
  | .failed k => k.kind = κ
  | .ended k _ => k.kind = κ
  | .disconnect => κ = .disconnect
  | .disconnectLocked => κ = .disconnect
  | .disconnectFinish => κ = .disconnect
  | .generator _ => κ = .stream
  | .loop => κ = .stream
  | .receive => κ = .stream
  | .lost => κ = .stream
  | .lostCleanup => κ = .stream
  | .retry => κ = .stream
  | .own _ => κ = .own
  | .idle => True
  | .finished _ => True
  | .yielded _ _ => True

theorem Edge.of {κ : Kind} {isDone : TaskId → Bool} {t : TaskId} {P P' : Point S} {c c' : Conn S}
    (h : Edge cfg isDone t P c P' c') (hP : P.Of κ) : P'.Of κ := by
  cases h <;> first | exact hP | exact hP.symm | trivial

/-- How an operation of kind `κ` may have ended when it reaches a place. -/
def Point.Ends (cfg : ExchangeConfig U) (κ : Kind) : Point S → Prop
  | .ended _ r => ConnectEnd cfg r
  | .finished r => κ = .stream → StreamEnd cfg r
  | _ => True

theorem Edge.ends {κ : Kind} {isDone : TaskId → Bool} {t : TaskId} {P P' : Point S}
    {c c' : Conn S} (h : Edge cfg isDone t P c P' c') (ha : Allowed cfg c.reconnectAttempts)
    (hκ : P.Of κ) (hP : P.Ends cfg κ) : P'.Ends cfg κ := by
  have other : ∀ {κ' : Kind} {r : Outcome}, κ = κ' → κ' ≠ .stream →
      (Point.finished r : Point S).Ends cfg κ := fun h hne hs => absurd (h.symm.trans hs) hne
  cases h
  -- `connect()`
  case connectAlready | taskReturned | lockedAlready | lockedReturned | connected =>
    exact .returned
  case taskCancelled | lockCancelled | lockedCancelled | dialCancelled | sendCancelled |
      closeCancelled => exact .cancelled
  case failNone | closeReturned | closeRaised => exact .failed
  case failInvalid => exact .invalidTransition _
  -- after it
  case endedTask => exact other hκ.symm (by decide)
  case endedStreamCancelled | endedReconnectCancelled => exact fun _ => .cancelled
  case endedReconnectInvalid => exact fun _ => .invalidTransition _
  case endedReconnectRaised he =>
    intro _
    -- `connect()` raises nothing else that the loop does not catch
    cases hP with
    | failed => cases he
    | invalidTransition message => exact .invalidTransition message
  -- `disconnect()`
  case disconnectAlready | disconnectedAlready | disconnected | disconnectInvalid =>
    exact other hκ (by decide)
  case disconnectLockCancelled | disconnectCloseCancelled => exact other hκ.symm nofun
  -- the stream
  case recvCancelled | lostCancelled | backoffCancelled => exact fun _ => .cancelled
  case wokenInvalid => exact fun _ => .invalidTransition _
  case giveUpFailed hx _ | giveUp hx _ =>
    intro _
    obtain ⟨hm, hn⟩ := exhausted_eq ha hx
    rw [reconnectFailure, hn]
    exact .gaveUp hm
  -- the subclass's own coroutines
  case ownReturned | ownRaised => exact other hκ (by decide)
  case ownCancelled => exact other hκ.symm nofun
  all_goals trivial

theorem Path.ends {κ : Kind} {isDone : TaskId → Bool} {t : TaskId} {x y : Point S × Conn S}
    (h : Path cfg isDone t x y) (ha : Allowed cfg x.2.reconnectAttempts) (hκ : x.1.Of κ)
    (hx : x.1.Ends cfg κ) : y.1.Ends cfg κ := by
  have all : Allowed cfg y.2.reconnectAttempts ∧ y.1.Of κ ∧ y.1.Ends cfg κ := by
    induction h with
    | refl => exact ⟨ha, hκ, hx⟩
    | tail _ he ih =>
      obtain ⟨ha, hκ, hy⟩ := ih
      exact ⟨(he.limits ha).1, he.of hκ, he.ends ha hκ hy⟩
  exact all.2.2

/-! ## Results -/

/-- A step ends a stream as it may. -/
theorem streamEnds_of_limited {s : Sys S} (h : Limited cfg s.point s.conn) (l : Label S) :
    s.StreamEnds cfg l := by
  cases l with
  | call t op =>
    intro hκ r hr
    have hpath : Path cfg s.isDone t (.enter op, s.conn) _ := enter_path s.conn op
    have hend : Point.Ends cfg .stream _ := hpath.ends h.attempts hκ trivial
    rw [hr] at hend
    exact hend rfl
  | next t =>
    intro ms r _ hr
    have hpath : Path cfg s.isDone t (.generator ms, s.conn) _ := yieldMessages_path s.conn ms
    have hend : Point.Ends cfg .stream _ := hpath.ends h.attempts rfl trivial
    rw [hr] at hend
    exact hend rfl
  | resume t w =>
    intro pc c r _ hκ hr
    have hend : (Point.finished r : Point S).Ends cfg .stream :=
      (advance_path hr).ends h.attempts hκ trivial
    exact hend rfl
  | cancel | exit => trivial

/-- **A stream holds out.**  In every run of any tasks, with whatever cancellations and failures,
the attempts are within the limit and the delays on the schedule; no stream returns, and one that
gives up has used the limit up. -/
theorem holdsOut_of_run {inst : S.Inst} {ls : List (Label S)} {s : Sys S}
    (hr : run (step cfg) (Sys.init S inst) ls = some s) :
    Allowed cfg s.conn.reconnectAttempts ∧
    (∀ t n, (s.tasks t).call = some (.backoff n) → Scheduled cfg n) ∧
    Guarded (step cfg) (Sys.StreamEnds cfg) (Sys.init S inst) ls := by
  have hkeep : ∀ (s : Sys S) l s', Limited cfg s.point s.conn → step cfg s l = some s' →
      Limited cfg s'.point s'.conn := fun _ _ _ h hs => (keeps_limited cfg).step trivial h hs
  have h₀ : Limited cfg (Sys.init S inst).point (Sys.init S inst).conn := limited_init inst
  have hend := run_invariant (P := fun s => Limited cfg s.point s.conn) hkeep h₀ hr
  refine ⟨hend.attempts, fun t n hc => hend.sleeps t n ?_,
    .of_invariant (I := fun s => Limited cfg s.point s.conn) hkeep
      (fun _ l h => streamEnds_of_limited h l) h₀⟩
  rw [Sys.point_suspended.2 hc]
  rfl

/-- Two streams that lose the connection together and share the attempts; one of them is cancelled
while it sleeps, no dial succeeds, and the other gives up. -/
def sharedAttempts : List (Label concurrencyTestConnector) :=
  [.call 0 .stream, .resume 0 .done, .call 1 .stream, .resume 0 (.raised .connectionClosed),
    .resume 0 .done, .resume 1 (.raised .connectionClosed), .cancel 0 1, .resume 0 .cancelled,
    .resume 1 .done, .resume 1 (.raised .osError), .resume 1 .done, .resume 1 (.raised .osError)]

/-- `holdsOut_of_run` of that run. -/
theorem holdsOut_sharedAttempts : ∃ s,
    run (step testConfig) (Sys.init concurrencyTestConnector ()) sharedAttempts = some s ∧
    s.conn.reconnectAttempts = 3 ∧
    Allowed testConfig s.conn.reconnectAttempts ∧
    (∀ t n, (s.tasks t).call = some (.backoff n) → Scheduled testConfig n) ∧
    Guarded (step testConfig) (Sys.StreamEnds testConfig) (Sys.init concurrencyTestConnector ())
      sharedAttempts :=
  ⟨_, rfl, rfl, holdsOut_of_run rfl⟩

end FlinkPractices.Connector
