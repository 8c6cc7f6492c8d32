import FlinkPractices.Upbit.Seeds

/-!
# `connect()` comes to an end

A `connect()` may wait for another task's attempt, for the lock, once more for an attempt, for the
new socket and then for each request it sends.  It passes each of these places at most once:
`connectRank` counts the places that are still to come, and every segment lowers it.  With no more
than the two seeds in the registry it is never above 6.

## Proof

* `sendsLeft` — the first send on a socket is followed by one more at the most, that of the order
  books or that of the second entry (`sendSubscriptionMessage_sendsLeft`, `resumeSend_sendsLeft`).
* `AtMost n` — a segment ends the call, or leaves it with the rank `n` at the most.  It is stated
  of each coroutine of `connect()` in the order in which they call each other, innermost first.
* `OnlySeeds.length_le` — without `subscribe()` the registry has two entries at the most, which is
  what bounds the sends of a replay.

Principal results: `resumeConnect_lowers`, and `Wire.connectRank_le` for the bound.

The rank counts resumptions, not seconds: a dial or a send that never answers leaves the call where
it is.
-/

set_option autoImplicit false

namespace FlinkPractices.Upbit

open Lib Connector

variable {U : UpperTable} {env : Environment} {cfg : ExchangeConfig U}

/-- How many sends may follow the one that is under way. -/
def sendsLeft : Coro → Nat
  | .seedTrade _ => 1
  | .seedOrderbook => 0
  | .replay pos size => size - (pos + 1)
  | .subscribe => 0

/-- How often a suspended `connect()` can be resumed without ending, if the first send on a socket
is followed by one more at the most. -/
def connectRank : ConnectPc (upbit env cfg) → Nat
  | .awaitTask _ => 6
  | .lock => 5
  | .awaitTaskLocked _ => 4
  | .dialing => 3
  | .sending _ _ q => sendsLeft q + 1
  | .closing _ => 0

/-! ## The sends -/

theorem replayNext_send {r : Registry} {ws : Option Ws} {pos size : Nat} {w : Ws} {x : Request}
    {q : Coro} (h : wrapFailure (replayNext r ws pos size) = .send w x q) :
    q = .replay pos size ∧ pos < size := by
  unfold replayNext at h
  split at h
  · rename_i hsize
    split at h
    · rename_i e he
      obtain ⟨hpos, -⟩ := List.getElem?_eq_some_iff.1 he
      cases ws with
      | none => cases h
      | some w =>
        cases h
        exact ⟨rfl, hsize ▸ hpos⟩
    · cases h
  · cases h

/-- The first send on a socket is followed by one more at the most: that of the order books, or of
the second entry. -/
theorem sendSubscriptionMessage_sendsLeft {r i : Registry} {ws : Option Ws} {w : Ws} {x : Request}
    {q : Coro} (hr : r.requests.length ≤ 2)
    (h : sendSubscriptionMessage env cfg r ws = (i, .send w x q)) : sendsLeft q ≤ 1 := by
  have hlen : r.subscriptions.length ≤ 2 := by
    rwa [Registry.requests, List.length_map] at hr
  unfold sendSubscriptionMessage at h
  split at h
  · cases h
  · split at h
    · cases h
      exact Nat.le_refl 1
    · obtain ⟨rfl, -⟩ := replayNext_send (Prod.mk.inj h).2
      exact Nat.sub_le_of_le_add hlen

/-- A send is followed by one with fewer to come. -/
theorem resumeSend_sendsLeft {r i : Registry} {ws : Option Ws} {q q' : Coro} {e : Option PyExn}
    {w : Ws} {x : Request} (h : resumeSend env U r ws q e = (i, .send w x q')) :
    sendsLeft q' < sendsLeft q := by
  cases e with
  | some e => cases q <;> cases h
  | none =>
    cases q with
    | seedTrade codes =>
      cases ws with
      | none => cases h
      | some w =>
        cases h
        exact Nat.one_pos
    | replay pos size =>
      obtain ⟨rfl, hpos⟩ := replayNext_send (Prod.mk.inj h).2
      exact Nat.sub_lt_sub_left hpos (Nat.lt_succ_self _)
    | seedOrderbook | subscribe => cases h

/-! ## The segments -/

/-- A segment of `connect()` ends it, or leaves it with the rank `n` at the most. -/
def AtMost (n : Nat) (a : ConnectAct (upbit env cfg)) : Prop :=
  ∀ pc, a = .suspend pc → connectRank pc ≤ n

section

variable {c : Conn (upbit env cfg)} {t : TaskId} {isDone : TaskId → Bool}

theorem AtMost.mono {n m : Nat} {a : ConnectAct (upbit env cfg)} (h : AtMost n a) (hnm : n ≤ m) :
    AtMost m a := fun pc hpc => Nat.le_trans (h pc hpc) hnm

theorem atMost_finish (n : Nat) (o : Outcome) :
    AtMost n (.finish o : ConnectAct (upbit env cfg)) := by
  intro pc hpc
  cases hpc

theorem atMost_suspend (pc : ConnectPc (upbit env cfg)) :
    AtMost (connectRank pc) (.suspend pc) := by
  intro pc' hpc
  cases hpc
  exact Nat.le_refl _

theorem connectFailed_atMost : AtMost 0 (connectFailed cfg c t).2 := by
  unfold connectFailed
  split
  · exact atMost_finish _ _
  · split
    · exact atMost_suspend (.closing _)
    · exact atMost_finish _ _

theorem connectSending_atMost {n : Nat} {x : Registry × SendStep Coro Request}
    (hx : ∀ i w p q, x = (i, .send w p q) → sendsLeft q + 1 ≤ n) :
    AtMost n (connectSending cfg c t x).2 := by
  obtain ⟨i, _ | _ | _⟩ := x
  · exact (atMost_suspend (.sending _ _ _)).mono (hx _ _ _ _ rfl)
  · unfold connectSending connectSubscribed
    dsimp only
    split
    · exact connectFailed_atMost.mono (Nat.zero_le _)
    · exact atMost_finish _ _
  · exact connectFailed_atMost.mono (Nat.zero_le _)

theorem connectDialed_atMost (hc : (registry c).requests.length ≤ 2) :
    AtMost 2 (connectDialed cfg c t).2 := by
  refine connectSending_atMost fun i w x q h => ?_
  have hsend : sendSubscriptionMessage env cfg (registry c) (some c.opened) = (i, .send w x q) := h
  exact Nat.succ_le_succ (sendSubscriptionMessage_sendsLeft hc hsend)

theorem connectAttempt_atMost : AtMost 3 (connectAttempt cfg c t).2 := by
  unfold connectAttempt
  dsimp only
  split
  · exact connectFailed_atMost.mono (by decide)
  · exact atMost_suspend .dialing

theorem connectLocked_atMost : AtMost 4 (connectLocked cfg isDone c t).2 := by
  unfold connectLocked
  split
  · exact atMost_finish _ _
  · split
    · exact atMost_suspend (.awaitTaskLocked _)
    · exact connectAttempt_atMost.mono (by decide)

theorem connectAcquire_atMost : AtMost 5 (connectAcquire cfg isDone c t).2 := by
  unfold connectAcquire
  split
  · exact connectLocked_atMost.mono (by decide)
  · exact atMost_suspend .lock

theorem connect_atMost : AtMost 6 (connect cfg isDone c t).2 := by
  unfold connect
  split
  · exact atMost_finish _ _
  · split
    · exact atMost_suspend (.awaitTask _)
    · exact connectAcquire_atMost.mono (by decide)

/-- **Every segment of a `connect()` goes down.** -/
theorem resumeConnect_lowers {c' : Conn (upbit env cfg)} {pc pc' : ConnectPc (upbit env cfg)}
    {w : Wake (upbit env cfg)} (hc : (registry c).requests.length ≤ 2)
    (h : resumeConnect cfg isDone c t pc w = some (c', .suspend pc')) :
    connectRank pc' < connectRank pc := by
  have below : ∀ {r : Conn (upbit env cfg) × ConnectAct (upbit env cfg)} {n : Nat},
      AtMost n r.2 → some r = some (c', .suspend pc') → connectRank pc' < n + 1 := by
    rintro r n hr hs
    obtain rfl := Option.some.inj hs
    exact Nat.lt_succ_of_le (hr pc' rfl)
  cases pc with
  | awaitTask o =>
    cases w with
    | raised e => exact below connectAcquire_atMost h
    | _ => cases h
  | lock =>
    cases w with
    | done =>
      simp only [resumeConnect] at h
      split at h
      · exact below connectLocked_atMost h
      · cases h
    | _ => cases h
  | awaitTaskLocked o =>
    cases w with
    | raised e => exact below connectAttempt_atMost h
    | _ => cases h
  | dialing =>
    cases w with
    | done => exact below (connectDialed_atMost hc) h
    | raised e => exact below (connectFailed_atMost.mono (by decide)) h
    | _ => cases h
  | sending w' x q =>
    cases w with
    | done | raised =>
      exact below (connectSending_atMost fun _ _ _ _ hs => resumeSend_sendsLeft hs) h
    | _ => cases h
  | closing w' => cases w <;> cases h

end

/-! ## The seeds -/

theorem OnlySeeds.length_le {p : TaskId → Point (upbit env cfg)} {c : Conn (upbit env cfg)}
    (h : OnlySeeds p c) : (registry c).requests.length ≤ 2 := by
  have hlen := h.seeds.length_le
  rwa [subscribed, List.length_map] at hlen

/-- No call of `connect()` is further from its end. -/
theorem Wire.connectRank_le {p : TaskId → Point (upbit env cfg)} {c : Conn (upbit env cfg)}
    {t : TaskId} {k : Caller} {pc : ConnectPc (upbit env cfg)} (hw : Wire p c) (hs : OnlySeeds p c)
    (ht : p t = .suspended (.connect k pc)) : connectRank pc ≤ 6 := by
  cases pc with
  | sending w x q =>
    cases q with
    | replay pos size =>
      have hsize := (hw.ahead t (w, x) pos size (by rw [ht]; rfl)).2.1
      have hlen := hs.length_le
      show size - (pos + 1) + 1 ≤ 6
      omega
    | seedTrade | seedOrderbook | subscribe => simp [connectRank, sendsLeft]
  | awaitTask | lock | awaitTaskLocked | dialing | closing => simp [connectRank]

end FlinkPractices.Upbit
