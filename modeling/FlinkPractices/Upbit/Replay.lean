import FlinkPractices.Connector.Attempt
import FlinkPractices.Upbit.Registry

/-!
# Replaying the registry while others subscribe

A `connect()` of the Upbit connector that has dialed again, with a registry that is not empty, while
other tasks call `subscribe()`; every send succeeds, after any delay.  `Exact` is what is promised
of the replay when the connector becomes `CONNECTED`.

The replay iterates over the dictionary that `subscribe()` inserts into, and is suspended at every
send.  `subscribe()` is admitted as soon as the new socket is stored, so one that begins in between
(`SubscribesInReplay`) makes the iterator raise, and the attempt fails.

## Proof

* `advance_dialed`, `advance_next`, `advance_last`, `advance_changed` — the segments of the replay,
  one for each way it goes on.
* `Elsewhere` — what a step of another task does: it leaves the connector as it was, or begins a
  `subscribe()` and inserts an entry, or has sent the request of one.
* `Phase` — where the attempt is: dialing; sending entry `pos`, with those before it sent; or over.
  `step_phase` takes it along one step in which nothing is inserted during the replay.
* `Doomed` — the iterator is over a registry that has grown: such an attempt never succeeds.

Principal results: `replay_exact`, in both directions once the replay is over, and
`insertedInReplay_fails`, a run in which an entry is inserted.
-/

set_option autoImplicit false

namespace FlinkPractices.Upbit

open Lib Connector Function

variable {U : UpperTable} {env : Environment} {cfg : ExchangeConfig U}

/-! ## What is promised -/

/-- The requests that ask for the registered subscriptions, in insertion order. -/
def Registry.requests (r : Registry) : List Request := r.subscriptions.map fun kv => kv.2.request

/-- The requests that went to `w`. -/
def requestsOn (w : Ws) : List (Ws × Request) → List Request
  | [] => []
  | (v, p) :: xs => if v = w then p :: requestsOn w xs else requestsOn w xs

/-- The requests sent on `w`, in their order. -/
def sentOn (w : Ws) (c : Conn (upbit env cfg)) : List Request := requestsOn w c.sent

/-- On the current socket every entry has been requested exactly once, and those of `before` in
their order. -/
def Exact (before : List Request) (c : Conn (upbit env cfg)) : Prop :=
  ∃ w, c.websocket = some w ∧ before.Sublist (sentOn w c) ∧
    ∀ kv ∈ (registry c).subscriptions, (sentOn w c).count kv.2.request = 1

/-- Task `t` is in `connect()`, suspended in a send. -/
def Resending (t : TaskId) (s : Sys (upbit env cfg)) : Prop :=
  ∃ k w p q, (s.tasks t).call = some (.connect k (.sending w p q))

/-- `connect()` of `t` has gone on to the next send, or to `CONNECTED` with an exact replay; it has
issued no ticket, and indeed left the registry as it was. -/
structure GoesOn (t : TaskId) (before : List Request) (s s' : Sys (upbit env cfg)) : Prop where
  succeeds : Resending t s' ∨ s'.conn.state = .connected ∧ Exact before s'.conn
  unchanged : registry s'.conn = registry s.conn

/-- So it is whenever the dial of `t`, or one of its sends, has succeeded. -/
def ReplaysExactly (t : TaskId) (before : List Request) (s : Sys (upbit env cfg))
    (l : Label (upbit env cfg)) : Prop :=
  ∀ s', (∃ k, (s.tasks t).call = some (.connect k .dialing)) ∨ Resending t s →
    l = .resume t .done → step cfg s l = some s' → GoesOn t before s s'

/-! ## The runs -/

/-- `connect()` of `t` goes on, until it has ended; other tasks call `subscribe()`; no send fails and
nobody is cancelled. -/
def Interleaves (t : TaskId) (s : Sys (upbit env cfg)) : Label (upbit env cfg) → Prop
  | .call u op => u ≠ t ∧ ∃ ty codes, op = .own (.subscribe ty codes)
  | .resume u w =>
    (u = t ∧ (∃ k pc, (s.tasks t).call = some (.connect k pc)) ∧ w ≠ .cancelled ∧
        (Resending t s → w = .done)) ∨
      (u ≠ t ∧ (∃ v p q, (s.tasks u).call = some (.own v p q)) ∧ w = .done)
  | .exit u _ => u ≠ t
  | _ => False

/-- A reachable connector on which `t` dials, with subscriptions to restore. -/
structure Reconnecting (t : TaskId) (s : Sys (upbit env cfg)) : Prop where
  reachable : Reachable (step cfg) (Sys.init (upbit env cfg) Registry.init) s
  dialing : ∃ k, (s.tasks t).call = some (.connect k .dialing)
  connecting : s.conn.state = .connecting
  nonempty : (registry s.conn).subscriptions ≠ []

/-- A `subscribe()` begins, with a valid type, while there is a socket. -/
def Admits (s : Sys (upbit env cfg)) : Label (upbit env cfg) → Prop
  | .call _ (.own (.subscribe ty _)) =>
    (ty = "trade" ∨ ty = "orderbook") ∧ s.conn.websocket ≠ none
  | _ => False

/-- It begins while `t` is suspended in a send of its replay. -/
def SubscribesInReplay (t : TaskId) (s : Sys (upbit env cfg)) (l : Label (upbit env cfg)) : Prop :=
  Admits s l ∧ Resending t s

/-! ## The segments of the replay -/

/-- The head of the replay loop, when the registry has the size the iteration began with. -/
theorem replayNext_requests (r : Registry) (w : Ws) (pos : Nat) :
    wrapFailure (replayNext r (some w) pos r.subscriptions.length) =
      match r.requests[pos]? with
      | some p => .send w p (.replay pos r.subscriptions.length)
      | none => .returned := by
  unfold replayNext Registry.requests
  rw [if_pos rfl, List.getElem?_map]
  cases r.subscriptions[pos]? <;> rfl

/-- The head of the replay loop, when it has not. -/
theorem replayNext_changed {r : Registry} {size : Nat} (h : r.subscriptions.length ≠ size)
    (ws : Option Ws) (pos : Nat) : ∃ e, wrapFailure (replayNext r ws pos size) = .raised e := by
  unfold replayNext
  rw [if_neg h]
  exact ⟨_, rfl⟩

theorem afterConnect_suspend (done : TaskId → Bool) (t : TaskId) (k : Caller)
    (c : Conn (upbit env cfg)) (pc : ConnectPc (upbit env cfg)) :
    afterConnect cfg done t k (c, .suspend pc) = (c, .suspend (.connect k pc)) := by
  cases k <;> rfl

/-- The new socket is stored. -/
def withSocket (c : Conn (upbit env cfg)) : Conn (upbit env cfg) :=
  { c with websocket := some c.opened, opened := c.opened + 1 }

/-- The dial has succeeded: the first entry is sent. -/
theorem advance_dialed (done : TaskId → Bool) (t : TaskId) (k : Caller)
    {c : Conn (upbit env cfg)} {p : Request} {ps : List Request}
    (hr : (registry c).requests = p :: ps) :
    advance cfg done c t (.connect k .dialing) .done =
      some (withSocket c, .suspend (.connect k (.sending c.opened p
        (Coro.replay 0 (registry c).subscriptions.length)))) := by
  have hne : (registry c).subscriptions.isEmpty = false := by
    cases hs : (registry c).subscriptions with
    | nil =>
      rw [Registry.requests, hs] at hr
      cases hr
    | cons => rfl
  have hsend : sendSubscriptionMessage env cfg (registry c) (some c.opened) =
      (registry c, .send c.opened p (.replay 0 (registry c).subscriptions.length)) := by
    simp only [sendSubscriptionMessage, hne, replayNext_requests, hr, List.getElem?_cons_zero]
    rfl
  have hd : connectDialed cfg c t =
      (withSocket c, .suspend (.sending c.opened p
        (Coro.replay 0 (registry c).subscriptions.length))) := by
    have hsend' : (upbit env cfg).sendSubscriptionMessage c.inst (some c.opened) = _ := hsend
    unfold connectDialed
    simp only [hsend']
    rfl
  show (some (connectDialed cfg c t)).map (afterConnect cfg done t k) = _
  rw [hd, Option.map_some, afterConnect_suspend]

/-- The request `p` has been sent on `w`. -/
def sentTo (c : Conn (upbit env cfg)) (w : Ws) (p : (upbit env cfg).Payload) :
    Conn (upbit env cfg) :=
  { c with sent := c.sent ++ [(w, p)] }

theorem requestsOn_append (w : Ws) : ∀ xs ys : List (Ws × Request),
    requestsOn w (xs ++ ys) = requestsOn w xs ++ requestsOn w ys
  | [], _ => rfl
  | (v, p) :: xs, ys => by
    simp only [List.cons_append, requestsOn, requestsOn_append w xs ys]
    split <;> rfl

theorem requestsOn_of_ne {w : Ws} : ∀ {xs : List (Ws × Request)}, (∀ x ∈ xs, x.1 ≠ w) →
    requestsOn w xs = []
  | [], _ => rfl
  | (v, p) :: xs, h => by
    rw [requestsOn, if_neg (h _ List.mem_cons_self)]
    exact requestsOn_of_ne fun x hx => h x (List.mem_cons_of_mem _ hx)

theorem sentOn_sentTo (c : Conn (upbit env cfg)) (w : Ws) (p : Request) :
    sentOn w (sentTo c w p) = sentOn w c ++ [p] := by
  have h := requestsOn_append w c.sent [(w, p)]
  rwa [show requestsOn w [(w, p)] = [p] from if_pos rfl] at h

theorem sentOn_sentTo_ne (c : Conn (upbit env cfg)) {v w : Ws} (p : Request) (hw : w ≠ v) :
    sentOn v (sentTo c w p) = sentOn v c := by
  have h := requestsOn_append v c.sent [(w, p)]
  rwa [show requestsOn v [(w, p)] = [] from if_neg hw, List.append_nil] at h

/-- A send of the replay has succeeded, and the coroutine goes on with `r`. -/
theorem advance_sent (done : TaskId → Bool) (t : TaskId) (k : Caller) {c : Conn (upbit env cfg)}
    {w : Ws} {p : (upbit env cfg).Payload} {pos size : Nat} {r : SendStep Coro Request}
    {x : Conn (upbit env cfg) × ConnectAct (upbit env cfg)}
    (hr : wrapFailure (replayNext (registry c) c.websocket (pos + 1) size) = r)
    (hx : connectSending cfg (sentTo c w p) t (registry c, r) = x) :
    advance cfg done c t (.connect k (.sending w p (Coro.replay pos size))) .done =
      some (afterConnect cfg done t k x) := by
  subst hr hx
  rfl

theorem connectFailed_connecting {c : Conn (upbit env cfg)} (hs : c.state = .connecting)
    (t : TaskId) : connectFailed cfg c t =
      match c.websocket with
      | some w => ({ c with state := .failed, closed := w :: c.closed }, .suspend (.closing w))
      | none => (connectFinally { c with state := .failed } t,
          .finish (.raised (connectFailure cfg))) := by
  unfold connectFailed
  rw [transitionState_valid ((ConnectionState.isValidTransition_failed _).2 (by rw [hs]; decide))]
  simp only [cleanup]
  split <;> rename_i h <;> split at h <;> cases h <;> rename_i hw <;> simp only [hw]

/-- The registry has grown in between: the attempt fails. -/
theorem advance_changed (cfg : ExchangeConfig U) (done : TaskId → Bool) (t : TaskId) (k : Caller)
    {c : Conn (upbit env cfg)} {w : Ws} {p : (upbit env cfg).Payload} (pos : Nat) {size : Nat}
    (hs : c.state = .connecting) (hw : c.websocket = some w)
    (hsize : (registry c).subscriptions.length ≠ size) :
    ∃ c', advance cfg done c t (.connect k (.sending w p (Coro.replay pos size))) .done =
        some (c', .suspend (.connect k (.closing w))) ∧ c'.state = .failed := by
  obtain ⟨e, he⟩ := replayNext_changed hsize c.websocket (pos + 1)
  refine ⟨{ sentTo c w p with state := .failed, closed := w :: c.closed }, ?_, rfl⟩
  have hfail : connectFailed cfg (sentTo c w p) t =
      ({ sentTo c w p with state := .failed, closed := w :: c.closed }, .suspend (.closing w)) := by
    rw [connectFailed_connecting (c := sentTo c w p) hs]
    simp only [sentTo, hw]
  exact (advance_sent done t k he hfail).trans (congrArg some (afterConnect_suspend done t k _ _))

/-- The next entry is sent. -/
theorem advance_next (done : TaskId → Bool) (t : TaskId) (k : Caller) {c : Conn (upbit env cfg)}
    {w : Ws} {p p' : Request} {pos : Nat} (hw : c.websocket = some w)
    (hp : (registry c).requests[pos + 1]? = some p') :
    advance cfg done c t
        (.connect k (.sending w p (Coro.replay pos (registry c).subscriptions.length))) .done =
      some (sentTo c w p, .suspend (.connect k (.sending w p'
        (Coro.replay (pos + 1) (registry c).subscriptions.length)))) := by
  have hnext : wrapFailure (replayNext (registry c) c.websocket (pos + 1)
      (registry c).subscriptions.length) =
      .send w p' (.replay (pos + 1) (registry c).subscriptions.length) := by
    rw [hw, replayNext_requests, hp]
  exact (advance_sent done t k hnext rfl).trans
    (congrArg some (afterConnect_suspend done t k (sentTo c w p) _))

/-- After `CONNECTED`, the caller of `connect()` goes on. -/
theorem afterConnect_returned (cfg : ExchangeConfig U) (done : TaskId → Bool) (t : TaskId) (k : Caller)
    {c : Conn (upbit env cfg)} {w : Ws} (hs : c.state = .connected) (hw : c.websocket = some w) :
    ∃ a, afterConnect cfg done t k (c, .finish .returned) = (c, a) ∧
      ∀ j pc, a ≠ .suspend (.connect j pc) := by
  have hrecv : recvMessage cfg c = (c, .suspend (.recv w)) := by
    unfold recvMessage
    simp only [hw]
  cases k with
  | task => exact ⟨_, rfl, nofun⟩
  | stream => exact ⟨_, hrecv, nofun⟩
  | reconnect =>
    refine ⟨.suspend (.recv w), ?_, nofun⟩
    show streamLoop cfg done c t = _
    unfold streamLoop
    rw [if_pos hs, hrecv]

/-- The last entry has been sent. -/
theorem advance_last (cfg : ExchangeConfig U) (done : TaskId → Bool) (t : TaskId) (k : Caller)
    {c : Conn (upbit env cfg)} {w : Ws} {p : Request} {pos : Nat} (hs : c.state = .connecting) (hw : c.websocket = some w)
    (hp : (registry c).requests[pos + 1]? = none) :
    ∃ a, advance cfg done c t
        (.connect k (.sending w p (Coro.replay pos (registry c).subscriptions.length))) .done =
      some (connectFinally { sentTo c w p with state := .connected, reconnectAttempts := 0 } t, a) ∧
      ∀ j pc, a ≠ .suspend (.connect j pc) := by
  have hlast : wrapFailure (replayNext (registry c) c.websocket (pos + 1)
      (registry c).subscriptions.length) = .returned := by
    rw [hw, replayNext_requests, hp]
  have hsub : connectSubscribed cfg (sentTo c w p) t = _ := connectSubscribed_connecting t hs
  obtain ⟨a, ha, hn⟩ := afterConnect_returned cfg done t k
    (c := connectFinally { sentTo c w p with state := .connected, reconnectAttempts := 0 } t) rfl hw
  exact ⟨a, (advance_sent done t k hlast hsub).trans (congrArg some ha), hn⟩

/-- Where `connect()` has failed: its caller gives up or waits. -/
def GivenUp : Point (upbit env cfg) → Prop
  | .ended _ (.raised _) => True
  | .lost => True
  | .lostCleanup => True
  | .retry => True
  | .suspended (.lostClosing _) => True
  | .suspended (.backoff _) => True
  | .finished _ => True
  | _ => False

theorem Edge.givenUp {isDone : TaskId → Bool} {t : TaskId} {P P' : Point (upbit env cfg)}
    {c c' : Conn (upbit env cfg)} (h : Edge cfg isDone t P c P' c') (hP : GivenUp P) :
    GivenUp P' ∧ registry c' = registry c := by
  cases h <;> first | exact ⟨trivial, rfl⟩ | exact hP.elim

theorem Path.givenUp {isDone : TaskId → Bool} {t : TaskId}
    {x y : Point (upbit env cfg) × Conn (upbit env cfg)} (h : Path cfg isDone t x y)
    (hx : GivenUp x.1) : GivenUp y.1 ∧ registry y.2 = registry x.2 := by
  induction h with
  | refl => exact ⟨hx, rfl⟩
  | tail _ he ih =>
    obtain ⟨hy, hr⟩ := Edge.givenUp he ih.1
    exact ⟨hy, hr.trans ih.2⟩

/-- After a failed `connect()` its caller does not connect again in the same segment. -/
theorem afterConnect_raised (cfg : ExchangeConfig U) (done : TaskId → Bool) (t : TaskId) (k : Caller)
    (c : Conn (upbit env cfg)) (e : PyExn) :
    (∀ j pc, (afterConnect cfg done t k (c, .finish (.raised e))).2 ≠ .suspend (.connect j pc)) ∧
      registry (afterConnect cfg done t k (c, .finish (.raised e))).1 = registry c := by
  have hpath : Path cfg done t (.ended k (.raised e), c) (_, _) :=
    afterConnect_path (c, .finish (.raised e)) k
  obtain ⟨hend, hreg⟩ := Path.givenUp hpath trivial
  refine ⟨fun j pc h => ?_, hreg⟩
  rw [h] at hend
  exact hend

/-! ## The steps of the other tasks -/

/-- No request that is being sent in `s'` by `subscribe()` was not in `s`. -/
def NoNewSend (s s' : Sys (upbit env cfg)) : Prop :=
  ∀ u v p q, (s'.tasks u).call = some (.own v p q) → (s.tasks u).call = some (.own v p q)

/-- What a step of another task does. -/
inductive Elsewhere (s : Sys (upbit env cfg)) (l : Label (upbit env cfg))
    (s' : Sys (upbit env cfg)) : Prop
  | still : ¬Admits s l → s'.conn = s.conn → NoNewSend s s' → Elsewhere s l s'
  | inserts {r : Registry} : Admits s l → (registry s.conn).Grown env r →
      s'.conn = { s.conn with inst := r } → Elsewhere s l s'
  | sends {u : TaskId} {v : Ws} {p : (upbit env cfg).Payload} : ¬Admits s l →
      (s.tasks u).call = some (.own v p Coro.subscribe) → s'.conn = sentTo s.conn v p →
      NoNewSend s s' → Elsewhere s l s'

theorem noNewSend_finish {s : Sys (upbit env cfg)} (u : TaskId) (k : Task (upbit env cfg))
    (c : Conn (upbit env cfg)) (r : Outcome) : NoNewSend s (s.settle u k (c, .finish r)) := by
  intro x v p q hx
  by_cases hxu : x = u
  · subst hxu
    simp [Sys.settle, Sys.setTask] at hx
  · rwa [Sys.settle_tasks_ne s hxu] at hx

theorem NoNewSend.of_call {s s' : Sys (upbit env cfg)} (h : ∀ u, (s'.tasks u).call = (s.tasks u).call) :
    NoNewSend s s' := by
  intro u v p q hu
  rwa [h u] at hu

/-- The first segment of `subscribe()`: refused, or a new entry and its request. -/
theorem subscribe_cases {r : Registry} (h : r.Keyed env) (ws : Option Ws) (ty : String)
    (codes : List String) :
    (¬((ty = "trade" ∨ ty = "orderbook") ∧ ws ≠ none) ∧
        ∃ e, subscribe env U r ws ty codes = (r, .raised e)) ∨
      ∃ w r' p, (ty = "trade" ∨ ty = "orderbook") ∧ ws = some w ∧ r.Grown env r' ∧
        subscribe env U r ws ty codes = (r', .send w p .subscribe) := by
  unfold subscribe
  split
  · rename_i hty
    split
    · exact .inl ⟨fun h => h.2 rfl, _, rfl⟩
    · rename_i w
      have hg := createAndSendSubscription_grown (U := U) h (some w) ty (codes.map (upper U))
        .subscribe
      exact .inr ⟨w, _, _, hty, rfl, hg, rfl⟩
  · rename_i hty
    exact .inl ⟨fun h => hty h.1, _, rfl⟩

theorem step_elsewhere {t : TaskId} {s s' : Sys (upbit env cfg)} {l : Label (upbit env cfg)}
    (hsane : Sane s.point s.conn) (hl : Interleaves t s l) (ht : ∀ w, l ≠ .resume t w)
    (hs : step cfg s l = some s') : s'.tasks t = s.tasks t ∧ Elsewhere s l s' := by
  cases step_move hs with
  | @call u op ho hc =>
    obtain ⟨hut, ty, codes, rfl⟩ := hl
    refine ⟨Sys.settle_tasks_ne s (Ne.symm hut) _ _, ?_⟩
    rcases subscribe_cases (U := U) hsane.keyed s.conn.websocket ty codes with ⟨hn, e, he⟩ |
      ⟨w, r, p, hty, hw, hg, he⟩
    · have henter : enter cfg s.isDone s.conn u (.own (Own.subscribe ty codes)) =
          (s.conn, .finish (.raised e)) := congrArg (ownSending s.conn) he
      rw [henter]
      exact .still hn rfl (noNewSend_finish u _ _ _)
    · have henter : enter cfg s.isDone s.conn u (.own (Own.subscribe ty codes)) =
          ({ s.conn with inst := r }, .suspend (.own w p Coro.subscribe)) :=
        congrArg (ownSending s.conn) he
      rw [henter]
      exact .inserts ⟨hty, by rw [hw]; exact nofun⟩ hg rfl
  | next => exact hl.elim
  | @resume u pc w r hc ha hr =>
    rcases hl with ⟨rfl, -⟩ | ⟨hut, ⟨v, p, q, hc'⟩, rfl⟩
    · exact absurd rfl (ht w)
    · refine ⟨Sys.settle_tasks_ne s (Ne.symm hut) _ _, ?_⟩
      rw [hc] at hc'
      cases hc'
      have hq : q = Coro.subscribe := by
        have hbelow := hsane.below u
        rw [Sys.point_suspended.2 hc] at hbelow
        exact hbelow.2
      subst hq
      cases hr
      exact .sends id hc rfl (noNewSend_finish u _ _ _)
  | cancel => exact hl.elim
  | @exit u o ho hc hm =>
    have hcall : ∀ x, ((s.setTask u { s.tasks u with generator := none, outcome := some o }).tasks
        x).call = (s.tasks x).call := by
      intro x
      by_cases hxu : x = u
      · subst hxu
        rw [Sys.setTask_self]
      · rw [Sys.setTask_ne s hxu]
    exact ⟨Sys.setTask_ne s (Ne.symm hl) _, .still id rfl (.of_call hcall)⟩

/-! ## The invariant of the replay -/

theorem Registry.Keyed.requests_nodup {r : Registry} (h : r.Keyed env) : r.requests.Nodup := by
  have hkeys : r.requests.map (·.ticket) = r.subscriptions.map (·.1) := by
    rw [Registry.requests, List.map_map]
    exact List.map_congr_left fun kv hkv => h.ticket kv hkv
  exact List.Nodup.of_map (·.ticket) (hkeys ▸ h.nodup)

/-- What holds all along: the registry still begins with the entries of before. -/
structure Restores (before : List Request) (s : Sys (upbit env cfg)) : Prop where
  sane : Sane s.point s.conn
  before_ne : before ≠ []
  keeps : before <+: (registry s.conn).requests

/-- Where the attempt of `t` is. -/
inductive Phase (t : TaskId) (before : List Request) (s : Sys (upbit env cfg)) : Prop
  | dialing {k : Caller} : (s.tasks t).call = some (.connect k .dialing) →
      s.conn.state = .connecting → Phase t before s
  /-- entry `pos` is being sent on `w`, those before it have been -/
  | sending {k : Caller} {w : Ws} {p : Request} {pos : Nat} :
      (s.tasks t).call = some (.connect k (.sending w p
        (Coro.replay pos (registry s.conn).subscriptions.length))) →
      s.conn.state = .connecting → s.conn.websocket = some w →
      (registry s.conn).requests[pos]? = some p →
      sentOn w s.conn = (registry s.conn).requests.take pos →
      (∀ u v p q, (s.tasks u).call = some (.own v p q) → v ≠ w) → Phase t before s
  | finished : (∀ k pc, (s.tasks t).call = some (.connect k pc) → ∃ w, pc = .closing w) →
      Phase t before s

theorem Registry.Grown.requests {r r' : Registry} (h : r.Grown env r') :
    r.requests <+: r'.requests ∧ r'.subscriptions.length = r.subscriptions.length + 1 := by
  obtain ⟨⟨e, -, hs⟩, -⟩ := h
  constructor
  · rw [Registry.requests, Registry.requests, hs, List.map_append]
    exact List.prefix_append _ _
  · rw [hs, List.length_append]
    rfl

/-- A step of another task, as long as nothing is inserted during the replay. -/
theorem Phase.elsewhere {t : TaskId} {before : List Request} {s s' : Sys (upbit env cfg)}
    {l : Label (upbit env cfg)} (h : Phase t before s) (ht : s'.tasks t = s.tasks t)
    (he : Elsewhere s l s') (hn : ¬SubscribesInReplay t s l) : Phase t before s' := by
  cases h with
  | dialing hc hs =>
    refine .dialing (by rw [ht]; exact hc) ?_
    cases he with
    | still _ hconn => rwa [hconn]
    | inserts _ _ hconn => rwa [hconn]
    | sends _ _ hconn => rwa [hconn]
  | @sending k w p pos hc hs hw hp hsent hother =>
    cases he with
    | still _ hconn hno =>
      refine @Phase.sending _ _ _ _ _ _ k w p pos ?_ ?_ ?_ ?_ ?_
        fun u v p q hu => hother u v p q (hno u v p q hu)
      all_goals rw [hconn]
      · rw [ht]
        exact hc
      · exact hs
      · exact hw
      · exact hp
      · exact hsent
    | inserts ha => exact absurd ⟨ha, k, w, p, _, hc⟩ hn
    | @sends u v p' _ hu hconn hno =>
      have hne : v ≠ w := hother u v p' _ hu
      refine @Phase.sending _ _ _ _ _ _ k w p pos ?_ ?_ ?_ ?_ ?_
        fun u v p q hu => hother u v p q (hno u v p q hu)
      all_goals rw [hconn]
      · rw [ht]
        exact hc
      · exact hs
      · exact hw
      · exact hp
      · rw [sentOn_sentTo_ne s.conn p' hne]
        exact hsent
  | finished ho => exact .finished (by rw [ht]; exact ho)

theorem settle_call (s : Sys (upbit env cfg)) (t : TaskId) (k : Task (upbit env cfg))
    (r : Conn (upbit env cfg) × Act (upbit env cfg)) (pc : Pc (upbit env cfg)) :
    ((s.settle t k r).tasks t).call = some pc ↔ r.2 = .suspend pc := by
  obtain ⟨c, a⟩ := r
  cases a <;> simp [Sys.settle, Sys.setTask]

/-- The attempt has ended, or only closes its socket. -/
theorem Phase.finished_of {t : TaskId} {before : List Request} {s : Sys (upbit env cfg)}
    {k : Task (upbit env cfg)} {r : Conn (upbit env cfg) × Act (upbit env cfg)}
    (h : ∀ j pc, r.2 = .suspend (.connect j pc) → ∃ w, pc = .closing w) :
    Phase t before (s.settle t k r) :=
  .finished fun j pc hc => h j pc ((settle_call s t k r _).1 hc)

/-- The dial has succeeded. -/
theorem Restores.dialed {t : TaskId} {before : List Request} {s : Sys (upbit env cfg)} {k : Caller}
    {j : Task (upbit env cfg)} {r : Conn (upbit env cfg) × Act (upbit env cfg)}
    (h : Restores before s) (hs : s.conn.state = .connecting)
    (hr : advance cfg s.isDone s.conn t (.connect k .dialing) .done = some r) :
    Phase t before (s.settle t j r) ∧ GoesOn t before s (s.settle t j r) := by
  obtain ⟨p, ps, hps⟩ : ∃ p ps, (registry s.conn).requests = p :: ps := by
    cases hq : (registry s.conn).requests with
    | nil =>
      have hb := h.keeps
      rw [hq] at hb
      exact absurd (List.prefix_nil.1 hb) h.before_ne
    | cons p ps => exact ⟨p, ps, rfl⟩
  rw [advance_dialed s.isDone t k hps] at hr
  cases hr
  have hcall : ((s.settle t j (withSocket s.conn, .suspend (.connect k (.sending s.conn.opened p
      (Coro.replay 0 (registry s.conn).subscriptions.length))))).tasks t).call = _ :=
    (settle_call s t j _ _).2 rfl
  have hp : (registry s.conn).requests[0]? = some p := by
    rw [hps]
    rfl
  refine ⟨.sending hcall hs rfl hp ?_ ?_, ⟨.inl ⟨k, _, _, _, hcall⟩, rfl⟩⟩
  · exact requestsOn_of_ne fun x hx => Nat.ne_of_lt (h.sane.sent x hx)
  · intro u v p' q hu
    by_cases hut : u = t
    · subst hut
      rw [hcall] at hu
      cases hu
    · rw [Sys.settle_tasks_ne s hut] at hu
      have hbelow := h.sane.below u
      rw [Sys.point_suspended.2 hu] at hbelow
      exact Nat.ne_of_lt hbelow.1

/-- A request of the replay has been sent. -/
theorem Restores.sent {t : TaskId} {before : List Request} {s : Sys (upbit env cfg)} {k : Caller}
    {w : Ws} {p : Request} {pos : Nat} {j : Task (upbit env cfg)}
    {r : Conn (upbit env cfg) × Act (upbit env cfg)} (h : Restores before s)
    (hs : s.conn.state = .connecting) (hw : s.conn.websocket = some w)
    (hp : (registry s.conn).requests[pos]? = some p)
    (hsent : sentOn w s.conn = (registry s.conn).requests.take pos)
    (hother : ∀ u v p q, (s.tasks u).call = some (.own v p q) → v ≠ w)
    (hr : advance cfg s.isDone s.conn t (.connect k (.sending w p
      (Coro.replay pos (registry s.conn).subscriptions.length))) .done = some r) :
    Phase t before (s.settle t j r) ∧ GoesOn t before s (s.settle t j r) := by
  have hsent' : sentOn w (sentTo s.conn w p) = (registry s.conn).requests.take (pos + 1) := by
    rw [sentOn_sentTo, hsent, List.take_add_one, hp]
    rfl
  cases hnext : (registry s.conn).requests[pos + 1]? with
  | some p' =>
    rw [advance_next s.isDone t k hw hnext] at hr
    cases hr
    have hcall : ((s.settle t j (sentTo s.conn w p, .suspend (.connect k (.sending w p'
        (Coro.replay (pos + 1) (registry s.conn).subscriptions.length))))).tasks t).call = _ :=
      (settle_call s t j _ _).2 rfl
    refine ⟨.sending hcall hs hw hnext hsent' fun u v p q hu => ?_, ⟨.inl ⟨k, _, _, _, hcall⟩, rfl⟩⟩
    by_cases hut : u = t
    · subst hut
      rw [hcall] at hu
      cases hu
    · rw [Sys.settle_tasks_ne s hut] at hu
      exact hother u v p q hu
  | none =>
    obtain ⟨a, ha, hn⟩ := advance_last cfg s.isDone t k hs hw hnext
    rw [ha] at hr
    cases hr
    have hall : sentOn w (sentTo s.conn w p) = (registry s.conn).requests :=
      hsent'.trans (List.take_of_length_le (List.getElem?_eq_none_iff.1 hnext))
    have hexact : Exact before (sentTo s.conn w p) := by
      refine ⟨w, hw, by rw [hall]; exact h.keeps.sublist, fun kv hkv => ?_⟩
      rw [hall]
      exact List.count_eq_one_of_mem h.sane.keyed.requests_nodup (List.mem_map_of_mem hkv)
    refine ⟨.finished_of fun j pc hj => absurd hj (hn j pc), ⟨.inr ?_, ?_⟩⟩
    · rw [Sys.settle_conn]
      exact ⟨rfl, hexact⟩
    · rw [Sys.settle_conn]
      rfl

/-- The attempt of `t` has ended, or only closes its socket, and the registry is as it was. -/
def Fails (c : Conn (upbit env cfg)) (r : Conn (upbit env cfg) × Act (upbit env cfg)) : Prop :=
  (∀ j pc, r.2 = .suspend (.connect j pc) → ∃ w, pc = .closing w) ∧ registry r.1 = registry c

/-- The dial has failed. -/
theorem advance_dialRaised {done : TaskId → Bool} {t : TaskId} {k : Caller}
    {c : Conn (upbit env cfg)} {e : PyExn} {r : Conn (upbit env cfg) × Act (upbit env cfg)}
    (hs : c.state = .connecting)
    (hr : advance cfg done c t (.connect k .dialing) (.raised e) = some r) : Fails c r := by
  obtain rfl : afterConnect cfg done t k (connectFailed cfg c t) = r := Option.some.inj hr
  rw [connectFailed_connecting hs]
  split
  · rw [afterConnect_suspend]
    refine ⟨fun j pc hj => ?_, rfl⟩
    cases hj
    exact ⟨_, rfl⟩
  · obtain ⟨hn, hreg⟩ := afterConnect_raised cfg done t k
      (connectFinally { c with state := .failed } t) (connectFailure cfg)
    exact ⟨fun j pc hj => absurd hj (hn j pc), hreg⟩

/-- The socket of a failed attempt is closed. -/
theorem advance_closing {done : TaskId → Bool} {t : TaskId} {k : Caller} {c : Conn (upbit env cfg)}
    {v : Ws} {w : Wake (upbit env cfg)} {r : Conn (upbit env cfg) × Act (upbit env cfg)}
    (hw : w ≠ .cancelled) (hr : advance cfg done c t (.connect k (.closing v)) w = some r) :
    Fails c r := by
  obtain ⟨hn, hreg⟩ := afterConnect_raised cfg done t k
    (connectFinally (cleanupDone c) t) (connectFailure cfg)
  cases w with
  | done | raised e =>
    obtain rfl : afterConnect cfg done t k (connectFinally (cleanupDone c) t,
      .finish (.raised (connectFailure cfg))) = r := Option.some.inj hr
    exact ⟨fun j pc hj => absurd hj (hn j pc), hreg⟩
  | cancelled => exact absurd rfl hw
  | frame f => cases hr

theorem Elsewhere.requests {s s' : Sys (upbit env cfg)} {l : Label (upbit env cfg)}
    (h : Elsewhere s l s') : (registry s.conn).requests <+: (registry s'.conn).requests := by
  cases h with
  | still _ hc => exact hc ▸ List.prefix_refl _
  | inserts _ hg hc =>
    rw [hc]
    exact hg.requests.1
  | sends _ _ hc => exact hc ▸ List.prefix_refl _

/-- **One step of the interleaving**, as long as nothing is inserted during the replay. -/
theorem step_phase {t : TaskId} {before : List Request} {s s' : Sys (upbit env cfg)}
    {l : Label (upbit env cfg)} (h : Phase t before s) (hk : Restores before s)
    (hl : Interleaves t s l) (hn : ¬SubscribesInReplay t s l) (hs : step cfg s l = some s') :
    (Phase t before s' ∧ Restores before s') ∧ ReplaysExactly t before s l := by
  have hsane : Sane s'.point s'.conn := keeps_sane.step trivial hk.sane hs
  have same : registry s'.conn = registry s.conn → Restores before s' := fun he =>
    ⟨hsane, hk.before_ne, he ▸ hk.keeps⟩
  by_cases ht : ∀ w, l ≠ .resume t w
  · obtain ⟨htask, he⟩ := step_elsewhere hk.sane hl ht hs
    exact ⟨⟨h.elsewhere htask he hn, hsane, hk.before_ne, hk.keeps.trans he.requests⟩,
      fun _ _ hdone => absurd hdone (ht .done)⟩
  · simp only [Classical.not_forall, Classical.not_not] at ht
    obtain ⟨w, rfl⟩ := ht
    obtain ⟨-, ⟨k, pc, hc⟩, hcalm, hsends⟩ := hl.resolve_right fun h => h.1 rfl
    have exactly : GoesOn t before s s' → ReplaysExactly t before s (.resume t w) := by
      intro hgo s₁ _ _ h₁
      rw [← Option.some.inj (hs.symm.trans h₁)]
      exact hgo
    cases step_move hs with
    | @resume _ _ _ r hc' _ hr =>
      rw [hc] at hc'
      cases hc'
      have fails : Fails s.conn r →
          Phase t before (s.settle t { s.tasks t with cancelling := false } r) ∧
            Restores before (s.settle t { s.tasks t with cancelling := false } r) := by
        rintro ⟨hf, hreg⟩
        refine ⟨.finished_of hf, same ?_⟩
        rw [Sys.settle_conn]
        exact hreg
      cases h with
      | @dialing k' hd hst =>
        rw [hc] at hd
        cases hd
        cases w with
        | done =>
          obtain ⟨hphase, hgo⟩ := hk.dialed (j := { s.tasks t with cancelling := false }) hst hr
          exact ⟨⟨hphase, same hgo.unchanged⟩, exactly hgo⟩
        | raised e =>
          refine ⟨fails (advance_dialRaised hst hr), ?_⟩
          intro s₁ _ hl₁
          cases hl₁
        | cancelled => exact absurd rfl hcalm
        | frame f => cases hr
      | @sending k' v p pos hd hst hw hp hsent hother =>
        rw [hc] at hd
        cases hd
        cases hsends ⟨_, _, _, _, hc⟩
        obtain ⟨hphase, hgo⟩ :=
          hk.sent (j := { s.tasks t with cancelling := false }) hst hw hp hsent hother hr
        exact ⟨⟨hphase, same hgo.unchanged⟩, exactly hgo⟩
      | finished ho =>
        obtain ⟨v, rfl⟩ := ho k pc hc
        refine ⟨fails (advance_closing hcalm hr), ?_⟩
        rintro s₁ (⟨j, hj⟩ | ⟨j, v, p, q, hj⟩) -
        all_goals
          rw [hc] at hj
          cases hj

/-! ## A registry that grows during the replay -/

/-- The iterator of `t` is over a registry that has grown. -/
structure Doomed (t : TaskId) (s : Sys (upbit env cfg)) : Prop where
  sane : Sane s.point s.conn
  replaying : ∃ k w p pos size, (s.tasks t).call =
    some (.connect k (.sending w p (Coro.replay pos size))) ∧ s.conn.websocket = some w ∧
      size < (registry s.conn).subscriptions.length
  connecting : s.conn.state = .connecting

theorem Phase.doomed {t : TaskId} {before : List Request} {s s' : Sys (upbit env cfg)}
    {l : Label (upbit env cfg)} (h : Phase t before s) (hk : Restores before s)
    (hl : Interleaves t s l) (hn : SubscribesInReplay t s l) (hs : step cfg s l = some s') :
    Doomed t s' := by
  obtain ⟨hadm, k, w, p, q, hc⟩ := hn
  have ht : ∀ w, l ≠ .resume t w := by
    rintro w rfl
    exact hadm
  obtain ⟨htask, he⟩ := step_elsewhere hk.sane hl ht hs
  cases he with
  | @inserts r _ hg hconn =>
    cases h with
    | dialing hd =>
      rw [hc] at hd
      cases hd
    | @sending k' w' p' pos hd hst hw _ _ _ =>
      refine ⟨keeps_sane.step trivial hk.sane hs, ⟨k', w', p', pos, _, by rw [htask]; exact hd, ?_, ?_⟩,
        ?_⟩
      · rwa [hconn]
      · rw [hconn]
        exact Nat.lt_of_lt_of_eq (Nat.lt_succ_self _) hg.requests.2.symm
      · rwa [hconn]
    | finished ho =>
      obtain ⟨v, hv⟩ := ho k _ hc
      cases hv
  | still hna => exact absurd hadm hna
  | sends hna => exact absurd hadm hna

theorem Doomed.step {t : TaskId} {before : List Request} {s s' : Sys (upbit env cfg)}
    {l : Label (upbit env cfg)} (h : Doomed t s) (hl : Interleaves t s l)
    (hx : ReplaysExactly t before s l) (hs : Connector.step cfg s l = some s') : Doomed t s' := by
  have hsane : Sane s'.point s'.conn := keeps_sane.step trivial h.sane hs
  obtain ⟨k, w, p, pos, size, hc, hw, hlt⟩ := h.replaying
  by_cases ht : ∀ w, l ≠ .resume t w
  · obtain ⟨htask, he⟩ := step_elsewhere h.sane hl ht hs
    have hlen : (registry s.conn).subscriptions.length ≤ (registry s'.conn).subscriptions.length := by
      have hle := he.requests.length_le
      simpa only [Registry.requests, List.length_map] using hle
    refine ⟨hsane, ⟨k, w, p, pos, size, by rw [htask]; exact hc, ?_, Nat.lt_of_lt_of_le hlt hlen⟩, ?_⟩
    · cases he with
      | still _ hconn => rwa [hconn]
      | inserts _ _ hconn => rwa [hconn]
      | sends _ _ hconn => rwa [hconn]
    · cases he with
      | still _ hconn => rw [hconn]; exact h.connecting
      | inserts _ _ hconn => rw [hconn]; exact h.connecting
      | sends _ _ hconn => rw [hconn]; exact h.connecting
  · -- the send of `t` succeeds, and its iterator raises
    simp only [Classical.not_forall, Classical.not_not] at ht
    obtain ⟨v, rfl⟩ := ht
    obtain ⟨-, -, -, hsends⟩ := hl.resolve_right fun h => h.1 rfl
    have hsending : Resending t s := ⟨k, w, p, _, hc⟩
    cases hsends hsending
    have hgo := hx s' (.inr hsending) rfl hs
    obtain ⟨c', hadv, hfailed⟩ := advance_changed cfg s.isDone t k (p := p) pos h.connecting hw
      (Nat.ne_of_gt hlt)
    cases step_move hs with
    | @resume _ _ _ r hc' _ hr =>
      rw [hc] at hc'
      cases hc'
      rw [hadv] at hr
      cases hr
      rcases hgo.succeeds with ⟨j, x, q, y, hj⟩ | ⟨hcon, -⟩
      · rw [settle_call] at hj
        cases hj
      · rw [Sys.settle_conn, hfailed] at hcon
        cases hcon

/-! ## Runs -/

/-- As long as nothing is inserted during the replay, it is exact. -/
theorem run_replaysExactly {t : TaskId} {before : List Request} :
    ∀ {ls : List (Label (upbit env cfg))} {s s' : Sys (upbit env cfg)}, Phase t before s →
      Restores before s → Guarded (step cfg) (Interleaves t) s ls →
      Guarded (step cfg) (fun s l => ¬SubscribesInReplay t s l) s ls →
      run (step cfg) s ls = some s' → Guarded (step cfg) (ReplaysExactly t before) s ls
  | [], _, _, _, _, _, _, _ => trivial
  | _ :: _, _, _, h, hk, hl, hn, hr => by
    obtain ⟨s₁, hs, hr⟩ := run_cons_some hr
    obtain ⟨⟨h₁, hk₁⟩, hx⟩ := step_phase h hk hl.1 hn.1 hs
    exact .cons hx hs (run_replaysExactly h₁ hk₁ (hl.2 _ hs) (hn.2 _ hs) hr)

/-- If the attempt is over and the replay was exact, nothing was inserted. -/
theorem run_notSubscribes {t : TaskId} {before : List Request} :
    ∀ {ls : List (Label (upbit env cfg))} {s s' : Sys (upbit env cfg)}, Phase t before s →
      Restores before s → Guarded (step cfg) (Interleaves t) s ls →
      Guarded (step cfg) (ReplaysExactly t before) s ls → run (step cfg) s ls = some s' →
      ¬Resending t s' → Guarded (step cfg) (fun s l => ¬SubscribesInReplay t s l) s ls
  | [], _, _, _, _, _, _, _, _ => trivial
  | l :: ls, s, s', h, hk, hl, hx, hr, hend => by
    obtain ⟨s₁, hs, hr⟩ := run_cons_some hr
    by_cases hn : SubscribesInReplay t s l
    · have hdoomed := run_guarded_invariant (P := Doomed t)
        (G := fun s l => Interleaves t s l ∧ ReplaysExactly t before s l)
        (fun _ _ _ hd hg hs => hd.step hg.1 hg.2 hs) (h.doomed hk hl.1 hn hs)
        ((hl.2 _ hs).and (hx.2 _ hs)) hr
      obtain ⟨k, w, p, pos, size, hc, -⟩ := hdoomed.replaying
      exact absurd ⟨k, w, p, _, hc⟩ hend
    · obtain ⟨⟨h₁, hk₁⟩, -⟩ := step_phase h hk hl.1 hn hs
      exact .cons hn hs (run_notSubscribes h₁ hk₁ (hl.2 _ hs) (hx.2 _ hs) hr hend)

/-- **When the replay is exact.**  In every interleaving of a reconnecting `connect()` with
`subscribe()` calls of other tasks, if no `subscribe()` is admitted during the replay, then it
succeeds and is exact; and if it has, then none was. -/
theorem replay_exact {t : TaskId} {s₀ s : Sys (upbit env cfg)} {ls : List (Label (upbit env cfg))}
    (h₀ : Reconnecting t s₀) (hl : Guarded (step cfg) (Interleaves t) s₀ ls)
    (hr : run (step cfg) s₀ ls = some s) :
    (Guarded (step cfg) (fun s l => ¬SubscribesInReplay t s l) s₀ ls →
      Guarded (step cfg) (ReplaysExactly t (registry s₀.conn).requests) s₀ ls) ∧
    (¬Resending t s → Guarded (step cfg) (ReplaysExactly t (registry s₀.conn).requests) s₀ ls →
      Guarded (step cfg) (fun s l => ¬SubscribesInReplay t s l) s₀ ls) := by
  obtain ⟨k, hc⟩ := h₀.dialing
  have hphase : Phase t (registry s₀.conn).requests s₀ := .dialing hc h₀.connecting
  have hk : Restores (registry s₀.conn).requests s₀ := by
    refine ⟨sane_of_reachable h₀.reachable, ?_, List.prefix_refl _⟩
    unfold Registry.requests
    rw [Ne, List.map_eq_nil_iff]
    exact h₀.nonempty
  exact ⟨fun hn => run_replaysExactly hphase hk hl hn hr,
    fun hend hx => run_notSubscribes hphase hk hl hx hr hend⟩

/-! ## A subscription during the replay -/

/-- A connector that has been `CONNECTED` and disconnected connects again: it dials. -/
def reconnecting : List (Label (upbit quietEnvironment krwBtcConfig)) :=
  [.call 0 .connect, .resume 0 .done, .resume 0 .done, .resume 0 .done, .call 0 .disconnect,
    .resume 0 .done, .call 0 .connect]

def beforeReplay : Sys (upbit quietEnvironment krwBtcConfig) :=
  (run (step krwBtcConfig) (Sys.init (upbit quietEnvironment krwBtcConfig) Registry.init)
    reconnecting).get rfl

theorem beforeReplay_reconnecting : Reconnecting 0 beforeReplay where
  reachable := ⟨reconnecting, (Option.some_get _).symm⟩
  dialing := ⟨.task, rfl⟩
  connecting := rfl
  nonempty h := by cases h

/-- While the first entry is being sent, another task subscribes. -/
def insertedInReplay : List (Label (upbit quietEnvironment krwBtcConfig)) :=
  [.resume 0 .done, .call 1 (.own (.subscribe "trade" ["KRW-ETH"])), .resume 0 .done]

/-- **A `subscribe()` during the replay makes `connect()` fail.** -/
theorem insertedInReplay_fails : ∃ s, Reconnecting 0 beforeReplay ∧
    Guarded (step krwBtcConfig) (Interleaves 0) beforeReplay insertedInReplay ∧
    run (step krwBtcConfig) beforeReplay insertedInReplay = some s ∧
    ¬Guarded (step krwBtcConfig)
      (ReplaysExactly 0 (registry beforeReplay.conn).requests) beforeReplay insertedInReplay ∧
    s.conn.state = .failed := by
  refine ⟨_, beforeReplay_reconnecting, ?_, rfl, fun hg => ?_, rfl⟩
  · refine .cons (.inl ⟨rfl, ⟨_, _, rfl⟩, nofun, fun _ => rfl⟩) rfl ?_
    refine .cons ⟨by decide, _, _, rfl⟩ rfl ?_
    exact .cons (.inl ⟨rfl, ⟨_, _, rfl⟩, nofun, fun _ => rfl⟩) rfl trivial
  · have hlast := ((hg.2 _ rfl).2 _ rfl).1
    rcases (hlast _ (.inr ⟨_, _, _, _, rfl⟩) rfl rfl).succeeds with ⟨k, w, p, q, hc⟩ | ⟨hc, -⟩
    · cases hc
    · cases hc

/-- Another task subscribes before there is a socket, and after the replay. -/
def subscribedAround : List (Label (upbit quietEnvironment krwBtcConfig)) :=
  [.call 1 (.own (.subscribe "trade" ["KRW-ETH"])), .resume 0 .done, .resume 0 .done,
    .resume 0 .done, .call 1 (.own (.subscribe "trade" ["KRW-ETH"])), .resume 1 .done]

/-- `replay_exact` of that run. -/
theorem replay_exact_subscribedAround : ∃ s,
    run (step krwBtcConfig) beforeReplay subscribedAround = some s ∧ s.conn.state = .connected ∧
    Guarded (step krwBtcConfig)
      (ReplaysExactly 0 (registry beforeReplay.conn).requests) beforeReplay subscribedAround := by
  have hl : Guarded (step krwBtcConfig) (Interleaves 0) beforeReplay subscribedAround := by
    refine .cons ⟨by decide, _, _, rfl⟩ rfl ?_
    refine .cons (.inl ⟨rfl, ⟨_, _, rfl⟩, nofun, fun _ => rfl⟩) rfl ?_
    refine .cons (.inl ⟨rfl, ⟨_, _, rfl⟩, nofun, fun _ => rfl⟩) rfl ?_
    refine .cons (.inl ⟨rfl, ⟨_, _, rfl⟩, nofun, fun _ => rfl⟩) rfl ?_
    refine .cons ⟨by decide, _, _, rfl⟩ rfl ?_
    exact .cons (.inr ⟨by decide, ⟨_, _, _, rfl⟩, rfl⟩) rfl trivial
  have hn : Guarded (step krwBtcConfig) (fun s l => ¬SubscribesInReplay 0 s l) beforeReplay
      subscribedAround := by
    refine .cons (fun h => h.1.2 rfl) rfl ?_
    refine .cons (fun h => h.1) rfl ?_
    refine .cons (fun h => h.1) rfl ?_
    refine .cons (fun h => h.1) rfl ?_
    refine .cons (fun h => ?_) rfl ?_
    · obtain ⟨-, k, w, p, q, hc⟩ := h
      cases hc
    · exact .cons (fun h => h.1) rfl trivial
  exact ⟨_, rfl, rfl, (replay_exact beforeReplay_reconnecting hl rfl).1 hn⟩

end FlinkPractices.Upbit
