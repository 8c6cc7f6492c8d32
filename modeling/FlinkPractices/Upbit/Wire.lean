import FlinkPractices.Lib.Outbox
import FlinkPractices.Upbit.Index
import FlinkPractices.Upbit.Replay

/-!
# What goes over the wire

Any number of tasks connect, reconnect, subscribe and are cancelled, and any send fails or succeeds.
The requests they hand to `websocket.send` are an `Outbox`: `Wire` adds that all of them go to the
latest socket at the time and ask for registered subscriptions, and that the replay has still to
come to what lies ahead of it.

So no subscription is requested twice on one socket: the replay sends each entry once, and the
entries that are stored while it runs, or while another socket was in use, are never sent by it
there.

## Proof

* `Posts` — what a segment of a sending coroutine leaves behind: the registry, with one more entry
  or as it was, and the request it goes on to send.
* `Posts.fresh` — the request that is taken up is registered, and not on the wire yet: it is that
  of a new ticket, or that of an entry which a replay has not come to.
* `Wire.posts`, `Wire.leaves`, `Wire.dialed`, `Wire.sent` — the invariant after each of the four
  things that can happen to a request; `Edge.wire` goes through the edges with them.

Principal result: `requestedOnce_of_reachable`.

It bounds the requests from above.  That each subscription is requested at least once is not so in
general: see `Upbit.Completeness` and `Upbit.Replay`.
-/

set_option autoImplicit false

namespace FlinkPractices.Upbit

open Lib Connector Function

variable {U : UpperTable} {env : Environment} {cfg : ExchangeConfig U}

/-- The requests sent so far, each with its socket. -/
def wire (c : Conn (upbit env cfg)) : List (Ws × Request) := c.sent

/-- The subscription asks for upper-cased codes of a type there is. -/
def SubscriptionEntry.Valid (U : UpperTable) (e : SubscriptionEntry) : Prop :=
  (e.subType = "trade" ∨ e.subType = "orderbook") ∧ ∀ m ∈ e.codes, upper U m = m

/-- No subscription has been requested twice on one socket, and each request that was sent asks for
a registered subscription. -/
structure RequestedOnce (c : Conn (upbit env cfg)) : Prop where
  once : ((wire c).map fun x => (x.1, x.2.ticket)).Nodup
  opened : ∀ x ∈ wire c, x.1 < c.opened
  registered : ∀ x ∈ wire c, ∃ e, (x.2.ticket, e) ∈ (registry c).subscriptions ∧ e.request = x.2 ∧
    e.Valid U

/-! ## Requests on their way -/

/-- The request a call is sending, and what follows it. -/
def pcOutgoing : Pc (upbit env cfg) → Option ((Ws × Request) × Coro)
  | .connect _ (.sending w p q) => some ((w, p), q)
  | .own w p q => some ((w, p), q)
  | _ => none

def stepOutgoing : SendStep Coro Request → Option ((Ws × Request) × Coro)
  | .send w p q => some ((w, p), q)
  | _ => none

def outgoing : Point (upbit env cfg) → Option ((Ws × Request) × Coro)
  | .suspended pc => pcOutgoing pc
  | .resumed pc _ => pcOutgoing pc
  | .sent _ r => stepOutgoing r
  | .own r => stepOutgoing r
  | _ => none

/-- The request alone. -/
def pending (P : Point (upbit env cfg)) : Option (Ws × Request) := (outgoing P).map Prod.fst

/-- Sent, or being sent. -/
def OnWire (p : TaskId → Point (upbit env cfg)) (c : Conn (upbit env cfg)) (x : Ws × Request) :
    Prop := Used (fun u => pending (p u)) (wire c) x

/-- The entries of an iteration from `pos` on have still to be sent on `w`. -/
def StillToSend (p : TaskId → Point (upbit env cfg)) (c : Conn (upbit env cfg)) (w : Ws)
    (pos size : Nat) : Prop :=
  ∀ i r, pos ≤ i → i < size → (registry c).requests[i]? = some r → ¬OnWire p c (w, r)

/-- The invariant of all runs. -/
structure Wire (p : TaskId → Point (upbit env cfg)) (c : Conn (upbit env cfg)) : Prop where
  outbox : Outbox (fun u => pending (p u)) (wire c)
  latest : ∀ w, c.websocket = some w → w + 1 = c.opened
  known : ∀ x, OnWire p c x → x.1 < c.opened ∧ x.2 ∈ (registry c).requests
  valid : ∀ kv ∈ (registry c).subscriptions, kv.2.Valid U
  seed : ∀ u x codes, outgoing (p u) = some (x, .seedTrade codes) → ∀ m ∈ codes, upper U m = m
  ahead : ∀ u x pos size, outgoing (p u) = some (x, .replay pos size) →
    x.1 + 1 = c.opened ∧ size ≤ (registry c).requests.length ∧ StillToSend p c x.1 (pos + 1) size

theorem pending_update (p : TaskId → Point (upbit env cfg)) (t : TaskId)
    (P : Point (upbit env cfg)) : (fun u => pending (update p t P u)) =
      update (fun u => pending (p u)) t (pending P) := by
  funext u
  by_cases hu : u = t
  · subst hu
    rw [update_self, update_self]
  · rw [update_of_ne hu, update_of_ne hu]

theorem pending_of_outgoing {P : Point (upbit env cfg)} {x : Ws × Request} {q : Coro}
    (h : outgoing P = some (x, q)) : pending P = some x := by
  rw [pending, h, Option.map_some]

theorem pending_eq_none {P : Point (upbit env cfg)} (h : outgoing P = none) : pending P = none := by
  rw [pending, h, Option.map_none]

/-- Where a task is that sends seeds, or replays. -/
theorem outgoing_attempting {P : Point (upbit env cfg)} {n : Nat} {x : Ws × Request} {q : Coro}
    (h : outgoing P = some (x, q)) (hq : q ≠ .subscribe) (hP : PointBelow n P) :
    P.attempting = true := by
  cases P with
  | suspended pc =>
    cases pc with
    | connect k pc => cases pc <;> first | rfl | cases h
    | own w p q =>
      cases h
      exact absurd hP.2 hq
    | _ => cases h
  | resumed pc w =>
    cases pc with
    | connect k pc => cases pc <;> first | rfl | cases h
    | own w p q =>
      cases h
      exact absurd hP.2 hq
    | _ => cases h
  | sent k r => rfl
  | own r =>
    cases r with
    | send w p q =>
      cases h
      exact absurd hP.2 hq
    | _ => cases h
  | _ => cases h

/-! ## A request leaves, or is given up -/

section Leaves

variable {p : TaskId → Point (upbit env cfg)} {c : Conn (upbit env cfg)} {t : TaskId}

/-- The invariant after a step of `t` that takes up no request, and does not put any on the wire. -/
theorem Wire.quiet {P : Point (upbit env cfg)} {c' : Conn (upbit env cfg)} (h : Wire p c)
    (hP : outgoing P = none)
    (hbox : Outbox (fun u => pending (update p t P u)) (wire c'))
    (hused : ∀ x, OnWire (update p t P) c' x → OnWire p c x)
    (hws : ∀ w, c'.websocket = some w → c.websocket = some w) (ho : c'.opened = c.opened)
    (hr : (registry c').requests = (registry c).requests)
    (hv : ∀ kv ∈ (registry c').subscriptions, kv.2.Valid U) : Wire (update p t P) c' := by
  have hold : ∀ {u y}, outgoing (update p t P u) = some y → outgoing (p u) = some y := by
    intro u y hu
    by_cases hut : u = t
    · subst hut
      rw [update_self, hP] at hu
      cases hu
    · rwa [update_of_ne hut] at hu
  refine ⟨hbox, fun w hw => ?_, fun x hx => ?_, hv, fun u x codes hu => h.seed u x codes (hold hu),
    fun u x pos size hu => ?_⟩
  · rw [ho]
    exact h.latest w (hws w hw)
  · rw [ho, hr]
    exact h.known x (hused x hx)
  · obtain ⟨h₁, h₂, h₃⟩ := h.ahead u x pos size (hold hu)
    refine ⟨by rw [ho]; exact h₁, by rw [hr]; exact h₂, fun i r hi hs hget hx => ?_⟩
    rw [hr] at hget
    exact h₃ i r hi hs hget (hused _ hx)

/-- Task `t` sends nothing any more. -/
theorem Wire.drop {P : Point (upbit env cfg)} {c' : Conn (upbit env cfg)} (h : Wire p c)
    (hP : outgoing P = none) (hsent : wire c' = wire c)
    (hws : ∀ w, c'.websocket = some w → c.websocket = some w) (ho : c'.opened = c.opened)
    (hr : (registry c').requests = (registry c).requests)
    (hv : ∀ kv ∈ (registry c').subscriptions, kv.2.Valid U) : Wire (update p t P) c' := by
  apply h.quiet hP _ _ hws ho hr hv
  · rw [pending_update, pending_eq_none hP, hsent]
    exact h.outbox.drop t
  · intro x hx
    rw [OnWire, pending_update, pending_eq_none hP, hsent] at hx
    exact hx.of_drop

/-- The request of task `t` has been sent. -/
theorem Wire.deliver {P : Point (upbit env cfg)} (c' : Conn (upbit env cfg)) {x : Ws × Request}
    (h : Wire p c) (hx : pending (p t) = some x) (hP : outgoing P = none)
    (hsent : wire c' = wire c ++ [x]) (hws : c'.websocket = c.websocket)
    (ho : c'.opened = c.opened) (hr : registry c' = registry c) : Wire (update p t P) c' := by
  apply h.quiet hP _ _ (fun w hw => hws ▸ hw) ho (by rw [hr]) (by rw [hr]; exact h.valid)
  · rw [pending_update, pending_eq_none hP, hsent]
    exact h.outbox.deliver hx
  · intro y hy
    rw [OnWire, pending_update, pending_eq_none hP, hsent] at hy
    exact hy.of_deliver hx

end Leaves

/-! ## A request is taken up -/

/-- What a segment of a sending coroutine leaves behind: the registry, and the request it goes on to
send.  `next` is where an iteration goes on, and over how many entries. -/
inductive Posts (env : Environment) (U : UpperTable) (r : Registry) (ws : Option Ws)
    (next : Option (Nat × Nat)) : Registry → Option ((Ws × Request) × Coro) → Prop
  | ends : Posts env U r ws next r none
  /-- an entry is stored, and there is no socket -/
  | unsent {ty : String} {codes : List String} : ty = "trade" ∨ ty = "orderbook" →
      Posts env U r ws next (r.store env U ty codes) none
  | creates {w : Ws} {ty : String} {codes : List String} {k : Coro} : ws = some w →
      ty = "trade" ∨ ty = "orderbook" → (∀ m ∈ codes, upper U m = m) →
      k = .seedTrade codes ∨ k = .seedOrderbook ∨ k = .subscribe →
      Posts env U r ws next (r.store env U ty codes)
        (some ((w, ⟨env.uuid4 r.issued, ty, codes, "DEFAULT"⟩), k))
  | replays {w : Ws} {x : Request} {pos size : Nat} : ws = some w → next = some (pos, size) →
      r.requests.length = size → r.requests[pos]? = some x →
      Posts env U r ws next r (some ((w, x), .replay pos size))

/-- Where the iteration of a coroutine goes on. -/
def Coro.next : Coro → Option (Nat × Nat)
  | .replay pos size => some (pos + 1, size)
  | _ => none

theorem stepOutgoing_wrapFailure (s : SendStep Coro Request) :
    stepOutgoing (wrapFailure s) = stepOutgoing s := by
  cases s <;> rfl

theorem createAndSendSubscription_posts (r : Registry) (ws : Option Ws) (next : Option (Nat × Nat))
    {ty : String} {codes : List String} {k : Coro} (hty : ty = "trade" ∨ ty = "orderbook")
    (hcodes : ∀ m ∈ codes, upper U m = m)
    (hk : k = .seedTrade codes ∨ k = .seedOrderbook ∨ k = .subscribe) :
    Posts env U r ws next (createAndSendSubscription env U r ws ty codes k).1
      (stepOutgoing (createAndSendSubscription env U r ws ty codes k).2) := by
  cases ws with
  | none => exact .unsent hty
  | some w => exact .creates rfl hty hcodes hk

theorem replayNext_posts (r : Registry) (ws : Option Ws) (pos size : Nat) :
    Posts env U r ws (some (pos, size)) r (stepOutgoing (replayNext r ws pos size)) := by
  unfold replayNext
  split
  · rename_i hsize
    split
    · rename_i k e he
      cases ws with
      | none => exact .ends
      | some w =>
        refine .replays rfl rfl (by rw [Registry.requests, List.length_map]; exact hsize) ?_
        rw [Registry.requests, List.getElem?_map, he]
        rfl
    · exact .ends
  · exact .ends

theorem sendSubscriptionMessage_posts (r : Registry) (ws : Option Ws) :
    Posts env U r ws (some (0, r.requests.length)) (sendSubscriptionMessage env cfg r ws).1
      (stepOutgoing (sendSubscriptionMessage env cfg r ws).2) := by
  unfold sendSubscriptionMessage
  split
  · exact .ends
  · split
    · rw [stepOutgoing_wrapFailure]
      exact createAndSendSubscription_posts _ _ _ (.inl rfl) cfg.markets_upper (.inl rfl)
    · rw [stepOutgoing_wrapFailure]
      have hlen : r.requests.length = r.subscriptions.length := List.length_map _
      rw [hlen]
      exact replayNext_posts _ _ _ _

theorem resumeSend_posts (r : Registry) (ws : Option Ws) {q : Coro}
    (hq : ∀ codes, q = .seedTrade codes → ∀ m ∈ codes, upper U m = m) :
    Posts env U r ws q.next (resumeSend env U r ws q none).1
      (stepOutgoing (resumeSend env U r ws q none).2) := by
  cases q with
  | seedTrade codes =>
    show Posts env U r ws _ _ (stepOutgoing (wrapFailure _))
    rw [stepOutgoing_wrapFailure]
    exact createAndSendSubscription_posts _ _ _ (.inr rfl) (hq codes rfl) (.inr (.inl rfl))
  | replay pos size =>
    show Posts env U r ws _ _ (stepOutgoing (wrapFailure _))
    rw [stepOutgoing_wrapFailure]
    exact replayNext_posts _ _ _ _
  | seedOrderbook => exact .ends
  | subscribe => exact .ends

/-- After a failed send nothing is sent. -/
theorem resumeSend_raised (r : Registry) (ws : Option Ws) (q : Coro) (e : PyExn) :
    (resumeSend env U r ws q (some e)).1 = r ∧
      stepOutgoing (resumeSend env U r ws q (some e)).2 = none := by
  cases q <;> exact ⟨rfl, rfl⟩

theorem subscribe_posts (r : Registry) (ws : Option Ws) (ty : String) (codes : List String) :
    Posts env U r ws none (subscribe env U r ws ty codes).1
      (stepOutgoing (subscribe env U r ws ty codes).2) := by
  unfold subscribe
  split
  · rename_i hty
    split
    · exact .ends
    · refine createAndSendSubscription_posts _ _ _ hty (fun m hm => ?_) (.inr (.inr rfl))
      obtain ⟨x, -, rfl⟩ := List.mem_map.1 hm
      exact upper_upper x
  · exact .ends

theorem map_upper_of_fixed {codes : List String} (h : ∀ m ∈ codes, upper U m = m) :
    codes.map (upper U) = codes :=
  (List.map_congr_left h).trans (List.map_id _)

/-- The registry with a new entry. -/
theorem Registry.Keyed.requests_store {r : Registry} (h : r.Keyed env) (ty : String)
    (codes : List String) : (r.store env U ty codes).requests =
      r.requests ++ [⟨env.uuid4 r.issued, ty, codes.map (upper U), "DEFAULT"⟩] := by
  rw [Registry.requests, h.store_subscriptions, List.map_append]
  rfl

/-- No request has the next ticket. -/
theorem Registry.Keyed.request_fresh {r : Registry} (h : r.Keyed env) {x : Request}
    (hx : x ∈ r.requests) : x.ticket ≠ env.uuid4 r.issued := by
  obtain ⟨kv, hkv, rfl⟩ := List.mem_map.1 hx
  intro he
  exact h.fresh kv hkv ((h.ticket kv hkv).symm.trans he)

/-- A segment keeps the subscriptions there are, in their places. -/
theorem Posts.prefix {r r' : Registry} {ws : Option Ws} {next : Option (Nat × Nat)}
    {o : Option ((Ws × Request) × Coro)} (h : Posts env U r ws next r' o) (hk : r.Keyed env) :
    r.requests <+: r'.requests := by
  cases h with
  | ends => exact List.prefix_refl _
  | unsent _ | creates _ _ _ _ =>
    rw [hk.requests_store]
    exact List.prefix_append _ _
  | replays _ _ _ _ => exact List.prefix_refl _

theorem Posts.valid {r r' : Registry} {ws : Option Ws} {next : Option (Nat × Nat)}
    {o : Option ((Ws × Request) × Coro)} (h : Posts env U r ws next r' o) (hk : r.Keyed env)
    (hv : ∀ kv ∈ r.subscriptions, kv.2.Valid U) : ∀ kv ∈ r'.subscriptions, kv.2.Valid U := by
  have hstore : ∀ {ty : String} {codes : List String}, ty = "trade" ∨ ty = "orderbook" →
      ∀ kv ∈ (r.store env U ty codes).subscriptions, kv.2.Valid U := by
    intro ty codes hty kv hkv
    rw [hk.store_subscriptions, List.mem_append, List.mem_singleton] at hkv
    rcases hkv with hkv | rfl
    · exact hv kv hkv
    · refine ⟨hty, fun m hm => ?_⟩
      obtain ⟨x, -, rfl⟩ := List.mem_map.1 hm
      exact upper_upper x
  cases h with
  | ends => exact hv
  | unsent hty => exact hstore hty
  | creates _ hty _ _ => exact hstore hty
  | replays _ _ _ _ => exact hv

/-- **The request taken up is registered, and not on the wire yet.** -/
theorem Posts.fresh {p : TaskId → Point (upbit env cfg)} {c : Conn (upbit env cfg)}
    {r' : Registry} {ws : Option Ws} {next : Option (Nat × Nat)} {x : Ws × Request} {k : Coro}
    (h : Posts env U (registry c) ws next r' (some (x, k))) (hk : (registry c).Keyed env)
    (hw : Wire p c)
    (hnext : ∀ w pos size, ws = some w → next = some (pos, size) → StillToSend p c w pos size) :
    ws = some x.1 ∧ x.2 ∈ r'.requests ∧ ¬OnWire p c x := by
  cases h with
  | creates hws _ hcodes _ =>
    refine ⟨hws, ?_, fun hx => hk.request_fresh (hw.known _ hx).2 rfl⟩
    rw [hk.requests_store, List.mem_append, List.mem_singleton, map_upper_of_fixed hcodes]
    exact .inr rfl
  | replays hws hn hsize hget =>
    refine ⟨hws, List.mem_of_getElem? hget, hnext _ _ _ hws hn _ _ (Nat.le_refl _) ?_ hget⟩
    rw [← hsize]
    exact (List.getElem?_eq_some_iff.1 hget).1

theorem Posts.seed {r r' : Registry} {ws : Option Ws} {next : Option (Nat × Nat)}
    {x : Ws × Request} {codes : List String}
    (h : Posts env U r ws next r' (some (x, .seedTrade codes))) : ∀ m ∈ codes, upper U m = m := by
  cases h with
  | creates _ _ hcodes hk =>
    rcases hk with hk | hk | hk <;> cases hk
    exact hcodes

theorem Posts.replay {r r' : Registry} {ws : Option Ws} {next : Option (Nat × Nat)}
    {x : Ws × Request} {pos size : Nat}
    (h : Posts env U r ws next r' (some (x, .replay pos size))) :
    r' = r ∧ ws = some x.1 ∧ next = some (pos, size) ∧ r.requests.length = size ∧
      r.requests[pos]? = some x.2 := by
  cases h with
  | creates _ _ _ hk => rcases hk with hk | hk | hk <;> cases hk
  | replays hws hn hsize hget => exact ⟨rfl, hws, hn, hsize, hget⟩

/-- An entry of a replay elsewhere is not the one taken up. -/
theorem Posts.ne_of_get {c : Conn (upbit env cfg)} {r' : Registry} {ws : Option Ws}
    {x : Ws × Request} {k : Coro} {i : Nat} {r : Request}
    (h : Posts env U (registry c) ws none r' (some (x, k))) (hk : (registry c).Keyed env)
    (hget : (registry c).requests[i]? = some r) : r ≠ x.2 := by
  cases h with
  | creates _ _ _ _ =>
    rintro rfl
    exact hk.request_fresh (List.mem_of_getElem? hget) rfl
  | replays _ hn _ _ => cases hn

/-- **The invariant after task `t` has taken up its next request, or none.** -/
theorem Wire.posts {p : TaskId → Point (upbit env cfg)} {c : Conn (upbit env cfg)}
    (c' : Conn (upbit env cfg)) {t : TaskId} {P : Point (upbit env cfg)}
    {next : Option (Nat × Nat)} (h : Wire p c) (hk : (registry c).Keyed env)
    (ht : outgoing (p t) = none)
    (hp : Posts env U (registry c) c'.websocket next (registry c') (outgoing P))
    (hsent : wire c' = wire c) (hle : c.opened ≤ c'.opened)
    (hlatest : ∀ w, c'.websocket = some w → w + 1 = c'.opened)
    (hnext : ∀ w pos size, c'.websocket = some w → next = some (pos, size) →
      StillToSend p c w pos size)
    (hother : (next = none ∧ c'.opened = c.opened) ∨
      ∀ u x pos size, outgoing (p u) ≠ some (x, .replay pos size)) :
    Wire (update p t P) c' := by
  have hsub := hp.prefix hk
  -- what is on the wire now was on it before, or is the request taken up
  have hused : ∀ x, OnWire (update p t P) c' x → OnWire p c x ∨ ∃ k, outgoing P = some (x, k) := by
    intro x hx
    rw [OnWire, pending_update, hsent] at hx
    cases hP : outgoing P with
    | none =>
      rw [pending_eq_none hP] at hx
      exact .inl hx.of_drop
    | some y =>
      obtain ⟨y, k⟩ := y
      rw [pending_of_outgoing hP] at hx
      rcases hx.of_post with rfl | hx
      · exact .inr ⟨k, rfl⟩
      · exact .inl hx
  have hfresh : ∀ x k, outgoing P = some (x, k) →
      c'.websocket = some x.1 ∧ x.2 ∈ (registry c').requests ∧ ¬OnWire p c x := by
    intro x k hP
    rw [hP] at hp
    exact hp.fresh hk h hnext
  refine ⟨?_, hlatest, fun x hx => ?_, hp.valid hk h.valid, fun u x codes hu => ?_,
    fun u x pos size hu => ?_⟩
  · rw [pending_update, hsent]
    cases hP : outgoing P with
    | none =>
      rw [pending_eq_none hP]
      exact h.outbox.drop t
    | some y =>
      obtain ⟨y, k⟩ := y
      rw [pending_of_outgoing hP]
      exact h.outbox.post (hfresh y k hP).2.2
  · rcases hused x hx with hx | ⟨k, hP⟩
    · obtain ⟨h₁, h₂⟩ := h.known x hx
      exact ⟨Nat.lt_of_lt_of_le h₁ hle, hsub.subset h₂⟩
    · obtain ⟨h₁, h₂, -⟩ := hfresh x k hP
      exact ⟨by rw [← hlatest x.1 h₁]; exact Nat.lt_succ_self _, h₂⟩
  · by_cases hut : u = t
    · subst hut
      rw [update_self] at hu
      rw [hu] at hp
      exact hp.seed
    · rw [update_of_ne hut] at hu
      exact h.seed u x codes hu
  · by_cases hut : u = t
    · subst hut
      rw [update_self] at hu
      rw [hu] at hp
      obtain ⟨hreg, hws, hn, hsize, hget⟩ := hp.replay
      refine ⟨hlatest _ hws, by rw [hreg, hsize], fun i r hi hs hr hx => ?_⟩
      rw [hreg] at hr
      rcases hused _ hx with hx | ⟨k, hP⟩
      · exact hnext _ _ _ hws hn i r (Nat.le_of_succ_le hi) hs hr hx
      · -- the entry being sent is not among those behind it
        rw [hu] at hP
        have hxr : x.2 = r := congrArg (fun o => o.1.2) (Option.some.inj hP)
        have hlt := (List.getElem?_eq_some_iff.1 hget).1
        have hpos : pos = i := by
          rw [← List.getElem?_inj hlt hk.requests_nodup, hget, hr, hxr]
        omega
    · rw [update_of_ne hut] at hu
      rcases hother with ⟨rfl, ho⟩ | hno
      · obtain ⟨h₁, h₂, h₃⟩ := h.ahead u x pos size hu
        refine ⟨by rw [ho]; exact h₁, Nat.le_trans h₂ hsub.length_le, fun i r hi hs hr hx => ?_⟩
        have hget : (registry c).requests[i]? = some r := by
          obtain ⟨new, hnew⟩ := hsub
          rw [← hnew, List.getElem?_append_left (Nat.lt_of_lt_of_le hs h₂)] at hr
          exact hr
        rcases hused _ hx with hx | ⟨k, hP⟩
        · exact h₃ i r hi hs hget hx
        · rw [hP] at hp
          exact hp.ne_of_get hk hget rfl
      · exact absurd hu (hno u x pos size)

/-! ## Every run -/

/-- The invariant sees of a task only what it is sending. -/
theorem Wire.congr {p p' : TaskId → Point (upbit env cfg)} {c : Conn (upbit env cfg)}
    (h : Wire p c) (hp : ∀ u, outgoing (p' u) = outgoing (p u)) : Wire p' c := by
  have hpend : (fun u => pending (p' u)) = fun u => pending (p u) := by
    funext u
    rw [pending, pending, hp u]
  have hwire : ∀ x, OnWire p' c x ↔ OnWire p c x := by
    intro x
    rw [OnWire, OnWire, hpend]
  refine ⟨by rw [hpend]; exact h.outbox, h.latest, fun x hx => h.known x ((hwire x).1 hx), h.valid,
    fun u x codes hu => h.seed u x codes (by rw [← hp u]; exact hu), fun u x pos size hu => ?_⟩
  obtain ⟨h₁, h₂, h₃⟩ := h.ahead u x pos size (by rw [← hp u]; exact hu)
  exact ⟨h₁, h₂, fun i r hi hs hr hx => h₃ i r hi hs hr ((hwire _).1 hx)⟩

theorem Wire.update {p : TaskId → Point (upbit env cfg)} {c : Conn (upbit env cfg)} {t : TaskId}
    {P : Point (upbit env cfg)} (h : Wire p c) (hP : outgoing P = outgoing (p t)) :
    Wire (update p t P) c := by
  apply h.congr
  intro u
  by_cases hut : u = t
  · subst hut
    rw [update_self, hP]
  · rw [update_of_ne hut]

theorem Registry.Same.valid {r r' : Registry} (h : r.Same r')
    (hv : ∀ kv ∈ r.subscriptions, kv.2.Valid U) : ∀ kv ∈ r'.subscriptions, kv.2.Valid U := by
  intro kv hkv
  have hm : (kv.1, kv.2.request) ∈ r'.subscriptions.map fun kv => (kv.1, kv.2.request) :=
    List.mem_map_of_mem hkv
  rw [show r'.subscriptions.map _ = _ from h.requests] at hm
  obtain ⟨kv₀, h₀, he⟩ := List.mem_map.1 hm
  simp only [SubscriptionEntry.request, Prod.mk.injEq, Request.mk.injEq, and_true] at he
  have hv₀ := hv kv₀ h₀
  rwa [SubscriptionEntry.Valid, he.2.2.1, he.2.2.2] at hv₀

theorem Registry.Same.requests_eq {r r' : Registry} (h : r.Same r') : r'.requests = r.requests := by
  have hm := congrArg (List.map Prod.snd) h.requests
  rw [List.map_map, List.map_map] at hm
  exact hm

/-- While a task is in the `try` of `connect()`, no other task sends seeds, or replays. -/
theorem Sane.only_sender {p : TaskId → Point (upbit env cfg)} {c : Conn (upbit env cfg)}
    {t u : TaskId} (h : Sane p c) (ht : (p t).attempting = true) {x : Ws × Request} {q : Coro}
    (hu : outgoing (p u) = some (x, q)) (hq : q ≠ .subscribe) : u = t := by
  have hd := h.sockets.disciplined
  exact hd.mutex (Point.attempting_holding (outgoing_attempting hu hq (h.below u)))
    (Point.attempting_holding ht)

section Edges

variable {isDone : TaskId → Bool} {t : TaskId} {p : TaskId → Point (upbit env cfg)}
  {P P' : Point (upbit env cfg)} {c c' : Conn (upbit env cfg)}

/-- A task at `P` gives its request up, if it has one, or has none. -/
theorem Wire.leaves (h : Wire (Function.update p t P) c) (hP : outgoing P' = none)
    (hsent : wire c' = wire c) (hws : ∀ w, c'.websocket = some w → c.websocket = some w)
    (ho : c'.opened = c.opened) (hr : (registry c).Same (registry c')) :
    Wire (Function.update p t P') c' := by
  have := h.drop (t := t) hP hsent hws ho hr.requests_eq (hr.valid h.valid)
  rwa [update_idem] at this

/-- A new socket: the seeds are asked for on it, or the replay begins. -/
theorem Wire.dialed {k : Caller} {i : Registry} {r : SendStep Coro Request}
    (hw : Wire (Function.update p t (.resumed (.connect k .dialing) .done)) c)
    (hs : Sane (Function.update p t (.resumed (.connect k .dialing) .done)) c)
    (hr : sendSubscriptionMessage env cfg (registry c) (some c.opened) = (i, r)) :
    Wire (Function.update p t (.sent k r))
      { c with websocket := some c.opened, opened := c.opened + 1, inst := i } := by
  have hk := hs.keyed
  have hposts : Posts env U (registry c) (some c.opened)
      (some (0, (registry c).requests.length)) (i, r).1 (stepOutgoing (i, r).2) :=
    hr ▸ sendSubscriptionMessage_posts (registry c) (some c.opened)
  have hstep := hw.posts (t := t) (P := .sent k r)
    { c with websocket := some c.opened, opened := c.opened + 1, inst := i } hk
    (by rw [update_self]; rfl) hposts rfl (Nat.le_succ _) (fun w hw => by cases hw; rfl)
    (fun w pos size hws _ j x _ _ _ hx => ?_) (.inr fun u x pos size hu => ?_)
  · rwa [update_idem] at hstep
  · cases hws
    exact Nat.lt_irrefl _ (hw.known _ hx).1
  · have hut := hs.only_sender (t := t) (by rw [update_self]; rfl) hu nofun
    rw [hut, update_self] at hu
    cases hu

/-- A request has gone out, and the next one is taken up. -/
theorem Wire.sent {k : Caller} {w : Ws} {x : Request} {q : Coro} {i : Registry}
    {r : SendStep Coro Request}
    (hw : Wire (Function.update p t (.resumed (.connect k (.sending w x q)) .done)) c)
    (hs : Sane (Function.update p t (.resumed (.connect k (.sending w x q)) .done)) c)
    (hr : resumeSend env U (registry c) c.websocket q none = (i, r)) :
    Wire (Function.update p t (.sent k r)) { sentTo c w x with inst := i } := by
  have hk := hs.keyed
  have hself : Function.update p t (.resumed (.connect k (.sending w x q)) .done) t = _ :=
    update_self _ _ _
  have hposts : Posts env U (registry c) c.websocket q.next (i, r).1 (stepOutgoing (i, r).2) :=
    hr ▸ resumeSend_posts (registry c) c.websocket fun codes hq =>
      hw.seed t (w, x) codes (by rw [hself, ← hq]; rfl)
  have hsent : Wire (Function.update p t .idle) (sentTo c w x) := by
    have := hw.deliver (t := t) (P := .idle) (sentTo c w x) (x := (w, x))
      (by rw [hself]; rfl) rfl rfl rfl rfl rfl
    rwa [update_idem] at this
  have hback : ∀ y, OnWire (Function.update p t .idle) (sentTo c w x) y →
      OnWire (Function.update p t (.resumed (.connect k (.sending w x q)) .done)) c y := by
    intro y hy
    rw [← update_idem (v := .resumed (.connect k (.sending w x q)) .done), OnWire,
      pending_update] at hy
    exact hy.of_deliver (by rw [hself]; rfl)
  have hstep := hsent.posts (t := t) (P := .sent k r) { sentTo c w x with inst := i } hk
    (by rw [update_self]; rfl) hposts rfl (Nat.le_refl _) hw.latest
    (fun v pos size hv hn => ?_) (.inr fun u y pos size hu => ?_)
  · rwa [update_idem] at hstep
  · -- the replay goes on, on the socket it is on
    cases q <;> cases hn
    rename_i pos
    obtain ⟨h₁, -, h₃⟩ := hw.ahead t (w, x) pos size (by rw [hself]; rfl)
    have hvw : v = w := Nat.succ.inj ((hw.latest v hv).trans h₁.symm)
    subst hvw
    exact fun j y hj hjs hy hx => h₃ j y hj hjs hy (hback _ hx)
  · by_cases hut : u = t
    · subst hut
      rw [update_self] at hu
      cases hu
    · rw [update_of_ne hut] at hu
      exact hut (hs.only_sender (q := .replay pos size) (by rw [hself]; rfl)
        (by rw [update_of_ne hut]; exact hu) nofun)

theorem Edge.wire (h : Edge cfg isDone t P c P' c') (hs : Sane (Function.update p t P) c)
    (hw : Wire (Function.update p t P) c) : Wire (Function.update p t P') c' := by
  have hk := hs.keyed
  have hsame : (registry c).Same (registry c) := ⟨.refl _, rfl⟩
  cases h
  case dialReturned k i r hr => exact hw.dialed hs hr
  case sendReturned k w x q i r hr => exact hw.sent hs hr
  case sendRaised k w x q e i r hr =>
    have hr' : resumeSend env U (registry c) c.websocket q (some e) = (i, r) := hr
    obtain ⟨hi, hn⟩ : (i, r).1 = _ ∧ stepOutgoing (i, r).2 = none :=
      hr' ▸ resumeSend_raised (registry c) c.websocket q e
    exact hw.leaves hn rfl (fun _ h => h) rfl (show (registry c).Same i from hi ▸ hsame)
  case send => simpa using hw.update (t := t) (P := .suspended _) (by rw [update_self]; rfl)
  case ownSend => simpa using hw.update (t := t) (P := .suspended _) (by rw [update_self]; rfl)
  case ownStart o i r hr =>
    obtain ⟨ty, codes⟩ := o
    have hposts : Posts env U (registry c) c.websocket none (i, r).1 (stepOutgoing (i, r).2) :=
      hr ▸ subscribe_posts (registry c) c.websocket ty codes
    have hstep := hw.posts (t := t) (P := .own r) { c with inst := i } hk
      (by rw [update_self]; rfl) hposts rfl (Nat.le_refl _) hw.latest
      (fun _ _ _ _ hn => by cases hn) (.inl ⟨rfl, rfl⟩)
    rwa [update_idem] at hstep
  case ownSent w x q i r hr =>
    have hb := hs.below t
    rw [update_self] at hb
    obtain ⟨-, rfl⟩ := hb
    cases hr
    have := hw.deliver (t := t) (P := .own .returned) (sentTo c w x) (x := (w, x))
      (by rw [update_self]; rfl) rfl rfl rfl rfl rfl
    rwa [update_idem] at this
  case ownSendRaised w x q e i r hr =>
    have hr' : resumeSend env U (registry c) c.websocket q (some e) = (i, r) := hr
    obtain ⟨hi, hn⟩ : (i, r).1 = _ ∧ stepOutgoing (i, r).2 = none :=
      hr' ▸ resumeSend_raised (registry c) c.websocket q e
    exact hw.leaves hn rfl (fun _ h => h) rfl (show (registry c).Same i from hi ▸ hsame)
  case frameSkipped hp | frameInvalid _ hp | frameRaised _ hp =>
    exact hw.leaves rfl rfl (fun _ h => h) rfl (upbit_parse_same hp)
  case convertInvalid hd _ hp | convertRaised hd _ hp | converted hd hp =>
    exact hw.leaves rfl rfl (fun _ h => h) rfl
      ((upbit_parse_same hp).trans (upbit_convert_same hd))
  all_goals exact hw.leaves rfl rfl (by first | exact fun _ h => h | nofun) rfl hsame

end Edges

theorem keeps_wire : Keeps cfg (fun _ _ => True)
    (fun p (c : Conn (upbit env cfg)) => Sane p c ∧ Wire p c) where
  edge he h := ⟨Edge.sane he h.1, Edge.wire he h.1 h.2⟩
  call hg hi h := ⟨keeps_sane.call hg hi h.1, h.2.update (by rw [hi]; rfl)⟩
  next hg hi hm h := ⟨keeps_sane.next hg hi hm h.1, h.2.update (by rw [hi]; rfl)⟩
  resume hg hi h := ⟨keeps_sane.resume hg hi h.1, h.2.update (by rw [hi]; rfl)⟩
  rest {p t c P} h := by
    refine ⟨keeps_sane.rest h.1, ?_⟩
    have := h.2.update (t := t) (P := P.rest) (by rw [update_self]; cases P <;> rfl)
    rwa [update_idem] at this

theorem wire_init : Wire (Sys.init (upbit env cfg) Registry.init).point
    (Sys.init (upbit env cfg) Registry.init).conn where
  outbox := outbox_empty
  latest _ h := by cases h
  known x h := by
    rcases h with h | ⟨u, h⟩
    · cases h
    · cases h
  valid _ h := by cases h
  seed _ _ _ h := by cases h
  ahead _ _ _ _ h := by cases h

/-- A ticket has one request. -/
theorem Registry.Keyed.request_unique {r : Registry} (h : r.Keyed env) {x y : Request}
    (hx : x ∈ r.requests) (hy : y ∈ r.requests) (ht : x.ticket = y.ticket) : x = y := by
  obtain ⟨kx, hkx, rfl⟩ := List.mem_map.1 hx
  obtain ⟨ky, hky, rfl⟩ := List.mem_map.1 hy
  have hkeys : kx.1 = ky.1 := (h.ticket kx hkx).symm.trans (ht.trans (h.ticket ky hky))
  rw [List.inj_on_of_nodup_map h.nodup hkx hky hkeys]

theorem Wire.requestedOnce {p : TaskId → Point (upbit env cfg)} {c : Conn (upbit env cfg)}
    (hw : Wire p c) (hs : Sane p c) : RequestedOnce c := by
  refine ⟨?_, fun x hx => (hw.known x (.inl hx)).1, fun x hx => ?_⟩
  · refine List.Nodup.map_on (fun x hx y hy hxy => ?_) hw.outbox.nodup
    obtain ⟨hws, ht⟩ := Prod.mk.inj hxy
    have hrequest : x.2 = y.2 :=
      hs.keyed.request_unique (hw.known x (.inl hx)).2 (hw.known y (.inl hy)).2 ht
    exact Prod.ext hws hrequest
  · obtain ⟨kv, hkv, he⟩ := List.mem_map.1 (hw.known x (.inl hx)).2
    refine ⟨kv.2, ?_, he, hw.valid kv hkv⟩
    have hkey : x.2.ticket = kv.1 := by
      rw [← he]
      exact hs.keyed.ticket kv hkv
    rw [hkey]
    exact hkv

/-- **No subscription is requested twice on one socket**, in any run: whatever tasks connect,
reconnect, subscribe, disconnect or are cancelled, and whichever sends fail.  Each request that was
sent asks for a registered subscription, of a type there is and with upper-cased codes. -/
theorem requestedOnce_of_reachable {s : Sys (upbit env cfg)}
    (h : Reachable (step cfg) (Sys.init (upbit env cfg) Registry.init) s) :
    RequestedOnce s.conn := by
  obtain ⟨hs, hw⟩ := reachable_invariant
    (P := fun s : Sys (upbit env cfg) => Sane s.point s.conn ∧ Wire s.point s.conn)
    (fun s l s' hi hs => keeps_wire.step trivial hi hs) ⟨sane_init, wire_init⟩ h
  exact hw.requestedOnce hs

/-- A task subscribes while the seeds are being sent, and the connector reconnects. -/
def resubscribing : List (Label (upbit quietEnvironment krwBtcConfig)) :=
  [.call 0 .connect, .resume 0 .done, .call 1 (.own (.subscribe "trade" ["krw-eth"])),
    .resume 0 .done, .resume 1 .done, .resume 0 .done, .call 0 .disconnect, .resume 0 .done,
    .call 0 .connect, .resume 0 .done, .resume 0 .done, .resume 0 .done, .resume 0 .done]

theorem resubscribing_isSome : (run (step krwBtcConfig)
    (Sys.init (upbit quietEnvironment krwBtcConfig) Registry.init) resubscribing).isSome = true :=
  rfl

def resubscribed : Sys (upbit quietEnvironment krwBtcConfig) := Option.get _ resubscribing_isSome

/-- `requestedOnce_of_reachable` after three subscriptions on two sockets. -/
theorem requestedOnce_of_reachable_resubscribed :
    (wire resubscribed.conn).map (fun x => (x.1, x.2.codes)) =
      [(0, ["KRW-BTC"]), (0, ["KRW-ETH"]), (0, ["KRW-BTC"]),
        (1, ["KRW-BTC"]), (1, ["KRW-ETH"]), (1, ["KRW-BTC"])] ∧
      RequestedOnce resubscribed.conn :=
  ⟨by decide +kernel, requestedOnce_of_reachable ⟨resubscribing, (Option.some_get _).symm⟩⟩

end FlinkPractices.Upbit
