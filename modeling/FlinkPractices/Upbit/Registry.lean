import FlinkPractices.Connector.Leak
import FlinkPractices.Upbit.Completeness

/-!
# The registry in all runs

Any number of tasks on the Upbit connector, with cancellations, whatever the network answers.

* `Registry.Keyed` — each entry is stored under its own ticket, tickets differ, and all of them have
  been issued; so a new ticket is always fresh.
* `Registry.Grown`, `Registry.Same` — the two ways in which a segment changes the subscriptions: one
  more under a new ticket, or none.
* `Sane` — besides, every request was sent, or is being sent, on a socket that has been opened.

## Proof

`Sends` states what a segment of a sending coroutine does: the registry stays keyed, and what is
sent goes to the stored socket.  It is proved of each coroutine, and `Edge.sends` reads it off the
edges of the control flow; on all other edges the registry changes by parsing and converting a
frame, which is `Registry.Same`.  `Edge.sane` puts the parts together.

Principal result: `sane_of_reachable`, with the induction over runs of `keeps_sane`.

Tickets stand for what `uuid4()` returns: that they differ is part of the environment, and nothing
else is used of them.
-/

set_option autoImplicit false

namespace FlinkPractices.Upbit

open Lib Connector Function

variable {U : UpperTable} {env : Environment} {cfg : ExchangeConfig U}

/-! ## Tickets -/

/-- Each entry is stored under its ticket, and the tickets are different UUIDs. -/
structure Registry.Keyed (env : Environment) (r : Registry) : Prop where
  nodup : (r.subscriptions.map (·.1)).Nodup
  ticket : ∀ kv ∈ r.subscriptions, kv.2.ticket = kv.1
  issued : ∀ kv ∈ r.subscriptions, ∃ n < r.issued, kv.1 = env.uuid4 n

/-- The next ticket is not in use. -/
theorem Registry.Keyed.fresh {r : Registry} (h : r.Keyed env) :
    ∀ kv ∈ r.subscriptions, kv.1 ≠ env.uuid4 r.issued := by
  intro kv hkv he
  obtain ⟨n, hn, hk⟩ := h.issued kv hkv
  have hne : n = r.issued := env.uuid4_inj (hk.symm.trans he)
  omega

/-- One more entry, under a new ticket. -/
structure Registry.Grown (env : Environment) (r r' : Registry) : Prop where
  subscriptions : ∃ e : SubscriptionEntry, e.ticket = env.uuid4 r.issued ∧
    r'.subscriptions = r.subscriptions ++ [(env.uuid4 r.issued, e)]
  issued : r'.issued = r.issued + 1

theorem Registry.Grown.keyed {r r' : Registry} (hg : r.Grown env r') (h : r.Keyed env) :
    r'.Keyed env := by
  obtain ⟨⟨e, he, hs⟩, hi⟩ := hg
  refine ⟨?_, ?_, ?_⟩
  · rw [hs, List.map_append, List.map_singleton, List.nodup_append]
    refine ⟨h.nodup, List.nodup_singleton _, ?_⟩
    rintro _ ha _ hb rfl
    obtain ⟨kv, hkv, rfl⟩ := List.mem_map.1 ha
    exact h.fresh kv hkv (List.mem_singleton.1 hb)
  all_goals
    intro kv hkv
    rw [hs, List.mem_append, List.mem_singleton] at hkv
  · rcases hkv with hkv | rfl
    · exact h.ticket kv hkv
    · exact he
  · rw [hi]
    rcases hkv with hkv | rfl
    · obtain ⟨n, hn, hk⟩ := h.issued kv hkv
      exact ⟨n, Nat.lt_succ_of_lt hn, hk⟩
    · exact ⟨r.issued, Nat.lt_succ_self _, rfl⟩

theorem createAndSendSubscription_grown {r : Registry} (h : r.Keyed env) (ws : Option Ws)
    (ty : String) (codes : List String) (k : Coro) :
    r.Grown env (createAndSendSubscription env U r ws ty codes k).1 :=
  ⟨⟨_, rfl, dictSet_of_not_mem _ h.fresh⟩, rfl⟩

/-- The same subscriptions, and no ticket issued. -/
structure Registry.Same (r r' : Registry) : Prop where
  requests : r.SameRequests r'
  issued : r'.issued = r.issued

theorem Registry.Same.trans {r r' r'' : Registry} (h : r.Same r') (h' : r'.Same r'') :
    r.Same r'' := ⟨h.requests.trans h'.requests, h'.issued.trans h.issued⟩

theorem Registry.Same.keyed {r r' : Registry} (hs : r.Same r') (h : r.Keyed env) :
    r'.Keyed env := by
  have hmem : ∀ kv ∈ r'.subscriptions, ∃ kv₀ ∈ r.subscriptions, kv₀.1 = kv.1 ∧
      kv₀.2.request = kv.2.request := by
    intro kv hkv
    have hm : (kv.1, kv.2.request) ∈ r'.subscriptions.map fun kv => (kv.1, kv.2.request) :=
      List.mem_map_of_mem hkv
    rw [show r'.subscriptions.map _ = _ from hs.requests] at hm
    obtain ⟨kv₀, h₀, he⟩ := List.mem_map.1 hm
    simp only [Prod.mk.injEq] at he
    exact ⟨kv₀, h₀, he⟩
  refine ⟨?_, fun kv hkv => ?_, fun kv hkv => ?_⟩
  · have hm := congrArg (List.map Prod.fst) hs.requests
    simp only [List.map_map] at hm
    exact hm ▸ h.nodup
  · obtain ⟨kv₀, h₀, hk, hr⟩ := hmem kv hkv
    have ht : kv₀.2.ticket = kv.2.ticket := congrArg Request.ticket hr
    rw [← ht, ← hk]
    exact h.ticket kv₀ h₀
  · obtain ⟨kv₀, h₀, hk, -⟩ := hmem kv hkv
    rw [hs.issued, ← hk]
    exact h.issued kv₀ h₀

theorem markActiveFor_issued (r : Registry) (ty code : String) :
    (markActiveFor env U r ty code).issued = r.issued := by
  unfold markActiveFor
  split <;> rfl

theorem parseMessage_same (r : Registry) (f : Frame) : r.Same (parseMessage env cfg r f).1 := by
  refine ⟨parseMessage_sameRequests r f, ?_⟩
  unfold parseMessage
  split
  · rfl
  · split
    · split
      · exact markActiveFor_issued r _ _
      · rfl
    · rfl

theorem toMessage_issued (r : Registry) (dt : MarketDataType) (ty code : String) (d : Dict) :
    (toMessage env cfg .double r dt ty code d).1.issued = r.issued := by
  unfold toMessage
  split
  · split <;> rfl
  · rfl

theorem convertToMarketDataMessages_same (r : Registry) (d : Dict) :
    r.Same (convertToMarketDataMessages env cfg .double r d).1 := by
  refine ⟨convertToMarketDataMessages_sameRequests r d, ?_⟩
  unfold convertToMarketDataMessages
  split
  · exact toMessage_issued r _ _ _ _
  · exact toMessage_issued r _ _ _ _
  · rfl

theorem upbit_parse_same {r r' : Registry} {f : Frame} {x : Except PyExn (Option Dict)}
    (h : (upbit env cfg).parseMessage r f = (r', x)) : r.Same r' := by
  cases h
  exact parseMessage_same r f

theorem upbit_convert_same {r r' : Registry} {d : Dict} {x : Except PyExn (List MarketDataMessage)}
    (h : (upbit env cfg).convertToMarketDataMessages r d = (r', x)) : r.Same r' := by
  have h' : convertToMarketDataMessages env cfg .double r d = (r', x) := h
  have hs : r.Same (convertToMarketDataMessages env cfg .double r d).1 :=
    convertToMarketDataMessages_same r d
  rwa [h'] at hs

/-! ## What the sending coroutines do -/

/-- A send goes to the stored socket. -/
def SendsOn (ws : Option Ws) : SendStep Coro Request → Prop
  | .send w _ _ => ws = some w
  | _ => True

theorem sendSingleSubscription_on (ws : Option Ws) (ticket ty : String) (codes : List String)
    (k : Coro) : SendsOn ws (sendSingleSubscription ws ticket ty codes k) := by
  unfold sendSingleSubscription
  split
  · exact rfl
  · trivial

theorem wrapFailure_on {ws : Option Ws} {r : SendStep Coro Request} (h : SendsOn ws r) :
    SendsOn ws (wrapFailure r) := by
  cases r <;> exact h

theorem replayNext_on (r : Registry) (ws : Option Ws) (pos size : Nat) :
    SendsOn ws (replayNext r ws pos size) := by
  unfold replayNext
  split
  · split
    · exact sendSingleSubscription_on _ _ _ _ _
    · trivial
  · trivial

/-- A segment of a sending coroutine: the registry stays keyed, and what is sent goes to the stored
socket. -/
structure Sends (env : Environment) (ws : Option Ws) (x : Registry × SendStep Coro Request) :
    Prop where
  keyed : x.1.Keyed env
  socket : SendsOn ws x.2

theorem createAndSendSubscription_sends {r : Registry} (h : r.Keyed env) (ws : Option Ws)
    (ty : String) (codes : List String) (k : Coro) :
    Sends env ws (createAndSendSubscription env U r ws ty codes k) :=
  ⟨(createAndSendSubscription_grown h ws ty codes k).keyed h, sendSingleSubscription_on _ _ _ _ _⟩

theorem sendSubscriptionMessage_sends {r : Registry} (h : r.Keyed env) (ws : Option Ws) :
    Sends env ws (sendSubscriptionMessage env cfg r ws) := by
  unfold sendSubscriptionMessage
  split
  · exact ⟨h, trivial⟩
  · rename_i w
    split
    · have hc := createAndSendSubscription_sends (U := U) h (some w) "trade" cfg.subscribedMarkets
        (.seedTrade cfg.subscribedMarkets)
      exact ⟨hc.keyed, wrapFailure_on hc.socket⟩
    · exact ⟨h, wrapFailure_on (replayNext_on _ _ _ _)⟩

theorem resumeSend_sends {r : Registry} (h : r.Keyed env) (ws : Option Ws) (q : Coro)
    (e : Option PyExn) : Sends env ws (resumeSend env U r ws q e) := by
  cases e with
  | none =>
    cases q with
    | seedTrade codes =>
      have hc := createAndSendSubscription_sends (U := U) h ws "orderbook" codes .seedOrderbook
      exact ⟨hc.keyed, wrapFailure_on hc.socket⟩
    | replay pos size => exact ⟨h, wrapFailure_on (replayNext_on _ _ _ _)⟩
    | _ => exact ⟨h, trivial⟩
  | some e => cases q <;> exact ⟨h, trivial⟩

theorem subscribe_sends {r : Registry} (h : r.Keyed env) (ws : Option Ws) (ty : String)
    (codes : List String) : Sends env ws (subscribe env U r ws ty codes) := by
  unfold subscribe
  split
  · split
    · exact ⟨h, trivial⟩
    · exact createAndSendSubscription_sends h _ _ _ _
  · exact ⟨h, trivial⟩

/-- `subscribe()` sends one request at most. -/
theorem subscribe_coro {r i : Registry} {ws : Option Ws} {ty : String} {codes : List String}
    {w : Ws} {p : Request} {q : Coro} (h : subscribe env U r ws ty codes = (i, .send w p q)) :
    q = .subscribe := by
  unfold subscribe at h
  split at h
  · split at h
    · cases h
    · simp only [createAndSendSubscription, sendSingleSubscription] at h
      cases h
      rfl
  · cases h

/-! ## Every run -/

/-- Where a request is being sent, the socket is one of the `n` opened so far. -/
def PcBelow (n : Nat) : Pc (upbit env cfg) → Prop
  | .connect _ (.sending w _ _) => w < n
  | .own w _ q => w < n ∧ q = Coro.subscribe
  | _ => True

def PointBelow (n : Nat) : Point (upbit env cfg) → Prop
  | .suspended pc => PcBelow n pc
  | .resumed pc _ => PcBelow n pc
  | .sent _ (.send w _ _) => w < n
  | .own (.send w _ q) => w < n ∧ q = Coro.subscribe
  | _ => True

/-- The invariant of all runs. -/
structure Sane (p : TaskId → Point (upbit env cfg)) (c : Conn (upbit env cfg)) : Prop where
  sockets : SocketsKept p c
  keyed : (registry c).Keyed env
  sent : ∀ x ∈ c.sent, x.1 < c.opened
  below : ∀ u, PointBelow c.opened (p u)

theorem PcBelow.mono {n m : Nat} (hnm : n ≤ m) : ∀ {pc : Pc (upbit env cfg)}, PcBelow n pc →
    PcBelow m pc
  | .connect _ (.sending _ _ _), h => Nat.lt_of_lt_of_le h hnm
  | .own _ _ _, h => ⟨Nat.lt_of_lt_of_le h.1 hnm, h.2⟩
  | .connect _ .lock, _ => trivial
  | .connect _ (.awaitTask _), _ => trivial
  | .connect _ (.awaitTaskLocked _), _ => trivial
  | .connect _ .dialing, _ => trivial
  | .connect _ (.closing _), _ => trivial
  | .disconnectLock, _ => trivial
  | .disconnectClosing _, _ => trivial
  | .recv _, _ => trivial
  | .lostClosing _, _ => trivial
  | .backoff _, _ => trivial

theorem PointBelow.mono {n m : Nat} (hnm : n ≤ m) {P : Point (upbit env cfg)}
    (h : PointBelow n P) : PointBelow m P := by
  cases P with
  | suspended pc => exact PcBelow.mono hnm h
  | resumed pc w => exact PcBelow.mono hnm h
  | sent k r =>
    cases r with
    | send w p q => exact Nat.lt_of_lt_of_le h hnm
    | _ => trivial
  | own r =>
    cases r with
    | send w p q => exact ⟨Nat.lt_of_lt_of_le h.1 hnm, h.2⟩
    | _ => trivial
  | _ => trivial

/-- No edge forgets a socket. -/
theorem Edge.opened_le {isDone : TaskId → Bool} {t : TaskId} {P P' : Point (upbit env cfg)}
    {c c' : Conn (upbit env cfg)} (h : Edge cfg isDone t P c P' c') : c.opened ≤ c'.opened := by
  cases h.sockets with
  | same _ h₂ _ => exact Nat.le_of_eq h₂.symm
  | opens _ _ _ h₂ _ => exact h₂ ▸ Nat.le_succ _
  | closes _ _ h₂ _ => exact Nat.le_of_eq h₂.symm
  | clears _ _ h₂ _ => exact Nat.le_of_eq h₂.symm

/-- What an edge does to the registry and to the requests, and where it goes on sending. -/
theorem Edge.sends {isDone : TaskId → Bool} {t : TaskId} {P P' : Point (upbit env cfg)}
    {c c' : Conn (upbit env cfg)} (h : Edge cfg isDone t P c P' c')
    (hst : ∀ w, c.websocket = some w → w < c.opened) (hk : (registry c).Keyed env)
    (hs : ∀ x ∈ c.sent, x.1 < c.opened) (hP : PointBelow c.opened P) :
    (registry c').Keyed env ∧ (∀ x ∈ c'.sent, x.1 < c'.opened) ∧ PointBelow c'.opened P' := by
  -- where the next request goes
  have next : ∀ {r : SendStep Coro Request} {n : Nat} {ws : Option Ws} {k : Caller},
      (∀ w, ws = some w → w < n) → SendsOn ws r →
        PointBelow n (.sent k r : Point (upbit env cfg)) := by
    intro r n ws k hws hr
    cases r with
    | send w p q => exact hws w hr
    | _ => trivial
  -- the request `p` has been sent on `w`
  have snoc : ∀ {w : Ws} {p : (upbit env cfg).Payload}, w < c.opened →
      ∀ x ∈ c.sent ++ [(w, p)], x.1 < c.opened := by
    intro w p hw x hx
    rcases List.mem_append.1 hx with hx | hx
    · exact hs x hx
    · rw [List.mem_singleton.1 hx]
      exact hw
  cases h
  case dialReturned i r hr =>
    obtain ⟨h₁, h₂⟩ : Sends env (some c.opened) (i, r) :=
      hr ▸ sendSubscriptionMessage_sends hk (some c.opened)
    refine ⟨h₁, fun x hx => Nat.lt_succ_of_lt (hs x hx), next (fun w hw => ?_) h₂⟩
    cases hw
    exact Nat.lt_succ_self _
  case sendReturned w p q i r hr =>
    obtain ⟨h₁, h₂⟩ : Sends env c.websocket (i, r) :=
      hr ▸ resumeSend_sends hk c.websocket q none
    exact ⟨h₁, snoc hP, next hst h₂⟩
  case sendRaised w p q e i r hr =>
    obtain ⟨h₁, h₂⟩ : Sends env c.websocket (i, r) :=
      hr ▸ resumeSend_sends hk c.websocket q (some e)
    exact ⟨h₁, hs, next hst h₂⟩
  case send => exact ⟨hk, hs, hP⟩
  case frameSkipped hp | frameInvalid _ hp | frameRaised _ hp =>
    exact ⟨(upbit_parse_same hp).keyed hk, hs, trivial⟩
  case convertInvalid hd _ hp | convertRaised hd _ hp | converted hd hp =>
    exact ⟨((upbit_parse_same hp).trans (upbit_convert_same hd)).keyed hk, hs, trivial⟩
  case ownStart o i r hr =>
    obtain ⟨ty, codes⟩ := o
    obtain ⟨h₁, h₂⟩ : Sends env c.websocket (i, r) :=
      hr ▸ subscribe_sends hk c.websocket ty codes
    refine ⟨h₁, hs, ?_⟩
    cases r with
    | send w p q => exact ⟨hst w h₂, subscribe_coro hr⟩
    | _ => trivial
  case ownSend => exact ⟨hk, hs, hP⟩
  case ownSent w p q i r hr =>
    obtain ⟨hw, rfl⟩ := hP
    cases hr
    exact ⟨hk, snoc hw, trivial⟩
  case ownSendRaised w p q e i r hr =>
    obtain ⟨hw, rfl⟩ := hP
    cases hr
    exact ⟨hk, hs, trivial⟩
  all_goals exact ⟨hk, hs, trivial⟩

theorem Edge.sane {isDone : TaskId → Bool} {t : TaskId} {p : TaskId → Point (upbit env cfg)}
    {P P' : Point (upbit env cfg)} {c c' : Conn (upbit env cfg)} (h : Edge cfg isDone t P c P' c')
    (hs : Sane (update p t P) c) : Sane (update p t P') c' := by
  have hP : PointBelow c.opened P := by
    have := hs.below t
    rwa [update_self] at this
  obtain ⟨hk, hsent, hP'⟩ := Edge.sends h hs.sockets.stored hs.keyed hs.sent hP
  refine ⟨h.socketsKept hs.sockets, hk, hsent, fun u => ?_⟩
  by_cases hut : u = t
  · subst hut
    rwa [update_self]
  · have hu := hs.below u
    rw [update_of_ne hut] at hu ⊢
    exact hu.mono (Edge.opened_le h)

theorem Sane.update_of_below {p : TaskId → Point (upbit env cfg)} {c : Conn (upbit env cfg)}
    {t : TaskId} {P : Point (upbit env cfg)} (h : Sane p c)
    (hk : SocketsKept (update p t P) c) (hP : PointBelow c.opened P) : Sane (update p t P) c := by
  refine ⟨hk, h.keyed, h.sent, fun u => ?_⟩
  by_cases hut : u = t
  · subst hut
    rwa [update_self]
  · rw [update_of_ne hut]
    exact h.below u

theorem keeps_sane : Keeps cfg (fun _ _ => True)
    (fun p (c : Conn (upbit env cfg)) => Sane p c) where
  edge he hs := Edge.sane he hs
  call hg hi h := h.update_of_below ((keeps_socketsKept cfg).call hg hi h.sockets) trivial
  next hg hi hm h := h.update_of_below ((keeps_socketsKept cfg).next hg hi hm h.sockets) trivial
  resume {s t pc w} hg hi h := by
    apply h.update_of_below ((keeps_socketsKept cfg).resume hg hi h.sockets)
    have := h.below t
    rw [hi] at this
    exact this
  rest {p t c P} h := by
    have hP : PointBelow c.opened P := by
      have := h.below t
      rwa [update_self] at this
    have := h.update_of_below (t := t) (P := P.rest)
      (by simpa using (keeps_socketsKept cfg).rest h.sockets)
      (by cases P <;> exact hP)
    simpa using this

theorem Registry.keyed_init : Registry.init.Keyed env :=
  ⟨List.nodup_nil, fun _ h => (by cases h), fun _ h => (by cases h)⟩

theorem sane_init : Sane (Sys.init (upbit env cfg) Registry.init).point
    (Sys.init (upbit env cfg) Registry.init).conn where
  sockets := socketsKept_init (S := upbit env cfg) Registry.init
  keyed := Registry.keyed_init
  sent _ h := by cases h
  below _ := trivial

/-- **What holds of every reachable connector.** -/
theorem sane_of_reachable {s : Sys (upbit env cfg)}
    (h : Reachable (step cfg) (Sys.init (upbit env cfg) Registry.init) s) :
    Sane s.point s.conn := by
  refine reachable_invariant (P := fun s : Sys (upbit env cfg) => Sane s.point s.conn)
    (fun s l s' hi hs => ?_) sane_init h
  exact keeps_sane.step trivial hi hs

end FlinkPractices.Upbit
