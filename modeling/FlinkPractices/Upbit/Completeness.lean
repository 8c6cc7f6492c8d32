import FlinkPractices.Connector.Cleanup
import FlinkPractices.Upbit.Connector

/-!
# Is every market subscribed whenever the Upbit connector is `CONNECTED`?

One task uses the connector (`Label.OneTask`).  `Conn.Complete` says that on the current socket a
trade request and an order book request have been sent for every configured market.

The first `connect()` seeds the registry in two steps, each of which stores an entry before it
sends the request; every later `connect()` replays the registry.  `Registry.Covers` — an entry of
each type for all markets — therefore holds from the second step on, unless the *first* send of
the seeding fails (`Sys.FailsSeeding`): then the registry holds the trade entry alone, for good.

## Proof

* `Settled`, `Down` — the registry is sound, and the connector complete if it is `CONNECTED`; the
  latter holds trivially while it is not.
* `Seeded` — one assertion for each place of the coroutines; while a request is being sent, it says
  how much of the seeds, or of the registry, has been requested.
* `Edge.seeded` — each edge leads from the assertion of its place to that of the next, and
  `step_inv` puts the paths of a step together.

Principal results:

* `complete_of_seeded` — without such a failure every `CONNECTED` state of a run is complete,
  whatever else fails;
* `failedSeeding_incomplete` — after such a failure the next `connect()` ends `CONNECTED` without
  any order book request.
-/

set_option autoImplicit false

namespace FlinkPractices.Upbit

open Lib Connector Function

variable {U : UpperTable} {env : Environment} {cfg : ExchangeConfig U}

/-! ## The registry -/

/-- The request that asks for a registered subscription. -/
def SubscriptionEntry.request (e : SubscriptionEntry) : Request :=
  ⟨e.ticket, e.subType, e.codes, "DEFAULT"⟩

/-- An entry of each type that has all configured markets. -/
def Registry.Covers (cfg : ExchangeConfig U) (r : Registry) : Prop :=
  ∀ ty, ty = "trade" ∨ ty = "orderbook" → ∃ (i : Nat) (k : String) (e : SubscriptionEntry),
    r.subscriptions[i]? = some (k, e) ∧ e.subType = ty ∧ ∀ m ∈ cfg.subscribedMarkets, m ∈ e.codes

/-- Nothing registered yet, or everything. -/
def Registry.Sound (cfg : ExchangeConfig U) (r : Registry) : Prop :=
  r.subscriptions = [] ∨ r.Covers cfg

/-- The same subscriptions, up to their status and times. -/
def Registry.SameRequests (r r' : Registry) : Prop :=
  r'.subscriptions.map (fun kv => (kv.1, kv.2.request)) =
    r.subscriptions.map fun kv => (kv.1, kv.2.request)

theorem Registry.SameRequests.refl (r : Registry) : r.SameRequests r := rfl

theorem Registry.SameRequests.get {r r' : Registry} (h : r.SameRequests r') {i : Nat} {k : String}
    {e : SubscriptionEntry} (hi : r.subscriptions[i]? = some (k, e)) :
    ∃ e', r'.subscriptions[i]? = some (k, e') ∧ e'.request = e.request := by
  have hm := congrArg (fun l => l[i]?) h
  simp only [List.getElem?_map, hi, Option.map_some, Option.map_eq_some_iff] at hm
  obtain ⟨⟨k', e'⟩, hi', he⟩ := hm
  simp only [Prod.mk.injEq] at he
  exact ⟨e', by rw [hi', he.1], he.2⟩

theorem Registry.SameRequests.sound {r r' : Registry} (h : r.SameRequests r')
    (hr : r.Sound cfg) : r'.Sound cfg := by
  rcases hr with hr | hr
  · left
    have hlen := congrArg List.length h
    rw [List.length_map, List.length_map, hr] at hlen
    exact List.length_eq_zero_iff.1 hlen
  · right
    intro ty hty
    obtain ⟨i, k, e, hi, hte, hm⟩ := hr ty hty
    obtain ⟨e', hi', he⟩ := h.get hi
    simp only [SubscriptionEntry.request, Request.mk.injEq, and_true] at he
    exact ⟨i, k, e', hi', by rw [he.2.1, hte], by rw [he.2.2]; exact hm⟩

theorem markActiveFor_sameRequests (r : Registry) (ty code : String) :
    r.SameRequests (markActiveFor env U r ty code) := by
  unfold markActiveFor
  split
  · rfl
  · rfl
  · simp only [Registry.SameRequests, List.map_map]
    refine List.map_congr_left fun kv _ => ?_
    simp only [comp_apply]
    split <;> rfl

theorem parseMessage_sameRequests (r : Registry) (f : Frame) :
    r.SameRequests (parseMessage env cfg r f).1 := by
  unfold parseMessage
  split
  · rfl
  · split
    · split
      · exact markActiveFor_sameRequests r _ _
      · rfl
    · rfl

theorem toMessage_sameRequests (r : Registry) (dt : MarketDataType) (ty code : String) (d : Dict) :
    r.SameRequests (toMessage env cfg .double r dt ty code d).1 := by
  unfold toMessage
  split
  · split <;> rfl
  · rfl

theorem convertToMarketDataMessages_sameRequests (r : Registry) (d : Dict) :
    r.SameRequests (convertToMarketDataMessages env cfg .double r d).1 := by
  unfold convertToMarketDataMessages
  split
  · exact toMessage_sameRequests r _ _ _ _
  · exact toMessage_sameRequests r _ _ _ _
  · rfl

theorem Registry.SameRequests.trans {r r' r'' : Registry} (h : r.SameRequests r')
    (h' : r'.SameRequests r'') : r.SameRequests r'' := Eq.trans h' h

/-- Receiving changes no subscription. -/
theorem upbit_parse_sameRequests {r r' : Registry} {f : Frame} {x : Except PyExn (Option Dict)}
    (h : (upbit env cfg).parseMessage r f = (r', x)) : r.SameRequests r' := by
  cases h; exact parseMessage_sameRequests r f

theorem upbit_convert_sameRequests {r r' : Registry} {d : Dict}
    {x : Except PyExn (List MarketDataMessage)}
    (h : (upbit env cfg).convertToMarketDataMessages r d = (r', x)) : r.SameRequests r' := by
  have h' : convertToMarketDataMessages env cfg .double r d = (r', x) := h
  have hs : r.SameRequests (convertToMarketDataMessages env cfg .double r d).1 :=
    convertToMarketDataMessages_sameRequests r d
  rwa [h'] at hs

/-! ## Storing the two seeds -/

theorem dictSet_of_not_mem {α : Type} {d : List (String × α)} {k : String} (v : α)
    (h : ∀ kv ∈ d, kv.1 ≠ k) : dictSet d k v = d ++ [(k, v)] := by
  unfold dictSet
  rw [if_neg]
  simp only [List.any_eq_true, beq_iff_eq, not_exists, not_and]
  exact h

/-- The entry `_store_subscription` makes of the configured markets. -/
def seedEntry (env : Environment) (cfg : ExchangeConfig U) (r : Registry) (ticket ty : String) :
    SubscriptionEntry :=
  ⟨ticket, ty, cfg.subscribedMarkets.map (upper U), .requested, env.now r.reads, none⟩

theorem seedEntry_codes (r : Registry) (ticket ty : String) :
    (seedEntry env cfg r ticket ty).codes = cfg.subscribedMarkets := by
  refine (List.map_congr_left fun m hm => ?_).trans (List.map_id _)
  exact cfg.markets_upper m hm

/-- Storing the markets under a fresh ticket appends an entry. -/
theorem storeSubscription_subscriptions {r : Registry} {ticket : String} (ty : String)
    (h : ∀ kv ∈ r.subscriptions, kv.1 ≠ ticket) :
    (storeSubscription env U r ticket ty cfg.subscribedMarkets).subscriptions =
      r.subscriptions ++ [(ticket, seedEntry env cfg r ticket ty)] :=
  dictSet_of_not_mem _ h

/-! ## Completeness -/

def registry (c : Conn (upbit env cfg)) : Registry := c.inst

/-- For both types and every configured market, a request has been sent on the current socket. -/
def Complete (c : Conn (upbit env cfg)) : Prop :=
  ∀ ty, ty = "trade" ∨ ty = "orderbook" → ∀ m ∈ cfg.subscribedMarkets,
    ∃ (w : Ws) (p : Request), c.websocket = some w ∧ (w, p) ∈ c.sent ∧ p.subType = ty ∧ m ∈ p.codes

/-- Calls and resumptions of one task that uses `connect()`, `disconnect()` and
`stream_market_data()`; any of its network operations may fail. -/
def OneTask (t : TaskId) : Label (upbit env cfg) → Prop
  | .call _ (.own _) => False
  | .call u _ => u = t
  | .next u => u = t
  | .resume u w => u = t ∧ w ≠ .cancelled
  | .cancel _ _ => False
  | .exit u _ => u = t

/-- The send of the first seeding request fails. -/
def SeedingFails : Pc (upbit env cfg) → Wake (upbit env cfg) → Prop
  | .connect _ (.sending _ _ (Coro.seedTrade _)), .raised _ => True
  | _, _ => False

/-- The step makes it fail. -/
def FailsSeeding (s : Sys (upbit env cfg)) : Label (upbit env cfg) → Prop
  | .resume t w => ∃ pc, (s.tasks t).call = some pc ∧ SeedingFails pc w
  | _ => False

/-! ## What holds where -/

/-- The first `n` entries of the registry have been requested on `w`. -/
def Replayed (c : Conn (upbit env cfg)) (w : Ws) (n : Nat) : Prop :=
  ∀ (i : Nat) (k : String) (e : SubscriptionEntry), i < n →
    (registry c).subscriptions[i]? = some (k, e) → (w, e.request) ∈ c.sent

/-- While request `p` of the coroutine is being sent on `w`. -/
def Sending (c : Conn (upbit env cfg)) (w : Ws) (p : Request) : Coro → Prop
  | .seedTrade codes => c.websocket = some w ∧ codes = cfg.subscribedMarkets ∧
      p.subType = "trade" ∧ p.codes = cfg.subscribedMarkets ∧
      ∃ n e, (registry c).subscriptions = [(env.uuid4 n, e)] ∧ (registry c).issued = n + 1 ∧
        e.subType = "trade" ∧ e.codes = cfg.subscribedMarkets
  | .seedOrderbook => c.websocket = some w ∧ (registry c).Covers cfg ∧
      p.subType = "orderbook" ∧ p.codes = cfg.subscribedMarkets ∧
      ∃ q : Request, (w, q) ∈ c.sent ∧ q.subType = "trade" ∧ q.codes = cfg.subscribedMarkets
  | .replay pos size => c.websocket = some w ∧ (registry c).Covers cfg ∧
      size = (registry c).subscriptions.length ∧ Replayed c w pos ∧
      ∃ k e, (registry c).subscriptions[pos]? = some (k, e) ∧ p = e.request
  | .subscribe => False

/-- The registry is sound, and a `CONNECTED` connector complete. -/
structure Settled (c : Conn (upbit env cfg)) : Prop where
  sound : (registry c).Sound cfg
  complete : c.state = .connected → Complete c

/-- The registry is sound, and the connector not `CONNECTED`. -/
structure Down (c : Conn (upbit env cfg)) : Prop where
  sound : (registry c).Sound cfg
  state : c.state ≠ .connected

/-- The assertion at a suspension point. -/
def PcSeeded : Pc (upbit env cfg) → Conn (upbit env cfg) → Prop
  | .connect _ (.sending w p q), c => Sending c w p q
  | .own _ _ _, _ => False
  | .lostClosing _, c => Down c
  | _, c => Settled c

/-- What a segment of `_send_subscription_message` ends with. -/
def SendSeeded (c : Conn (upbit env cfg)) : SendStep Coro Request → Prop
  | .send w p q => Sending c w p q
  | .returned => (registry c).Sound cfg ∧ Complete c
  | .raised _ => (registry c).Sound cfg

/-- The assertion at a place. -/
def Seeded : Point (upbit env cfg) → Conn (upbit env cfg) → Prop
  | .suspended pc, c => PcSeeded pc c
  | .resumed pc w, c => PcSeeded pc c ∧ w ≠ .cancelled ∧ ¬SeedingFails pc w
  | .sent _ r, c => SendSeeded c r
  | .own _, _ => False
  | .enter (.own _), _ => False
  | .disconnectFinish, c => (registry c).Sound cfg
  | .lostCleanup, c => Down c
  | .retry, c => Down c
  | _, c => Settled c

theorem Down.settled {c : Conn (upbit env cfg)} (h : Down c) : Settled c :=
  ⟨h.sound, fun hs => absurd hs h.state⟩

/-- A change that leaves state, socket and requests alone. -/
theorem Settled.congr {c c' : Conn (upbit env cfg)} (h : Settled c) (hs : c'.state = c.state)
    (hw : c'.websocket = c.websocket) (hp : c'.sent = c.sent)
    (hi : (registry c).SameRequests (registry c')) : Settled c' := by
  refine ⟨hi.sound h.sound, fun hc => ?_⟩
  intro ty hty m hm
  rw [hw, hp]
  exact h.complete (hs ▸ hc) ty hty m hm

/-- Once the whole registry has been replayed, the socket is complete. -/
theorem complete_of_replayed {c : Conn (upbit env cfg)} {w : Ws} (hw : c.websocket = some w)
    (hr : (registry c).Covers cfg) (hp : Replayed c w (registry c).subscriptions.length) :
    Complete c := by
  intro ty hty m hm
  obtain ⟨i, k, e, hi, hte, hc⟩ := hr ty hty
  have hlt : i < (registry c).subscriptions.length := by
    by_contra hge
    rw [List.getElem?_eq_none (by omega)] at hi; cases hi
  exact ⟨w, e.request, hw, hp i k e hlt hi, hte, hc m hm⟩

/-- The head of the replay loop. -/
theorem sendSeeded_replayNext {c : Conn (upbit env cfg)} {w : Ws} {pos : Nat}
    (hw : c.websocket = some w) (hr : (registry c).Covers cfg) (hp : Replayed c w pos) :
    SendSeeded c (wrapFailure (replayNext (registry c) (some w) pos
      (registry c).subscriptions.length)) := by
  unfold replayNext
  rw [if_pos rfl]
  cases hi : (registry c).subscriptions[pos]? with
  | some kv =>
    obtain ⟨k, e⟩ := kv
    exact ⟨hw, hr, rfl, hp, k, e, hi, rfl⟩
  | none =>
    refine ⟨.inr hr, complete_of_replayed hw hr fun i k e hlt he => hp i k e ?_ he⟩
    have hge : (registry c).subscriptions.length ≤ pos := List.getElem?_eq_none_iff.1 hi
    omega

/-! ## The segments of `_send_subscription_message` -/

/-- The two halves of the seeding, from a registry without the fresh ticket. -/
theorem createAndSend_seed (env : Environment) (cfg : ExchangeConfig U) {r : Registry} (w : Ws)
    (ty : String) (k : Coro)
    (h : ∀ kv ∈ r.subscriptions, kv.1 ≠ env.uuid4 r.issued) :
    ∃ r' e, createAndSendSubscription env U r (some w) ty cfg.subscribedMarkets k =
        (r', .send w ⟨env.uuid4 r.issued, ty, cfg.subscribedMarkets, "DEFAULT"⟩ k) ∧
      r'.subscriptions = r.subscriptions ++ [(env.uuid4 r.issued, e)] ∧
      r'.issued = r.issued + 1 ∧ e.subType = ty ∧ e.codes = cfg.subscribedMarkets :=
  ⟨_, _, rfl, storeSubscription_subscriptions (r := { r with issued := r.issued + 1 }) ty h, rfl,
    rfl, seedEntry_codes _ _ _⟩

/-- The first segment: seed an empty registry, replay any other. -/
theorem sendSeeded_start {c : Conn (upbit env cfg)} {w : Ws} {i : Registry}
    {r : SendStep Coro Request} (hr : (registry c).Sound cfg) (hw : c.websocket = some w)
    (h : sendSubscriptionMessage env cfg (registry c) (some w) = (i, r)) :
    SendSeeded { c with inst := i } r := by
  unfold sendSubscriptionMessage at h
  by_cases he : (registry c).subscriptions = []
  · obtain ⟨r', e, hc, hsub, hiss, hty, hcodes⟩ :=
      createAndSend_seed env cfg (r := registry c) w "trade"
        (.seedTrade cfg.subscribedMarkets) (fun kv hkv => by rw [he] at hkv; cases hkv)
    rw [he, List.nil_append] at hsub
    simp only [he, List.isEmpty_nil, if_true, hc, wrapFailure, Prod.mk.injEq] at h
    obtain ⟨rfl, rfl⟩ := h
    exact ⟨hw, rfl, rfl, rfl, _, e, hsub, hiss, hty, hcodes⟩
  · have hcov : (registry c).Covers cfg := hr.resolve_left he
    simp only [List.isEmpty_iff, he, if_false, Prod.mk.injEq] at h
    obtain ⟨rfl, rfl⟩ := h
    exact sendSeeded_replayNext hw hcov fun j k e hlt => absurd hlt (Nat.not_lt_zero j)

/-- A successful send. -/
theorem sendSeeded_sent {c : Conn (upbit env cfg)} {w : Ws} {p : (upbit env cfg).Payload} {q : Coro}
    {i : Registry} {r : SendStep Coro Request} (hs : Sending c w p q)
    (h : resumeSend env U (registry c) c.websocket q none = (i, r)) :
    SendSeeded { c with sent := c.sent ++ [(w, p)], inst := i } r := by
  cases q with
  | seedTrade codes =>
    obtain ⟨hw, rfl, hpt, hpc, n, e, hsub, hiss, hte, hce⟩ := hs
    obtain ⟨r', e', hc, hsub', -, hty, hcodes⟩ :=
      createAndSend_seed env cfg (r := registry c) w "orderbook"
        .seedOrderbook (by
          rw [hsub, hiss]
          intro kv hkv
          rw [List.mem_singleton.1 hkv]
          exact fun hu => absurd (env.uuid4_inj hu) (by omega))
    simp only [resumeSend, hw, hc, wrapFailure, Prod.mk.injEq] at h
    obtain ⟨rfl, rfl⟩ := h
    rw [hsub] at hsub'
    have hcov : r'.Covers cfg := by
      rintro ty (rfl | rfl)
      · exact ⟨0, _, e, by rw [hsub']; rfl, hte, by rw [hce]; exact fun m hm => hm⟩
      · exact ⟨1, _, e', by rw [hsub']; rfl, hty, by rw [hcodes]; exact fun m hm => hm⟩
    exact ⟨hw, hcov, rfl, rfl, p, List.mem_append_right _ List.mem_cons_self, hpt, hpc⟩
  | seedOrderbook =>
    obtain ⟨hw, hcov, hpt, hpc, q, hq, hqt, hqc⟩ := hs
    cases h
    refine ⟨.inr hcov, ?_⟩
    rintro ty (rfl | rfl) m hm
    · exact ⟨w, q, hw, List.mem_append_left _ hq, hqt, by rw [hqc]; exact hm⟩
    · exact ⟨w, p, hw, List.mem_append_right _ List.mem_cons_self, hpt, by rw [hpc]; exact hm⟩
  | replay pos size =>
    obtain ⟨hw, hcov, rfl, hrep, k, e, hpos, hp⟩ := hs
    simp only [resumeSend, hw, Prod.mk.injEq] at h
    obtain ⟨rfl, rfl⟩ := h
    apply sendSeeded_replayNext (c := { c with sent := c.sent ++ [(w, p)] }) hw hcov
    intro j k' e' hlt hj
    rcases Nat.lt_succ_iff_lt_or_eq.1 hlt with hlt | rfl
    · exact List.mem_append_left _ (hrep j k' e' hlt hj)
    · have hj' : (registry c).subscriptions[j]? = some (k', e') := hj
      rw [hpos] at hj'; cases hj'
      exact List.mem_append_right _ (by rw [← hp]; exact List.mem_cons_self)
  | subscribe => exact hs.elim

/-- A failed send, other than the first one of the seeding. -/
theorem sendSeeded_failed {c : Conn (upbit env cfg)} {w : Ws} {p : Request} {q : Coro}
    {i : Registry} {r : SendStep Coro Request} {e : PyExn} (hs : Sending c w p q)
    (hq : ∀ codes, q ≠ .seedTrade codes)
    (h : resumeSend env U (registry c) c.websocket q (some e) = (i, r)) :
    SendSeeded { c with inst := i } r := by
  cases q with
  | seedTrade codes => exact absurd rfl (hq codes)
  | seedOrderbook => cases h; exact .inr hs.2.1
  | replay pos size => cases h; exact .inr hs.2.1
  | subscribe => exact hs.elim

/-! ## Every edge -/

theorem Settled.of_down {c c' : Conn (upbit env cfg)} (h : Settled c)
    (hi : registry c' = registry c) (hs : c'.state ≠ .connected) : Settled c' :=
  ⟨hi ▸ h.sound, fun hc => absurd hc hs⟩

/-- The assertions are carried along every edge. -/
theorem Edge.seeded {isDone : TaskId → Bool} {t : TaskId} {P P' : Point (upbit env cfg)}
    {c c' : Conn (upbit env cfg)} (h : Edge cfg isDone t P c P' c') (hT : P.Tidy c)
    (hP : Seeded P c) : Seeded P' c' := by
  cases h
  case dial => exact Settled.of_down hP rfl nofun
  case dialReturned i r hr => exact sendSeeded_start (c := { c with
      websocket := some c.opened, opened := c.opened + 1 }) hP.1.sound rfl hr
  case dialCancelled | sendCancelled | taskCancelled => exact absurd rfl hP.2.1
  case send => exact hP
  case sendReturned w p q i r hr => exact sendSeeded_sent hP.1 hr
  case sendRaised k w p q e i r hr =>
    refine sendSeeded_failed hP.1 (fun codes hq => hP.2.2 ?_) hr
    subst hq; trivial
  case connected => exact ⟨hP.1, fun _ => hP.2⟩
  case connectedInvalid => exact ⟨hP.1, fun _ => hP.2⟩
  case subscribeRaised =>
    exact ⟨hP, fun hc => by rw [show c.state = .connecting from hT] at hc; cases hc⟩
  case failClose => exact Settled.of_down hP rfl nofun
  case failNone => exact Settled.of_down hP rfl nofun
  case closeReturned | closeRaised =>
    have hs : c.state = .failed := hT.1
    exact Settled.of_down hP.1 rfl (fun hc => by rw [show c.state = .connected from hc] at hs; cases hs)
  case endedReconnectFailed => exact ⟨hP.sound, nofun⟩
  case ownStart | ownSend | ownReturned | ownRaised => exact hP.elim
  case ownSent | ownSendRaised | ownCancelled => exact hP.1.elim
  case disconnectNone => exact hP.sound
  case disconnectClosed | disconnectCloseRaised => exact hP.1.sound
  case disconnected => exact ⟨hP, nofun⟩
  case disconnectInvalid hv =>
    exact absurd ((ConnectionState.isValidTransition_disconnected _).2 hT.1) (by rw [hv]; decide)
  case frameSkipped hp | frameInvalid _ hp | frameRaised _ hp =>
    exact Settled.congr hP.1 rfl rfl rfl (upbit_parse_sameRequests hp)
  case convertInvalid hd _ hp | convertRaised hd _ hp | converted hd hp =>
    exact Settled.congr hP.1 rfl rfl rfl
      ((upbit_parse_sameRequests hp).trans (upbit_convert_sameRequests hd))
  case lostConnected | lostFailed => exact ⟨hP.sound, nofun⟩
  case lostOther hs _ => exact ⟨hP.sound, hs⟩
  case lostClose => exact ⟨hP.sound, hP.state⟩
  case lostNone => exact hP
  case lostClosed | lostCloseRaised => exact ⟨hP.1.sound, hP.1.state⟩
  case lostCancelled => exact hP.1.settled
  case backoff => exact ⟨hP.sound, fun hs => absurd hs hP.state⟩
  case giveUpFailed => exact Settled.of_down hP.settled rfl nofun
  case giveUp => exact hP.settled
  case woken => exact Settled.of_down hP.1 rfl nofun
  -- the other edges leave state, socket and requests alone
  all_goals first
    | exact Settled.congr (c := c) hP rfl rfl rfl (.refl _)
    | exact Settled.congr (c := c) hP.1 rfl rfl rfl (.refl _)

/-! ## Runs of one task -/

/-- What the steps of a run of `t` alone meet. -/
def Orderly (t : TaskId) (s : Sys (upbit env cfg)) (l : Label (upbit env cfg)) : Prop :=
  OneTask t l ∧ ¬FailsSeeding s l ∧ s.Sequential l

theorem keeps_seeded (t : TaskId) :
    Keeps cfg (fun s l => Orderly t s (l : Label (upbit env cfg))) (AloneWith Seeded) := by
  refine keeps_aloneWith (fun s l hg => ⟨hg.2.2, ?_⟩) Edge.seeded ?_ (fun h => h) ?_ ?_
  · intro hst
    cases l with
    | resume u w =>
      cases w with
      | cancelled => exact hg.1.2 rfl
      | _ => exact hst
    | _ => exact hst
  · intro s u op hg h
    cases op with
    | own o => exact hg.1
    | _ => exact h
  · intro s u pc w hg hc h
    exact ⟨h, hg.1.2, fun hf => hg.2.1 ⟨pc, hc, hf⟩⟩
  · intro P c h
    cases P <;> exact h

/-- The task's assertion holds, and no other task is in a call. -/
structure Orderly.Inv (t : TaskId) (s : Sys (upbit env cfg)) : Prop where
  alone : AloneWith Seeded s.point s.conn
  others : ∀ u, u ≠ t → (s.tasks u).call = none

theorem orderly_of_step {t : TaskId} {s s' : Sys (upbit env cfg)} {l : Label (upbit env cfg)}
    (ho : ∀ u, u ≠ t → (s.tasks u).call = none) (hl : OneTask t l) (hf : ¬FailsSeeding s l)
    (hs : step cfg s l = some s') : Orderly t s l := by
  have quiet : (s.tasks t).call = none → s.Quiet := fun ht u => by
    by_cases hu : u = t
    · rw [hu]; exact ht
    · exact ho u hu
  refine ⟨hl, hf, ?_⟩
  cases step_move hs with
  | @call u op _ hc =>
    have hu : u = t := by cases op <;> first | exact hl | exact hl.elim
    rw [hu] at hc; exact quiet hc
  | next _ hc _ => rw [show _ = t from hl] at hc; exact quiet hc
  | resume => trivial
  | cancel => exact hl.elim
  | exit => trivial

theorem step_inv {t : TaskId} {s s' : Sys (upbit env cfg)} {l : Label (upbit env cfg)}
    (h : Orderly.Inv t s) (hl : OneTask t l) (hf : ¬FailsSeeding s l)
    (hs : step cfg s l = some s') : Orderly.Inv t s' := by
  refine ⟨(keeps_seeded t).step (orderly_of_step h.others hl hf hs) h.alone hs, fun v hv => ?_⟩
  have keep : ∀ {u : TaskId}, u = t → s'.tasks v = s.tasks v → (s'.tasks v).call = none :=
    fun _ he => by rw [he]; exact h.others v hv
  cases step_move hs with
  | @call u op _ _ =>
    have hu : u = t := by cases op <;> first | exact hl | exact hl.elim
    exact keep hu (Sys.settle_tasks_ne s (hu ▸ hv) _ _)
  | @next u _ _ _ _ =>
    have hu : u = t := hl
    exact keep hu (Sys.settle_tasks_ne s (hu ▸ hv) _ _)
  | resume => exact keep hl.1 (Sys.settle_tasks_ne s (hl.1 ▸ hv) _ _)
  | cancel => exact hl.elim
  | exit => exact keep hl (Sys.setTask_ne s (hl ▸ hv) _)

theorem PcSeeded.complete {pc : Pc (upbit env cfg)} {c : Conn (upbit env cfg)} (hT : pc.Tidy c)
    (h : PcSeeded pc c) (hc : c.state = .connected) : Complete c := by
  cases pc with
  | connect k pc =>
    cases pc with
    | sending =>
      have hs : c.state = .connecting := hT
      rw [hc] at hs; cases hs
    | _ => exact Settled.complete h hc
  | lostClosing => exact absurd hc (Down.state h)
  | own => exact h.elim
  | _ => exact Settled.complete h hc

/-- Between steps the only task is between calls or suspended. -/
theorem Orderly.Inv.complete {t : TaskId} {s : Sys (upbit env cfg)} (h : Orderly.Inv t s)
    (hc : s.conn.state = .connected) : Complete s.conn := by
  cases hcall : (s.tasks t).call with
  | none =>
    refine Settled.complete (h.alone.of_idle fun u => Sys.point_idle.2 ?_) hc
    by_cases hu : u = t
    · rw [hu]; exact hcall
    · exact h.others u hu
  | some pc =>
    have hp := Sys.point_suspended.2 hcall
    have hne : s.point t ≠ .idle := by rw [hp]; nofun
    have hS := (h.alone.of_ne hne).2
    have hT := (h.alone.1.tidy_of_ne hne).2
    rw [hp] at hS hT
    exact PcSeeded.complete hT hS hc

theorem inv_init (t : TaskId) : Orderly.Inv t (Sys.init (upbit env cfg) Registry.init) :=
  ⟨⟨alone_init _, t, fun _ _ => rfl, .inl rfl, nofun⟩, fun _ _ => rfl⟩

/-- **Without a failed first seeding, every `CONNECTED` state is complete**, in every run of one
task, whatever else fails. -/
theorem complete_of_seeded {t : TaskId} {ls : List (Label (upbit env cfg))}
    (hl : ∀ l ∈ ls, OneTask t l)
    (hf : Guarded (step cfg) (fun s l => ¬FailsSeeding s l)
      (Sys.init (upbit env cfg) Registry.init) ls) :
    Always (step cfg) (fun s => s.conn.state = .connected → Complete s.conn)
      (Sys.init (upbit env cfg) Registry.init) ls := by
  have hg := (Guarded.of_mem hl).and hf
  refine Always.mono (fun _ h => h.complete) (always_of_guarded ?_ (inv_init t) hg)
  intro s l s' h hg hs
  exact step_inv h hg.1 hg.2 hs

/-! ## A failed first seeding -/

/-- A connector for `KRW-BTC`; no frame arrives in the runs below. -/
def quietEnvironment : Environment := fixedEnvironment fun _ => .error .jsonDecodeError

/-- The trade request of the first `connect()` fails; after a `disconnect()` the second one
succeeds. -/
def failedSeeding : List (Label (upbit quietEnvironment krwBtcConfig)) :=
  [.call 0 .connect, .resume 0 .done, .resume 0 (.raised .connectionClosed), .resume 0 .done,
    .call 0 .disconnect, .call 0 .connect, .resume 0 .done, .resume 0 .done]

/-- **After it the connector is `CONNECTED` without an order book subscription.** -/
theorem failedSeeding_incomplete : ∃ s,
    (∀ l ∈ failedSeeding, OneTask 0 l) ∧
    run (step krwBtcConfig) (Sys.init (upbit quietEnvironment krwBtcConfig) Registry.init)
      failedSeeding = some s ∧
    s.conn.state = .connected ∧ ¬Complete s.conn := by
  refine ⟨_, by simp [failedSeeding, OneTask], rfl, rfl, fun h => ?_⟩
  obtain ⟨w, p, _, hs, ht, _⟩ := h "orderbook" (.inr rfl) "KRW-BTC" List.mem_cons_self
  have hp : p = ⟨quietEnvironment.uuid4 0, "trade", ["KRW-BTC"], "DEFAULT"⟩ := by
    cases hs with
    | head => rfl
    | tail _ hs => cases hs
  rw [hp] at ht
  revert ht
  decide

/-- The order book request of the first `connect()` fails instead. -/
def failedSecondSeed : List (Label (upbit quietEnvironment krwBtcConfig)) :=
  [.call 0 .connect, .resume 0 .done, .resume 0 .done, .resume 0 (.raised .connectionClosed),
    .resume 0 .done, .call 0 .disconnect, .call 0 .connect, .resume 0 .done, .resume 0 .done,
    .resume 0 .done]

theorem not_failsSeeding_done {s : Sys (upbit env cfg)} {t : TaskId} :
    ¬FailsSeeding s (.resume t .done) := by
  rintro ⟨pc, _, hf⟩
  cases pc with
  | connect k pc =>
    cases pc with
    | sending w p q => cases q <;> exact hf
    | _ => exact hf
  | _ => exact hf

theorem complete_of_seeded_failedSecondSeed :
    Always (step krwBtcConfig) (fun s => s.conn.state = .connected → Complete s.conn)
      (Sys.init (upbit quietEnvironment krwBtcConfig) Registry.init) failedSecondSeed := by
  apply complete_of_seeded (t := 0) (by simp [failedSecondSeed, OneTask])
  refine ⟨id, fun s₁ h₁ => ⟨not_failsSeeding_done, fun s₂ h₂ => ⟨not_failsSeeding_done,
    fun s₃ h₃ => ⟨?_, fun s₄ _ => ?_⟩⟩⟩⟩
  · cases h₁; cases h₂; cases h₃
    rintro ⟨pc, hc, hf⟩
    cases hc; exact hf
  · exact ⟨not_failsSeeding_done, fun _ _ => ⟨id, fun _ _ => ⟨id, fun _ _ =>
      ⟨not_failsSeeding_done, fun _ _ => ⟨not_failsSeeding_done, fun _ _ =>
        ⟨not_failsSeeding_done, fun _ _ => trivial⟩⟩⟩⟩⟩⟩

end FlinkPractices.Upbit
