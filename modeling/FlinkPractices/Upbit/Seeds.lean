import FlinkPractices.Connector.Limits
import FlinkPractices.Upbit.Wire

/-!
# The registry without `subscribe()`

As long as nobody calls `subscribe()`, `_seed_initial_subscriptions` alone fills the registry: with
an entry for the trades of the configured markets, and then one for their order books.  Attempts
exclude each other, so it is never filled twice, however the attempts end: what is registered is
always a prefix of the `seeds`.

It may stay a proper prefix.  If the send of the trades fails, their entry is registered and the
order books are not; the next attempt replays what there is, and does not seed again.

## Proof

* `OnlySeeds` — nobody is in `subscribe()`, the registry is a prefix of the seeds, and when the
  trades are being sent it is the trades.
* `sendSubscriptionMessage_seeds`, `resumeSend_seeds` — the only two segments that store an entry.
* `Edge.onlySeeds` — the other edges of the control flow leave the registry as it was.

Principal result: `keeps_onlySeeds`, an invariant of the system that is started by `onlySeeds_init`.
It is kept along the invariant `Sane` of all runs, which gives the tickets and the mutual exclusion.
-/

set_option autoImplicit false

namespace FlinkPractices.Upbit

open Lib Connector Function

variable {U : UpperTable} {env : Environment} {cfg : ExchangeConfig U}

/-- What `_seed_initial_subscriptions` subscribes to. -/
def seeds (cfg : ExchangeConfig U) : List (String × List String) :=
  [("trade", cfg.subscribedMarkets), ("orderbook", cfg.subscribedMarkets)]

/-- What has been subscribed to. -/
def subscribed (c : Conn (upbit env cfg)) : List (String × List String) :=
  (registry c).requests.map fun x => (x.subType, x.codes)

/-- Nobody is in `subscribe()`; the registry is a prefix of the seeds, and when the trades are being
sent it is the trades. -/
structure OnlySeeds (p : TaskId → Point (upbit env cfg)) (c : Conn (upbit env cfg)) : Prop where
  calls : ∀ t, ∃ κ, κ ≠ Kind.own ∧ (p t).Of κ
  seeds : subscribed c <+: seeds cfg
  seeding : ∀ u x codes, outgoing (p u) = some (x, .seedTrade codes) →
    codes = cfg.subscribedMarkets ∧ subscribed c = [("trade", cfg.subscribedMarkets)]

/-! ## The two entries -/

theorem subscribed_store {r : Registry} (hk : r.Keyed env) (ty : String) :
    (r.store env U ty cfg.subscribedMarkets).requests.map (fun x => (x.subType, x.codes)) =
      r.requests.map (fun x => (x.subType, x.codes)) ++ [(ty, cfg.subscribedMarkets)] := by
  rw [hk.requests_store, map_upper_of_fixed cfg.markets_upper, List.map_append]
  rfl

theorem replayNext_ne_seedTrade (r : Registry) (ws : Option Ws) (pos size : Nat)
    {x : Ws × Request} {codes : List String} :
    stepOutgoing (replayNext r ws pos size) ≠ some (x, .seedTrade codes) := by
  unfold replayNext
  split
  · split
    · cases ws <;> nofun
    · nofun
  · nofun

/-- The first send on a socket: the trades, if nothing is registered. -/
theorem sendSubscriptionMessage_seeds {r i : Registry} {w : Ws} {s : SendStep Coro Request}
    (hk : r.Keyed env) (h : sendSubscriptionMessage env cfg r (some w) = (i, s)) :
    (i = r ∧ ∀ x codes, stepOutgoing s ≠ some (x, .seedTrade codes)) ∨
      i.requests.map (fun x => (x.subType, x.codes)) = [("trade", cfg.subscribedMarkets)] ∧
        ∀ x codes, stepOutgoing s = some (x, .seedTrade codes) → codes = cfg.subscribedMarkets := by
  unfold sendSubscriptionMessage at h
  dsimp only at h
  split at h
  · rename_i hempty
    cases h
    have hnone : r.requests = [] := by
      rw [Registry.requests, List.isEmpty_iff.1 hempty]
      rfl
    refine .inr ⟨?_, fun x codes hs => ?_⟩
    · have hstore : (r.store env U "trade" cfg.subscribedMarkets).requests.map
          (fun x => (x.subType, x.codes)) =
            r.requests.map (fun x => (x.subType, x.codes)) ++
              [("trade", cfg.subscribedMarkets)] := subscribed_store hk "trade"
      rw [hnone] at hstore
      exact hstore
    · cases hs
      rfl
  · cases h
    refine .inl ⟨rfl, fun x codes => ?_⟩
    rw [stepOutgoing_wrapFailure]
    exact replayNext_ne_seedTrade r _ _ _

/-- After a send: the order books, if it was the trades. -/
theorem resumeSend_seeds {r i : Registry} {ws : Option Ws} {q : Coro} {s : SendStep Coro Request}
    (hk : r.Keyed env) (hq : ∀ codes, q = .seedTrade codes → codes = cfg.subscribedMarkets)
    (h : resumeSend env U r ws q none = (i, s)) :
    (∀ x codes, stepOutgoing s ≠ some (x, .seedTrade codes)) ∧
      (i = r ∨ (∃ codes, q = .seedTrade codes) ∧
        i.requests.map (fun x => (x.subType, x.codes)) =
          r.requests.map (fun x => (x.subType, x.codes)) ++
            [("orderbook", cfg.subscribedMarkets)]) := by
  cases q with
  | seedTrade codes =>
    obtain rfl := hq codes rfl
    cases h
    refine ⟨fun x codes => ?_, .inr ⟨⟨_, rfl⟩, subscribed_store hk "orderbook"⟩⟩
    cases ws <;> nofun
  | replay pos size =>
    cases h
    refine ⟨fun x codes => ?_, .inl rfl⟩
    rw [stepOutgoing_wrapFailure]
    exact replayNext_ne_seedTrade r _ _ _
  | seedOrderbook | subscribe =>
    cases h
    exact ⟨nofun, .inl rfl⟩

/-! ## Every edge -/

section Edges

variable {isDone : TaskId → Bool} {t : TaskId} {p : TaskId → Point (upbit env cfg)}
  {P P' : Point (upbit env cfg)} {c c' : Conn (upbit env cfg)}

/-- Replacing a task's point. -/
theorem OnlySeeds.place (h : OnlySeeds p c) (hκ : ∃ κ, κ ≠ Kind.own ∧ P.Of κ)
    (hreq : subscribed c' = subscribed c)
    (hP : ∀ x codes, outgoing P = some (x, .seedTrade codes) →
      outgoing (p t) = some (x, .seedTrade codes)) : OnlySeeds (update p t P) c' := by
  refine ⟨fun u => ?_, by rw [hreq]; exact h.seeds, fun u x codes hu => ?_⟩
  · by_cases hut : u = t
    · rw [hut, update_self]
      exact hκ
    · rw [update_of_ne hut]
      exact h.calls u
  · rw [hreq]
    by_cases hut : u = t
    · subst hut
      rw [update_self] at hu
      exact h.seeding u x codes (hP x codes hu)
    · rw [update_of_ne hut] at hu
      exact h.seeding u x codes hu

theorem Edge.onlySeeds (h : Edge cfg isDone t P c P' c') (hs : Sane (Function.update p t P) c)
    (hJ : OnlySeeds (Function.update p t P) c) : OnlySeeds (Function.update p t P') c' := by
  have hk := hs.keyed
  obtain ⟨κ, hκ, hP⟩ : ∃ κ, κ ≠ Kind.own ∧ P.Of κ := by
    have := hJ.calls t
    rwa [update_self] at this
  have hP' : ∃ κ, κ ≠ Kind.own ∧ P'.Of κ := ⟨κ, hκ, h.of hP⟩
  -- no task sends the trades but `t`
  have alone : P.attempting = true → ∀ {u x codes}, u ≠ t →
      outgoing (Function.update p t P' u) ≠ some (x, .seedTrade codes) := by
    intro ha u x codes hut hu
    rw [update_of_ne hut] at hu
    exact hut (hs.only_sender (q := .seedTrade codes) (by rw [update_self]; exact ha)
      (by rw [update_of_ne hut]; exact hu) nofun)
  -- an edge that leaves the requests and does not begin to send the trades
  have quiet : (registry c').requests = (registry c).requests →
      (∀ x codes, outgoing P' = some (x, .seedTrade codes) →
        outgoing P = some (x, .seedTrade codes)) → OnlySeeds (Function.update p t P') c' := by
    intro hreq hout
    have hplace : OnlySeeds (update (update p t P) t P') c' :=
      hJ.place hP' (by unfold subscribed; rw [hreq]) fun x codes hx => by
        rw [update_self]
        exact hout x codes hx
    rwa [update_idem] at hplace
  -- an edge of an attempt that fills the registry
  have fills : ∀ {l}, P.attempting = true → subscribed c' = l → l <+: seeds cfg →
      (∀ x codes, outgoing P' = some (x, .seedTrade codes) →
        codes = cfg.subscribedMarkets ∧ l = [("trade", cfg.subscribedMarkets)]) →
      OnlySeeds (Function.update p t P') c' := by
    rintro l ha rfl hseeds hout
    refine ⟨fun u => ?_, hseeds, fun u x codes hu => ?_⟩
    · by_cases hut : u = t
      · rw [hut, update_self]
        exact hP'
      · have := hJ.calls u
        rwa [update_of_ne hut] at this ⊢
    · by_cases hut : u = t
      · rw [hut, update_self] at hu
        exact hout x codes hu
      · exact absurd hu (alone ha hut)
  cases h
  case dialReturned k i r hr =>
    rcases sendSubscriptionMessage_seeds hk hr with ⟨rfl, hno⟩ | ⟨hreq, hcodes⟩
    · exact quiet rfl fun x codes hx => absurd hx (hno x codes)
    · exact fills rfl hreq ⟨[("orderbook", cfg.subscribedMarkets)], rfl⟩
        fun x codes hx => ⟨hcodes x codes hx, rfl⟩
  case sendReturned k w x q i r hr =>
    have hseeding : ∀ codes, q = .seedTrade codes → codes = cfg.subscribedMarkets ∧
        subscribed c = [("trade", cfg.subscribedMarkets)] := by
      rintro codes rfl
      exact hJ.seeding t (w, x) codes (by rw [update_self]; rfl)
    obtain ⟨hno, rfl | ⟨⟨codes, rfl⟩, hreq⟩⟩ :=
      resumeSend_seeds hk (fun codes hq => (hseeding codes hq).1) hr
    · exact quiet rfl fun x codes hx => absurd hx (hno x codes)
    · have htrade : (registry c).requests.map (fun x => (x.subType, x.codes)) =
          [("trade", cfg.subscribedMarkets)] := (hseeding codes rfl).2
      rw [htrade] at hreq
      exact fills rfl hreq ⟨[], rfl⟩ fun x codes hx => absurd hx (hno x codes)
  case sendRaised k w x q e i r hr =>
    have hr' : resumeSend env U (registry c) c.websocket q (some e) = (i, r) := hr
    obtain ⟨hi, hn⟩ : (i, r).1 = _ ∧ stepOutgoing (i, r).2 = none :=
      hr' ▸ resumeSend_raised (registry c) c.websocket q e
    refine quiet (congrArg Registry.requests hi) fun x codes hx => ?_
    have hnone : outgoing (.sent k r : Point (upbit env cfg)) = none := hn
    rw [hnone] at hx
    cases hx
  case send => exact quiet rfl fun x codes hx => hx
  case ownSend => exact absurd hP hκ
  case ownStart | ownSent | ownSendRaised => exact absurd hP.symm hκ
  case frameSkipped hp | frameInvalid _ hp | frameRaised _ hp =>
    exact quiet (upbit_parse_same hp).requests_eq nofun
  case convertInvalid hd _ hp | convertRaised hd _ hp | converted hd hp =>
    exact quiet ((upbit_parse_same hp).trans (upbit_convert_same hd)).requests_eq nofun
  all_goals exact quiet rfl nofun

end Edges

theorem keeps_onlySeeds : Keeps cfg NoOwn
    (fun p (c : Conn (upbit env cfg)) => Sane p c ∧ OnlySeeds p c) where
  edge he h := ⟨Edge.sane he h.1, Edge.onlySeeds he h.1 h.2⟩
  call {s t op} hg hi h := by
    refine ⟨keeps_sane.call trivial hi h.1, h.2.place ?_ rfl nofun⟩
    cases op with
    | own o => exact absurd rfl (hg t o)
    | connect => exact ⟨.connect, nofun, rfl⟩
    | disconnect => exact ⟨.disconnect, nofun, rfl⟩
    | stream => exact ⟨.stream, nofun, rfl⟩
  next _ hi hm h :=
    ⟨keeps_sane.next trivial hi hm h.1, h.2.place ⟨.stream, nofun, rfl⟩ rfl nofun⟩
  resume {s t pc w} _ hi h := by
    refine ⟨keeps_sane.resume trivial hi h.1, h.2.place ?_ rfl fun x codes hx => ?_⟩
    · obtain ⟨κ, hκ, hP⟩ := h.2.calls t
      rw [hi] at hP
      exact ⟨κ, hκ, hP⟩
    · rw [hi]
      exact hx
  rest {p t c P} h := by
    refine ⟨keeps_sane.rest h.1, ?_⟩
    obtain ⟨κ, hκ, hP⟩ := h.2.calls t
    rw [update_self] at hP
    have hplace : OnlySeeds (update (update p t P) t P.rest) c :=
      h.2.place ⟨κ, hκ, by cases P <;> exact hP⟩ rfl fun x codes hx => by
        rw [update_self]
        cases P <;> exact hx
    rwa [update_idem] at hplace

theorem onlySeeds_init : OnlySeeds (Sys.init (upbit env cfg) Registry.init).point
    (Sys.init (upbit env cfg) Registry.init).conn where
  calls _ := ⟨.connect, nofun, trivial⟩
  seeds := ⟨seeds cfg, rfl⟩
  seeding _ _ _ h := by cases h

end FlinkPractices.Upbit
