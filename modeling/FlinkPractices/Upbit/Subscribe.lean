import FlinkPractices.Upbit.Index

/-!
# What `subscribe()` promises

*If it fails.*  `subscribe()` stores the entry before it sends the request, and takes nothing back.
`atomic_iff`: a failed call leaves the registry as it was iff it was refused beforehand, for its
type or for want of a socket.  After `failedSend` the entry is listed, and the next `connect()`
requests it, though the caller has never seen its ticket.

*If it succeeds.*  The frames that are let through are those of the configured markets, whatever the
registry holds.  `delivered_iff`: in every run after a successful call, every frame for it is
delivered iff every such frame is for a configured market, and can be copied;
`otherMarket_not_delivered` is a call for another one.

## Proof

* `step_subscribe`, `run_continues` — the first segment of the call stores the entry or refuses;
  what comes after it changes nothing.
* `Registry.Has` — entries stay.  It is kept by storing and by receiving, so by every step
  (`step_has`), and a call that has succeeded has its entry (`SucceedsIn.holds`).
* `Recorded.active` — an entry that a frame has matched since its creation is `ACTIVE`; the history
  is that of the index (`Recorded`).
* `delivers`, `not_yielded` — the two cases of a frame, for the one step that receives it.

Principal results: `atomic_iff`, `delivered_iff`.
-/

set_option autoImplicit false

namespace FlinkPractices.Upbit

open Lib Connector Function

variable {U : UpperTable} {env : Environment} {cfg : ExchangeConfig U}

/-! ## A call that fails -/

/-- A resumption of `t`, or a cancellation. -/
def Label.Continues (t : TaskId) : Label (upbit env cfg) → Prop
  | .resume u _ => u = t
  | .cancel _ _ => True
  | _ => False

/-- `subscribe(subType, codes)` of `t` begins in `s` and has failed in `s'`, with an exception or
cancelled; meanwhile no other task has moved. -/
structure FailsIn (t : TaskId) (subType : String) (codes : List String)
    (s s' : Sys (upbit env cfg)) : Prop where
  run : ∃ ls, (∀ l ∈ ls, Label.Continues t l) ∧
    run (step cfg) s (.call t (.own (.subscribe subType codes)) :: ls) = some s'
  ended : (s'.tasks t).call = none
  failed : (s'.tasks t).last ≠ some .returned

/-- Both maps are as they were. -/
def Unchanged (r r' : Registry) : Prop :=
  r'.subscriptions = r.subscriptions ∧ r'.codeToTickets = r.codeToTickets

/-- A type that is not supported, or no socket. -/
def Refused (subType : String) (c : Conn (upbit env cfg)) : Prop :=
  (subType ≠ "trade" ∧ subType ≠ "orderbook") ∨ c.websocket = none

/-- The call is over, or its request is being sent. -/
def InSubscribe (t : TaskId) (s : Sys (upbit env cfg)) : Prop :=
  (s.tasks t).call = none ∨ ∃ w p, (s.tasks t).call = some (.own w p Coro.subscribe)

/-- After the request, or instead of it, nothing happens to the registry. -/
theorem step_continues {t : TaskId} {s s' : Sys (upbit env cfg)} {l : Label (upbit env cfg)}
    (hi : InSubscribe t s) (hl : Label.Continues t l) (hs : step cfg s l = some s') :
    InSubscribe t s' ∧ registry s'.conn = registry s.conn := by
  cases step_move hs with
  | call | next | exit => exact hl.elim
  | @cancel v depth u hd hu =>
    refine ⟨?_, rfl⟩
    unfold InSubscribe at *
    by_cases hut : t = u
    · subst hut
      simpa only [Sys.setTask_self] using hi
    · rwa [Sys.setTask_ne s hut]
  | @resume u pc w r hc ha hr =>
    obtain rfl : u = t := hl
    obtain hnone | ⟨v, p, hsome⟩ := hi
    · rw [hnone] at hc
      cases hc
    obtain rfl := Option.some.inj (hsome.symm.trans hc)
    rw [Sys.settle_conn]
    cases w with
    | frame => cases hr
    | done | raised | cancelled =>
      cases hr
      exact ⟨.inl (by simp [ownSending, upbit, resumeSend, Sys.settle, Sys.setTask]), rfl⟩

theorem run_continues {t : TaskId} {ls : List (Label (upbit env cfg))}
    {s s' : Sys (upbit env cfg)} (hi : InSubscribe t s) (hl : ∀ l ∈ ls, Label.Continues t l)
    (hr : run (step cfg) s ls = some s') : registry s'.conn = registry s.conn := by
  have hkept : InSubscribe t s' ∧ registry s'.conn = registry s.conn :=
    run_mem_invariant (P := fun x => InSubscribe t x ∧ registry x.conn = registry s.conn)
      (fun _ _ _ hx hl hs => by
        obtain ⟨hi₁, he⟩ := step_continues hx.1 hl hs
        exact ⟨hi₁, he.trans hx.2⟩)
      ⟨hi, rfl⟩ hl hr
  exact hkept.2

/-- The first segment of the call: it is refused, or the entry is stored and its request is being
sent. -/
theorem step_subscribe {t : TaskId} {subType : String} {codes : List String}
    {s s' : Sys (upbit env cfg)}
    (hs : step cfg s (.call t (.own (.subscribe subType codes))) = some s') :
    (Refused subType s.conn ∧ (s'.tasks t).call = none ∧ registry s'.conn = registry s.conn) ∨
    (¬Refused subType s.conn ∧ (∃ w p, (s'.tasks t).call = some (.own w p Coro.subscribe)) ∧
      registry s'.conn = (registry s.conn).store env U subType (codes.map (upper U))) := by
  cases step_move hs with
  | call ho hc =>
    have hown : (upbit env cfg).own s.conn.inst s.conn.websocket (.subscribe subType codes) =
        subscribe env U (registry s.conn) s.conn.websocket subType codes := rfl
    simp only [enter, hown, subscribe]
    split
    · rename_i hty
      cases hw : s.conn.websocket with
      | none =>
        refine .inl ⟨.inr hw, ?_, rfl⟩
        simp [ownSending, Sys.settle, Sys.setTask]
      | some w =>
        refine .inr ⟨?_, ⟨w, ⟨env.uuid4 (registry s.conn).issued, subType,
          codes.map (upper U), "DEFAULT"⟩, ?_⟩, rfl⟩
        · rintro (hn | hn)
          · exact hty.elim hn.1 hn.2
          · rw [hw] at hn; cases hn
        · simp only [createAndSendSubscription, sendSingleSubscription, ownSending, Sys.settle,
            Sys.setTask, update_self]
    · rename_i hty
      refine .inl ⟨.inl (not_or.1 hty), ?_, rfl⟩
      simp [ownSending, Sys.settle, Sys.setTask]

/-- **A failed `subscribe()` leaves the registry as it was iff** it was refused, for every registry
in which the ticket that `uuid4()` gives is not in use. -/
theorem atomic_iff {t : TaskId} {subType : String} {codes : List String}
    {s s' : Sys (upbit env cfg)}
    (hfresh : ∀ kv ∈ (registry s.conn).subscriptions, kv.1 ≠ env.uuid4 (registry s.conn).issued)
    (hf : FailsIn t subType codes s s') :
    Unchanged (registry s.conn) (registry s'.conn) ↔ Refused subType s.conn := by
  obtain ⟨ls, hls, hr⟩ := hf.run
  obtain ⟨s₁, hs, hr⟩ := run_cons_some hr
  rcases step_subscribe hs with ⟨href, hc, hreg⟩ | ⟨href, ⟨w, p, hc⟩, hreg⟩
  · refine iff_of_true ?_ href
    rw [run_continues (.inl hc) hls hr, hreg]
    exact ⟨rfl, rfl⟩
  · refine iff_of_false ?_ href
    rw [run_continues (.inr ⟨w, p, hc⟩) hls hr, hreg]
    rintro ⟨hsub, -⟩
    have hstore := store_subscriptions_of_fresh (U := U) hfresh subType (codes.map (upper U))
    have hlen := congrArg List.length (hstore.symm.trans hsub)
    rw [List.length_append, List.length_singleton] at hlen
    omega

theorem seeded_isSome : (run (step krwBtcConfig)
    (Sys.init (upbit quietEnvironment krwBtcConfig) Registry.init)
    [.call 0 .connect, .resume 0 .done, .resume 0 .done, .resume 0 .done]).isSome = true := rfl

/-- A connector that is `CONNECTED`. -/
def seeded : Sys (upbit quietEnvironment krwBtcConfig) := Option.get _ seeded_isSome

theorem seeded_keyed : (registry seeded.conn).Keyed quietEnvironment :=
  (sane_of_reachable ⟨_, (Option.some_get seeded_isSome).symm⟩).keyed

/-- `subscribe("trade", ["KRW-XRP"])`, whose send raises. -/
def failedSend : List (Label (upbit quietEnvironment krwBtcConfig)) :=
  [.call 1 (.own (.subscribe "trade" ["KRW-XRP"])), .resume 1 (.raised .osError)]

theorem failedSend_isSome : (run (step krwBtcConfig) seeded failedSend).isSome = true := rfl

def afterFailedSend : Sys (upbit quietEnvironment krwBtcConfig) := Option.get _ failedSend_isSome

theorem failedSend_fails : FailsIn 1 "trade" ["KRW-XRP"] seeded afterFailedSend where
  run := by
    refine ⟨[.resume 1 (.raised .osError)], ?_, (Option.some_get failedSend_isSome).symm⟩
    intro l hl
    rw [List.mem_singleton.1 hl]
    exact rfl
  ended := rfl
  failed := by
    intro h
    cases h

/-- The next `connect()`. -/
def reconnectAfter : List (Label (upbit quietEnvironment krwBtcConfig)) :=
  [.call 0 .disconnect, .resume 0 .done, .call 0 .connect, .resume 0 .done, .resume 0 .done,
    .resume 0 .done, .resume 0 .done]

/-- **A failed send leaves its entry behind**: it is listed, and requested on the next socket. -/
theorem failedSend_not_atomic :
    FailsIn 1 "trade" ["KRW-XRP"] seeded afterFailedSend ∧
    (afterFailedSend.tasks 1).last = some (.raised .osError) ∧
    ¬Unchanged (registry seeded.conn) (registry afterFailedSend.conn) ∧
    (registry afterFailedSend.conn).subscriptions.map (fun kv => kv.2.codes) =
      [["KRW-BTC"], ["KRW-BTC"], ["KRW-XRP"]] ∧
    ∃ s, run (step krwBtcConfig) afterFailedSend reconnectAfter = some s ∧
      s.conn.state = .connected ∧
      (s.conn.sent.filter (·.1 == 1)).map (fun x => Request.codes x.2) =
        [["KRW-BTC"], ["KRW-BTC"], ["KRW-XRP"]] := by
  refine ⟨failedSend_fails, rfl, ?_, rfl, _, rfl, rfl, rfl⟩
  rintro ⟨h, -⟩
  cases congrArg List.length h

/-- `atomic_iff` of that call. -/
theorem atomic_iff_failedSend :
    Unchanged (registry seeded.conn) (registry afterFailedSend.conn) ↔
      Refused "trade" seeded.conn :=
  atomic_iff seeded_keyed.fresh failedSend_fails

/-! ## A call that succeeds -/

/-- Any label but a move of `t`. -/
def Label.Spares (t : TaskId) : Label (upbit env cfg) → Prop
  | .call u _ => u ≠ t
  | .next u => u ≠ t
  | .resume u _ => u ≠ t
  | .exit u _ => u ≠ t
  | .cancel _ _ => True

/-- `subscribe(subType, codes)` of `t` begins in `s` and has returned in `s'`; meanwhile other tasks
may move. -/
def SucceedsIn (t : TaskId) (subType : String) (codes : List String)
    (s s' : Sys (upbit env cfg)) : Prop :=
  ∃ s₁ s₂ ls, step cfg s (.call t (.own (.subscribe subType codes))) = some s₁ ∧
    (∀ l ∈ ls, Label.Spares t l) ∧ run (step cfg) s₁ ls = some s₂ ∧
    step cfg s₂ (.resume t .done) = some s'

/-- The frame is the JSON object `d`, with data of this type for the market `code`, and a time that
can be converted. -/
structure WellFormed (env : Environment) (f : Frame) (dataType : MarketDataType) (code : String)
    (d : Dict) : Prop where
  object : f.decode.map env.loads = some (.ok (.dict d))
  hasType : d.get "type" = some (.str (typeOf dataType))
  hasCode : d.get "code" = some (.str code)
  nonempty : code ≠ ""
  time : ∀ v, eventTime d dataType = some v → v.truthy = true →
    ∃ time, fromTimestampMs .double v = some time

/-- The frame has been yielded to `t`, and the entry is `ACTIVE`. -/
structure Delivered (t : TaskId) (ticket : String) (dataType : MarketDataType) (code : String)
    (d : Dict) (s s' : Sys (upbit env cfg)) : Prop where
  yielded : ∃ m : (upbit env cfg).Msg, s'.yielded = s.yielded ++ [(t, m)] ∧
    Carries U m dataType code d
  active : ∃ e, (ticket, e) ∈ (registry s'.conn).subscriptions ∧ e.status = .active

/-- `l` receives a well-formed frame of this type for one of the codes. -/
structure ReceivesFor (subType : String) (codes : List String) (l : Label (upbit env cfg))
    (t : TaskId) (f : Frame) (dataType : MarketDataType) (code : String) (d : Dict) : Prop where
  label : l = .resume t (.frame f)
  wellFormed : WellFormed env f dataType code d
  subType : typeOf dataType = subType
  code : upper U code ∈ codes.map (upper U)

/-- What the caller of a successful `subscribe()` expects of every later step. -/
def DeliversFor (ticket subType : String) (codes : List String) (s : Sys (upbit env cfg))
    (l : Label (upbit env cfg)) : Prop :=
  ∀ t f dataType code d s', ReceivesFor subType codes l t f dataType code d →
    step cfg s l = some s' → Delivered t ticket dataType code d s s'

/-- A frame received for the call is one for a configured market, which `deepcopy` can copy. -/
def PassesFor (subType : String) (codes : List String) (_ : Sys (upbit env cfg))
    (l : Label (upbit env cfg)) : Prop :=
  ∀ t f dataType code d, ReceivesFor subType codes l t f dataType code d →
    upper U code ∈ cfg.subscribedMarkets ∧ env.deepcopy d = .ok d

theorem WellFormed.accepts {f : Frame} {dataType : MarketDataType} {code : String} {d : Dict}
    (h : WellFormed env f dataType code d) (hm : upper U code ∈ cfg.subscribedMarkets)
    (hcopy : env.deepcopy d = .ok d) : Accepts env cfg f dataType code d :=
  ⟨⟨h.object, h.hasType, h.hasCode, h.nonempty, hm, h.time⟩, hcopy⟩

/-- One for another market, or that cannot be copied, is dropped. -/
theorem WellFormed.drops {f : Frame} {dataType : MarketDataType} {code : String} {d : Dict}
    (h : WellFormed env f dataType code d)
    (hn : ¬(upper U code ∈ cfg.subscribedMarkets ∧ env.deepcopy d = .ok d)) :
    Drops env cfg f := by
  intro dataType' code' d' hacc
  have hd : d' = d := by simpa using hacc.object.symm.trans h.object
  subst hd
  have hcode : code' = code := by simpa using hacc.hasCode.symm.trans h.hasCode
  subst hcode
  exact hn ⟨hacc.subscribed, hacc.copied⟩

/-! ### Entries stay -/

/-- The subscription is registered. -/
def Registry.Has (r : Registry) (ticket subType : String) (codes : List String) : Prop :=
  ∃ e, (ticket, e) ∈ r.subscriptions ∧ e.subType = subType ∧ e.codes = codes

theorem Registry.Has.stores {r r' : Registry} {ticket subType : String} {codes : List String}
    (h : r.Has ticket subType codes) (hk : r.Keyed env) (hs : Stores env U r r') :
    r'.Has ticket subType codes := by
  have hboth : r'.Keyed env ∧ r'.Has ticket subType codes := by
    induction hs with
    | refl => exact ⟨hk, h⟩
    | store ty cs _ ih =>
      obtain ⟨hk', e, he, hty⟩ := ih
      refine ⟨hk'.store ty cs, e, ?_, hty⟩
      rw [hk'.store_subscriptions]
      exact List.mem_append_left _ he
  exact hboth.2

theorem Registry.Has.receive {r : Registry} {ticket subType : String} {codes : List String}
    (h : r.Has ticket subType codes) (f : Frame) :
    (r.receive env cfg f).Has ticket subType codes := by
  obtain ⟨e, he, hty, hcs⟩ := h
  have hm : (ticket, e.request) ∈ (r.receive env cfg f).subscriptions.map
      fun kv => (kv.1, kv.2.request) := by
    rw [show (r.receive env cfg f).subscriptions.map _ = _ from (receive_same r f).requests]
    exact List.mem_map_of_mem he
  obtain ⟨⟨t, e'⟩, he', heq⟩ := List.mem_map.1 hm
  simp only [SubscriptionEntry.request, Prod.mk.injEq, Request.mk.injEq, and_true] at heq
  obtain ⟨rfl, -, hty', hcs'⟩ := heq
  exact ⟨e', he', hty'.trans hty, hcs'.trans hcs⟩

theorem step_has {s s' : Sys (upbit env cfg)} {l : Label (upbit env cfg)}
    {ticket subType : String} {codes : List String}
    (h : (registry s.conn).Has ticket subType codes) (hk : (registry s.conn).Keyed env)
    (hs : step cfg s l = some s') : (registry s'.conn).Has ticket subType codes := by
  rcases step_registry hs with ⟨-, hst⟩ | ⟨f, -, hst⟩
  · exact h.stores hk hst
  · exact (h.receive f).stores ((receive_same _ f).keyed hk) hst

/-- The history of a registry, and the subscription registered. -/
structure Holds (ticket subType : String) (codes : List String) (s : Sys (upbit env cfg)) :
    Prop where
  recorded : ∃ es, Recorded env (registry s.conn) es
  has : (registry s.conn).Has ticket subType codes

theorem Holds.step {s s' : Sys (upbit env cfg)} {l : Label (upbit env cfg)}
    {ticket subType : String} {codes : List String} (h : Holds ticket subType codes s)
    (hs : step cfg s l = some s') : Holds ticket subType codes s' := by
  obtain ⟨es, hes⟩ := h.recorded
  exact ⟨⟨_, hes.step hs⟩, step_has h.has hes.keyed hs⟩

theorem recorded_of_reachable {s : Sys (upbit env cfg)}
    (h : Reachable (step cfg) (Sys.init (upbit env cfg) Registry.init) s) :
    ∃ es, Recorded env (registry s.conn) es := by
  refine reachable_invariant
    (P := fun s : Sys (upbit env cfg) => ∃ es, Recorded env (registry s.conn) es)
    (fun s l s' hi hs => ?_) ⟨[], recorded_init⟩ h
  obtain ⟨es, hes⟩ := hi
  exact ⟨_, hes.step hs⟩

/-- A task that does not move stays where it is. -/
theorem step_spares {t : TaskId} {s s' : Sys (upbit env cfg)} {l : Label (upbit env cfg)}
    (hl : Label.Spares t l) (hs : step cfg s l = some s') :
    (s'.tasks t).call = (s.tasks t).call := by
  cases step_move hs with
  | call | next | resume => rw [Sys.settle_tasks_ne _ (Ne.symm hl)]
  | exit => rw [Sys.setTask_ne _ (Ne.symm hl)]
  | @cancel v depth u =>
    by_cases hut : t = u
    · subst hut
      rw [Sys.setTask_self]
    · rw [Sys.setTask_ne s hut]

theorem run_spares {t : TaskId} {call : Option (Pc (upbit env cfg))}
    {ls : List (Label (upbit env cfg))} {s s' : Sys (upbit env cfg)} (hc : (s.tasks t).call = call)
    (hl : ∀ l ∈ ls, Label.Spares t l) (hr : run (step cfg) s ls = some s') :
    (s'.tasks t).call = call :=
  run_mem_invariant (P := fun x : Sys (upbit env cfg) => (x.tasks t).call = call)
    (fun _ _ _ hx hl hs => (step_spares hl hs).trans hx) hc hl hr

/-- **A successful `subscribe()` has registered its subscription.** -/
theorem SucceedsIn.holds {t : TaskId} {subType : String} {codes : List String}
    {s s' : Sys (upbit env cfg)}
    (hr : Reachable (step cfg) (Sys.init (upbit env cfg) Registry.init) s)
    (h : SucceedsIn t subType codes s s') :
    Holds (env.uuid4 (registry s.conn).issued) subType (codes.map (upper U)) s' := by
  obtain ⟨s₁, s₂, ls, hcall, hls, hrun, hdone⟩ := h
  obtain ⟨es, hes⟩ := recorded_of_reachable hr
  rcases step_subscribe hcall with ⟨-, hc, -⟩ | ⟨-, -, hreg⟩
  · have hc₂ := run_spares hc hls hrun
    cases step_move hdone with
    | resume hc' => rw [hc₂] at hc'; cases hc'
  · have h₁ : Holds (env.uuid4 (registry s.conn).issued) subType (codes.map (upper U)) s₁ := by
      refine ⟨⟨_, hes.step hcall⟩, newEntry env U (registry s.conn) subType (codes.map (upper U)),
        ?_, rfl, ?_⟩
      · rw [hreg, hes.keyed.store_subscriptions]
        exact List.mem_append_right _ (List.mem_singleton.2 rfl)
      · rw [newEntry, List.map_map]
        exact List.map_congr_left fun c _ => upper_upper c
    exact (run_invariant (fun _ _ _ h hs => h.step hs) h₁ hrun).step hdone

/-! ### Frames -/

/-- A frame that passes is an event of its step. -/
theorem WellFormed.events {f : Frame} {dataType : MarketDataType} {code : String} {d : Dict}
    (h : WellFormed env f dataType code d) (hm : upper U code ∈ cfg.subscribedMarkets)
    (r : Registry) :
    frameEvents env cfg r f = [.received (typeOf dataType) (upper U code) (env.now r.reads)] := by
  obtain ⟨text, hd, hl⟩ := Option.map_eq_some_iff.1 h.object
  have hrec : recognise cfg d = some (typeOf dataType, code) :=
    recognise_iff.2 ⟨⟨dataType, rfl⟩, h.hasType, h.hasCode, h.nonempty, hm⟩
  simp only [frameEvents, hd, hl, hrec]

theorem latest_isSome {ty code : String} {time : DateTime} {codes : List String} {es : List Event}
    (h : .received ty code time ∈ es) (hc : code ∈ codes) :
    ∃ last, latest ty codes es = some last := by
  induction es with
  | nil => cases h
  | cons ev es ih =>
    cases ev with
    | created u =>
      exact ih ((List.mem_cons.1 h).resolve_left fun he => by cases he)
    | received ty' code' time' =>
      rw [latest]
      rcases List.mem_cons.1 h with he | h
      · cases he
        rw [if_pos ⟨rfl, hc⟩]
        cases latest ty codes es with
        | some last => exact ⟨last, rfl⟩
        | none => exact ⟨time, rfl⟩
      · obtain ⟨last, hlast⟩ := ih h
        rw [hlast]
        exact ⟨last, rfl⟩

/-- An entry that a frame has matched since its creation is `ACTIVE`. -/
theorem Recorded.active {r : Registry} {es fs : List Event} {t code : String} {time : DateTime}
    {e : SubscriptionEntry} (h : Recorded env r (es ++ fs)) (he : (t, e) ∈ r.subscriptions)
    (ht : .created t ∈ es) (hf : .received e.subType code time ∈ fs) (hc : code ∈ e.codes) :
    e.status = .active := by
  have hstatus := h.consistent.status t e he
  rw [since_append fs ht] at hstatus
  obtain ⟨last, hl⟩ := latest_isSome (List.mem_append_right (since t es) hf) hc
  unfold UpToDate at hstatus
  rw [hl] at hstatus
  exact hstatus.1

variable {ticket subType : String} {codes : List String} {t : TaskId} {f : Frame}
  {dataType : MarketDataType} {code : String} {d : Dict} {s s' : Sys (upbit env cfg)}
  {l : Label (upbit env cfg)}

/-- A frame for a configured market, which can be copied, is delivered. -/
theorem delivers (h : Holds ticket subType (codes.map (upper U)) s)
    (hf : ReceivesFor subType codes l t f dataType code d)
    (hm : upper U code ∈ cfg.subscribedMarkets) (hcopy : env.deepcopy d = .ok d)
    (hs : step cfg s l = some s') :
    Delivered t ticket dataType code d s s' := by
  obtain ⟨es, hes⟩ := h.recorded
  have hes' := hes.step hs
  obtain ⟨e, he, hty, hcs⟩ := h.has
  obtain ⟨e', he', hty', hcs'⟩ := step_has ⟨e, he, rfl, rfl⟩ hes.keyed hs
  obtain ⟨rfl, hwf, rfl, hcode⟩ := hf
  constructor
  · cases step_move hs with
    | @resume _ pc _ r hc ha hr =>
      obtain ⟨-, rfl⟩ := advance_frame hr
      obtain ⟨i, m, hi, hcarries⟩ := streamFrame_accepts (hwf.accepts hm hcopy) s.isDone t s.conn
      rw [hi]
      exact ⟨m, rfl, hcarries⟩
  · have hevents : Event.received e'.subType (upper U code) (env.now (registry s.conn).reads) ∈
        events env cfg s (.resume t (.frame f)) s' := by
      rw [hty', hty]
      simp only [events, frame?, hwf.events hm]
      exact List.mem_append_left _ List.mem_cons_self
    have hcode' : upper U code ∈ e'.codes := by
      rw [hcs', hcs]
      exact hcode
    exact ⟨e', he', hes'.active he' ((hes.created ticket).2 ⟨e, he⟩) hevents hcode'⟩

/-- Any other is not even yielded. -/
theorem not_yielded (hf : ReceivesFor subType codes l t f dataType code d)
    (hn : ¬(upper U code ∈ cfg.subscribedMarkets ∧ env.deepcopy d = .ok d))
    (hs : step cfg s l = some s') : s'.yielded = s.yielded := by
  obtain ⟨rfl, hwf, rfl, -⟩ := hf
  cases step_move hs with
  | @resume _ pc _ r hc ha hr =>
    obtain ⟨-, rfl⟩ := advance_frame hr
    obtain ⟨i, hloop⟩ := streamFrame_loop (hwf.drops hn) s.isDone t s.conn
    rw [hloop]
    have hpath : Path cfg s.isDone t (.loop, { s.conn with inst := i }) _ := streamLoop_path _
    exact (Sys.settle_silent (hpath.silent trivial)).1

/-- **What is subscribed is delivered iff it is configured**, and can be copied. -/
theorem delivered_iff {s₀ s₁ s₂ : Sys (upbit env cfg)} {ls : List (Label (upbit env cfg))}
    (h₀ : Reachable (step cfg) (Sys.init (upbit env cfg) Registry.init) s₀)
    (hs : SucceedsIn t subType codes s₀ s₁) (hr : run (step cfg) s₁ ls = some s₂) :
    Guarded (step cfg) (DeliversFor (env.uuid4 (registry s₀.conn).issued) subType codes) s₁ ls ↔
      Guarded (step cfg) (PassesFor subType codes) s₁ ls := by
  refine guarded_iff (I := Holds (env.uuid4 (registry s₀.conn).issued) subType
    (codes.map (upper U))) (H := fun _ _ => True) (fun _ _ _ h _ hs => h.step hs)
    (fun s l s' h _ hs => ?_) (hs.holds h₀) (.of_forall fun _ _ => trivial) hr
  constructor
  · intro hd t f dataType code d hf
    obtain ⟨m, hm, -⟩ := (hd t f dataType code d s' hf hs).yielded
    by_contra hn
    have hlen := congrArg List.length (hm.symm.trans (not_yielded hf hn hs))
    rw [List.length_append, List.length_singleton] at hlen
    omega
  · intro hc t f dataType code d s'' hf hs'
    obtain ⟨hm, hcopy⟩ := hc t f dataType code d hf
    exact delivers h hf hm hcopy hs'

/-! ### Two runs -/

def xrpTrade : Dict :=
  [("type", .str "trade"), ("code", .str "KRW-XRP"), ("trade_timestamp", .int 1700000000000)]

def btcText : String :=
  "\x7b\"type\":\"trade\",\"code\":\"krw-btc\",\"trade_timestamp\":1700000000000\x7d"

def xrpText : String :=
  "\x7b\"type\":\"trade\",\"code\":\"KRW-XRP\",\"trade_timestamp\":1700000000000\x7d"

/-- What `json.loads` makes of a trade of bitcoins and of one in another market. -/
def twoMarkets : Environment := fixedEnvironment fun s =>
  if s = btcText then .ok (.dict oneTrade)
  else if s = xrpText then .ok (.dict xrpTrade)
  else .error .jsonDecodeError

theorem streaming_isSome : (run (step krwBtcConfig)
    (Sys.init (upbit twoMarkets krwBtcConfig) Registry.init)
    [.call 0 .stream, .resume 0 .done, .resume 0 .done, .resume 0 .done]).isSome = true := rfl

/-- A stream that waits for its first message. -/
def streamingMarkets : Sys (upbit twoMarkets krwBtcConfig) := Option.get _ streaming_isSome

theorem streamingMarkets_reachable : Reachable (step krwBtcConfig)
    (Sys.init (upbit twoMarkets krwBtcConfig) Registry.init) streamingMarkets :=
  ⟨_, (Option.some_get streaming_isSome).symm⟩

theorem subscribed_isSome : (run (step krwBtcConfig) streamingMarkets
    [.call 1 (.own (.subscribe "trade" ["KRW-XRP", "Krw-Btc"])), .resume 1 .done]).isSome = true :=
  rfl

/-- Another task has subscribed to both markets. -/
def subscribedBoth : Sys (upbit twoMarkets krwBtcConfig) := Option.get _ subscribed_isSome

theorem subscribedBoth_succeeds :
    SucceedsIn 1 "trade" ["KRW-XRP", "Krw-Btc"] streamingMarkets subscribedBoth :=
  ⟨_, _, [], rfl, fun _ h => (by cases h), rfl, rfl⟩

/-- The ticket of that call. -/
def bothTicket : String := twoMarkets.uuid4 (registry streamingMarkets.conn).issued

theorem xrpText_receives (t : TaskId) : @ReceivesFor _ twoMarkets krwBtcConfig
    "trade" ["KRW-XRP", "Krw-Btc"] (.resume t (.frame (.text xrpText))) t (.text xrpText) .trade
    "KRW-XRP"
    xrpTrade where
  label := rfl
  wellFormed := by
    refine ⟨rfl, rfl, rfl, by decide, fun v hv _ => ?_⟩
    cases hv
    exact Option.isSome_iff_exists.1 (by decide +kernel)
  subType := rfl
  code := by decide

/-- **A market outside the configuration is subscribed and not delivered**: its frame is received,
nothing is yielded, and the entry stays `REQUESTED`. -/
theorem otherMarket_not_delivered :
    SucceedsIn 1 "trade" ["KRW-XRP", "Krw-Btc"] streamingMarkets subscribedBoth ∧
    (∃ s, step krwBtcConfig subscribedBoth (.resume 0 (.frame (.text xrpText))) = some s ∧
      s.yielded = [] ∧
      (registry s.conn).subscriptions.map (fun kv => (kv.2.codes, kv.2.status)) =
        [(["KRW-BTC"], .requested), (["KRW-BTC"], .requested),
          (["KRW-XRP", "KRW-BTC"], .requested)]) ∧
    ¬Guarded (step krwBtcConfig) (DeliversFor bothTicket "trade" ["KRW-XRP", "Krw-Btc"])
      subscribedBoth [.resume 0 (.frame (.text xrpText))] := by
  refine ⟨subscribedBoth_succeeds, ⟨_, rfl, rfl, rfl⟩, fun h => ?_⟩
  have hdelivered := h.1 0 (.text xrpText) .trade "KRW-XRP" xrpTrade _ (xrpText_receives 0) rfl
  obtain ⟨m, hm, -⟩ := hdelivered.yielded
  cases hm

theorem btcText_isSome : (run (step krwBtcConfig) subscribedBoth
    [.resume 0 (.frame (.text btcText))]).isSome = true := by
  decide +kernel

/-- `delivered_iff` of the same call, when the frame that comes is one of bitcoins. -/
theorem delivered_iff_btcText :
    (∃ s, run (step krwBtcConfig) subscribedBoth [.resume 0 (.frame (.text btcText))] = some s ∧
      s.yielded.length = 1) ∧
    (Guarded (step krwBtcConfig) (DeliversFor bothTicket "trade" ["KRW-XRP", "Krw-Btc"])
        subscribedBoth [.resume 0 (.frame (.text btcText))] ↔
      Guarded (step krwBtcConfig) (PassesFor "trade" ["KRW-XRP", "Krw-Btc"])
        subscribedBoth [.resume 0 (.frame (.text btcText))]) := by
  have hr : run (step krwBtcConfig) subscribedBoth [.resume 0 (.frame (.text btcText))] =
      some (Option.get _ btcText_isSome) := (Option.some_get btcText_isSome).symm
  exact ⟨⟨_, hr, by decide +kernel⟩, delivered_iff streamingMarkets_reachable subscribedBoth_succeeds hr⟩

end FlinkPractices.Upbit
