import FlinkPractices.Connector.Sole
import FlinkPractices.Upbit.Connector

/-!
# What the Upbit stream yields

The Upbit connector used by a single task, whatever frames the network delivers and whichever of its
connections it loses.

* `Matches` — the frame is an object of type `trade` or `orderbook` for a configured market, with no
  event time or one in the range of `datetime`.
* `Accepts` — besides, `deepcopy` can copy the object.  These are the frames that give a message.
* `Carries` — what the message is: the upper-cased code, the type, and the whole object.
* `Yields` — one message for each frame of a kind, in the order of the frames, and none for the
  others.

Any other frame is lost in `_parse_message`, or in the conversion, whose only exception the stream
takes for a parsing error.  So it goes on waiting on the same socket (`KeepsWaiting`).

Principal results:

* `yields_accepted` — in every run of a single task the stream yields the messages of the accepted
  frames, and the other frames leave the connection as it was,
* `deepTrade_not_yielded` — a trade that is nested 500 levels deep matches and is not yielded.
-/

set_option autoImplicit false

namespace FlinkPractices.Upbit

open Lib Connector Function

variable {U : UpperTable} (env : Environment) (cfg : ExchangeConfig U)

/-! ## The frames that are accepted -/

/-- The type of the messages with such data. -/
def typeOf : MarketDataType → String
  | .trade => "trade"
  | .orderbook => "orderbook"

/-- The value of the event time, if the object has one. -/
def eventTime (d : Dict) : MarketDataType → Option Json
  | .trade =>
    match d.get "trade_timestamp" with
    | some v => some v
    | none => d.get "timestamp"
  | .orderbook => d.get "timestamp"

/-- The frame is the JSON object `d`, with data of this type for the configured market `code`. -/
structure Matches (f : Frame) (dataType : MarketDataType) (code : String) (d : Dict) : Prop where
  object : f.decode.map env.loads = some (.ok (.dict d))
  hasType : d.get "type" = some (.str (typeOf dataType))
  hasCode : d.get "code" = some (.str code)
  nonempty : code ≠ ""
  subscribed : upper U code ∈ cfg.subscribedMarkets
  /-- the event time is absent, falsy, or in the range of `datetime` -/
  time : ∀ v, eventTime d dataType = some v → v.truthy = true →
    ∃ time, fromTimestampMs .double v = some time

/-- It matches, and a message can keep a copy of it. -/
structure Accepts (f : Frame) (dataType : MarketDataType) (code : String) (d : Dict) : Prop
    extends Matches env cfg f dataType code d where
  copied : env.deepcopy d = .ok d

/-- What the message for such a frame is. -/
structure Carries (U : UpperTable) (m : MarketDataMessage) (dataType : MarketDataType)
    (code : String) (d : Dict) : Prop where
  code : m.code U = upper U code
  dataType : m.dataType = dataType
  rawData : m.rawData = d

def Gives (f : Frame) (m : MarketDataMessage) : Prop :=
  ∃ dataType code d, Accepts env cfg f dataType code d ∧ Carries U m dataType code d

def Drops (f : Frame) : Prop := ∀ dataType code d, ¬Accepts env cfg f dataType code d

/-- One message for each frame of the kind `A`, in order, and none for the others. -/
inductive Yields (U : UpperTable) (A : Frame → MarketDataType → String → Dict → Prop) :
    List Frame → List MarketDataMessage → Prop
  | nil : Yields U A [] []
  | gives {fs ms f m dataType code d} : Yields U A fs ms → A f dataType code d →
      Carries U m dataType code d → Yields U A (fs ++ [f]) (ms ++ [m])
  | drops {fs ms f} : Yields U A fs ms → (∀ dataType code d, ¬A f dataType code d) →
      Yields U A (fs ++ [f]) ms

variable {env cfg}

/-! ## Parsing and conversion -/

theorem getD_str {d : Dict} {key s : String} :
    d.getD key .null = .str s ↔ d.get key = some (.str s) := by
  unfold Dict.getD
  cases d.get key with
  | none => exact ⟨nofun, nofun⟩
  | some v => exact ⟨congrArg some, Option.some.inj⟩

theorem eventTsMs_typeOf (d : Dict) (dataType : MarketDataType) :
    eventTsMs (typeOf dataType) d = (eventTime d dataType).getD .null := by
  cases dataType with
  | trade =>
    simp only [eventTsMs, typeOf, if_true, eventTime, Dict.getD]
    cases d.get "trade_timestamp" <;> rfl
  | orderbook => rfl

theorem typeOf_iff {ty : String} :
    (∃ dataType, ty = typeOf dataType) ↔ ty = "trade" ∨ ty = "orderbook" := by
  constructor
  · rintro ⟨dataType, rfl⟩
    cases dataType with
    | trade => exact .inl rfl
    | orderbook => exact .inr rfl
  · rintro (rfl | rfl)
    · exact ⟨.trade, rfl⟩
    · exact ⟨.orderbook, rfl⟩

/-- The messages that `_parse_message` lets through. -/
theorem recognise_iff {d : Dict} {ty code : String} :
    recognise cfg d = some (ty, code) ↔ (∃ dataType, ty = typeOf dataType) ∧
      d.get "type" = some (.str ty) ∧ d.get "code" = some (.str code) ∧ code ≠ "" ∧
      upper U code ∈ cfg.subscribedMarkets := by
  rw [typeOf_iff, ← getD_str, ← getD_str]
  unfold recognise
  split
  · rename_i t c ht hc
    rw [ht, hc]
    simp only [Json.str.injEq]
    split
    · split
      · rename_i hty hcode
        simp only [Option.some.injEq, Prod.mk.injEq]
        exact ⟨fun ⟨h₁, h₂⟩ => ⟨h₁ ▸ hty, h₁, h₂, h₂ ▸ hcode⟩, fun h => ⟨h.2.1, h.2.2.1⟩⟩
      · rename_i hcode
        exact ⟨nofun, fun ⟨_, _, h, hc⟩ => absurd (h ▸ hc) hcode⟩
    · rename_i hty
      exact ⟨nofun, fun ⟨h, ht, _⟩ => absurd (ht ▸ h) hty⟩
  · rename_i hne
    exact ⟨nofun, fun ⟨_, ht, hc, _⟩ => absurd hc (hne _ _ ht)⟩

/-- What the conversion makes of such a message. -/
theorem convert_typeOf {d : Dict} {dataType : MarketDataType} {code : String}
    (ht : d.get "type" = some (.str (typeOf dataType))) (hc : d.get "code" = some (.str code))
    (r : Registry) : convertToMarketDataMessages env cfg .double r d =
      toMessage env cfg .double r dataType (typeOf dataType) code d := by
  unfold convertToMarketDataMessages
  rw [getD_str.2 ht, getD_str.2 hc]
  cases dataType <;> rfl

/-- **An accepted frame gives its message.** -/
theorem Accepts.message {f : Frame} {dataType : MarketDataType} {code : String} {d : Dict}
    (h : Accepts env cfg f dataType code d) (r : Registry) :
    ∃ r₁ r₂ m, parseMessage env cfg r f = (r₁, some d) ∧
      convertToMarketDataMessages env cfg .double r₁ d = (r₂, .ok [m]) ∧ Carries U m dataType code d := by
  obtain ⟨s, hs, hl⟩ := Option.map_eq_some_iff.1 h.object
  have hrec : recognise cfg d = some (typeOf dataType, code) :=
    recognise_iff.2 ⟨⟨dataType, rfl⟩, h.hasType, h.hasCode, h.nonempty, h.subscribed⟩
  refine ⟨markActiveFor env U r (typeOf dataType) code, ?_⟩
  have hparse : parseMessage env cfg r f = (markActiveFor env U r (typeOf dataType) code, some d) := by
    simp only [parseMessage, hs, hl, hrec]
  rw [hparse, convert_typeOf h.hasType h.hasCode]
  unfold toMessage
  rw [eventTsMs_typeOf]
  split
  · rename_i ht
    cases hv : eventTime d dataType with
    | none =>
      rw [hv] at ht
      cases ht
    | some v =>
      rw [hv] at ht
      obtain ⟨time, htime⟩ := h.time v hv ht
      rw [Option.getD_some, htime]
      dsimp only
      rw [newMessage_copied h.copied]
      exact ⟨_, _, rfl, rfl, rfl, rfl, rfl⟩
  · rw [newMessage_copied h.copied]
    exact ⟨_, _, rfl, rfl, rfl, rfl, rfl⟩

/-- A conversion fails for want of a time, or of a copy. -/
theorem toMessage_fails {d : Dict} {dataType : MarketDataType}
    (h : (∀ v, eventTime d dataType = some v → v.truthy = true →
      ∃ time, fromTimestampMs .double v = some time) → env.deepcopy d ≠ .ok d)
    (r : Registry) (code : String) :
    ∃ r', toMessage env cfg .double r dataType (typeOf dataType) code d =
      (r', .error invalidMessage) := by
  unfold toMessage
  rw [eventTsMs_typeOf]
  split
  · rename_i ht
    cases hv : eventTime d dataType with
    | none =>
      rw [hv] at ht
      cases ht
    | some v =>
      rw [Option.getD_some]
      cases htime : fromTimestampMs .double v with
      | none => exact ⟨_, rfl⟩
      | some time =>
        have hcopy : env.deepcopy d ≠ .ok d := h fun v' hv' _ => by
          rw [hv] at hv'
          cases hv'
          exact ⟨time, htime⟩
        exact ⟨_, congrArg _ (newMessage_not_copied hcopy _ _ _ _)⟩
  · rename_i ht
    have hcopy : env.deepcopy d ≠ .ok d := h fun v hv htr => by
      rw [hv] at ht
      exact absurd htr ht
    exact ⟨_, congrArg _ (newMessage_not_copied hcopy _ _ _ _)⟩

/-- **Any other frame is dropped**: it is not parsed, or its conversion raises. -/
theorem Drops.message {f : Frame} (h : Drops env cfg f) (r : Registry) :
    parseMessage env cfg r f = (r, none) ∨
      ∃ r₁ d r₂, parseMessage env cfg r f = (r₁, some d) ∧
        convertToMarketDataMessages env cfg .double r₁ d = (r₂, .error invalidMessage) := by
  unfold parseMessage
  cases hs : f.decode with
  | none => exact .inl rfl
  | some s =>
    dsimp only
    split
    · rename_i d hl
      cases hrec : recognise cfg d with
      | none => exact .inl rfl
      | some p =>
        obtain ⟨ty, code⟩ := p
        obtain ⟨⟨dataType, rfl⟩, ht, hc, hne, hsub⟩ := recognise_iff.1 hrec
        refine .inr ⟨markActiveFor env U r (typeOf dataType) code, d, ?_⟩
        rw [convert_typeOf ht hc]
        refine (toMessage_fails ?_ _ code).imp fun r₂ hr => ⟨rfl, hr⟩
        intro htime hcopy
        exact h dataType code d ⟨⟨by rw [hs, Option.map_some, hl], ht, hc, hne, hsub, htime⟩, hcopy⟩
    · exact .inl rfl

/-! ## Segments -/

theorem streamFrame_accepts {f : Frame} {dataType : MarketDataType} {code : String} {d : Dict}
    (h : Accepts env cfg f dataType code d) (done : TaskId → Bool) (t : TaskId)
    (c : Conn (upbit env cfg)) :
    ∃ r m, streamFrame cfg done c t f = ({ c with inst := r }, .yields m []) ∧
      Carries U m dataType code d := by
  obtain ⟨r₁, r₂, m, hp, hc, hm⟩ := h.message c.inst
  refine ⟨r₂, m, ?_, hm⟩
  unfold streamFrame
  simp only [upbit, hp, hc]
  rfl

/-- After a dropped frame the loop goes on. -/
theorem streamFrame_loop {f : Frame} (h : Drops env cfg f) (done : TaskId → Bool) (t : TaskId)
    (c : Conn (upbit env cfg)) :
    ∃ r, streamFrame cfg done c t f = streamLoop cfg done { c with inst := r } t := by
  unfold streamFrame
  rcases h.message c.inst with hp | ⟨r₁, d, r₂, hp, hc⟩
  · refine ⟨c.inst, ?_⟩
    simp only [upbit, hp]
  · refine ⟨r₂, ?_⟩
    simp only [upbit, hp, hc, streamExcept]
    exact if_pos rfl

/-- It leaves the stream waiting on its socket. -/
theorem streamFrame_drops {f : Frame} (h : Drops env cfg f) (done : TaskId → Bool) (t : TaskId)
    {c : Conn (upbit env cfg)} {w : Ws} (hs : c.state = .connected) (hw : c.websocket = some w) :
    ∃ r, streamFrame cfg done c t f = ({ c with inst := r }, .suspend (.recv w)) := by
  obtain ⟨r, hr⟩ := streamFrame_loop h done t c
  refine ⟨r, hr.trans ?_⟩
  unfold streamLoop recvMessage
  rw [if_pos hs]
  simp only [hw]

/-! ## Runs -/

/-- The frame that a step receives. -/
def frame? : Label (upbit env cfg) → Option Frame
  | .resume _ (.frame f) => some f
  | _ => none

/-- The frames received in a run, in the order of arrival. -/
def received (ls : List (Label (upbit env cfg))) : List Frame := ls.filterMap frame?

/-- The messages yielded, in their order. -/
def messages (s : Sys (upbit env cfg)) : List MarketDataMessage := s.yielded.map (·.2)

theorem messages_congr {s s' : Sys (upbit env cfg)} (h : s'.yielded = s.yielded) :
    messages s' = messages s := by
  unfold messages
  rw [h]

/-- Of the connector nothing has changed but the registry, nothing has been yielded, and the task
waits on the socket it waited on. -/
structure KeepsWaiting (t : TaskId) (s s' : Sys (upbit env cfg)) : Prop where
  conn : ∃ r : Registry, s'.conn = { s.conn with inst := r }
  messages : messages s' = messages s
  waits : ∃ w, (s.tasks t).call = some (.recv w) ∧ (s'.tasks t).call = some (.recv w)

/-- A step that receives a frame that is dropped disturbs nothing. -/
def Undisturbing (s : Sys (upbit env cfg)) (l : Label (upbit env cfg)) : Prop :=
  ∀ t f s', l = .resume t (.frame f) → Drops env cfg f → step cfg s l = some s' →
    KeepsWaiting t s s'

/-- The invariant of the runs of `t`. -/
structure Streaming (t : TaskId) (s : Sys (upbit env cfg)) : Prop where
  sole : s.Sole t
  /-- a conversion gives one message at most -/
  generator : ∀ ms, (s.tasks t).generator = some ms → ms = []
  socket : ∀ w, (s.tasks t).call = some (.recv w) → s.conn.websocket = some w

/-- A segment that does not begin with a frame. -/
theorem Streaming.settle {t : TaskId} {s : Sys (upbit env cfg)} {k : Task (upbit env cfg)}
    {P : Point (upbit env cfg)} {r : Conn (upbit env cfg) × Act (upbit env cfg)}
    (hsole : (s.settle t k r).Sole t) (hk : ∀ ms, k.generator = some ms → ms = [])
    (hpath : Path cfg s.isDone t (P, s.conn) (r.2.point, r.1)) (hP : P.Silent)
    (hstart : ∀ pc, P ≠ .suspended pc) :
    Streaming t (s.settle t k r) ∧ messages (s.settle t k r) = messages s := by
  have hsilent := Sys.settle_silent (s := s) (t := t) (k := k) (hpath.silent hP)
  refine ⟨⟨hsole, fun ms hms => hk ms (hsilent.2 ▸ hms), fun w hw => ?_⟩,
    messages_congr hsilent.1⟩
  rw [Sys.settle_conn]
  apply hpath.recv_socket hstart
  obtain ⟨c, a⟩ := r
  cases a with
  | suspend pc =>
    simp only [Sys.settle, Sys.setTask, update_self, Option.some.injEq] at hw
    rw [hw]
    rfl
  | _ => simp [Sys.settle, Sys.setTask] at hw

/-- What a step yields. -/
def Effect (t : TaskId) (s s' : Sys (upbit env cfg)) : Option Frame → Prop
  | none => messages s' = messages s
  | some f => (∃ m, Gives env cfg f m ∧ messages s' = messages s ++ [m]) ∨
      Drops env cfg f ∧ KeepsWaiting t s s'

/-- Only a stream that waits for a message receives one. -/
theorem advance_frame {done : TaskId → Bool} {c : Conn (upbit env cfg)} {t : TaskId}
    {pc : Pc (upbit env cfg)} {f : Frame} {r : Conn (upbit env cfg) × Act (upbit env cfg)}
    (h : advance cfg done c t pc (.frame f) = some r) :
    (∃ w, pc = .recv w) ∧ streamFrame cfg done c t f = r := by
  cases pc with
  | recv w => exact ⟨⟨w, rfl⟩, Option.some.inj h⟩
  | connect k pc => cases pc <;> cases h
  | _ => cases h

/-- A frame is received. -/
theorem Streaming.receives {t : TaskId} {s : Sys (upbit env cfg)} {v : Ws} {f : Frame}
    (h : Streaming t s)
    (hsole : (s.settle t { s.tasks t with cancelling := false }
      (streamFrame cfg s.isDone s.conn t f)).Sole t)
    (hc : (s.tasks t).call = some (.recv v)) :
    Streaming t (s.settle t { s.tasks t with cancelling := false }
      (streamFrame cfg s.isDone s.conn t f)) ∧
    Effect t s (s.settle t { s.tasks t with cancelling := false }
      (streamFrame cfg s.isDone s.conn t f)) (some f) := by
  have hstate : s.conn.state = .connected := h.sole.tidy hc
  have hsocket := h.socket v hc
  by_cases hf : Drops env cfg f
  · obtain ⟨i, hi⟩ := streamFrame_drops hf s.isDone t hstate hsocket
    rw [hi] at hsole ⊢
    refine ⟨⟨hsole, fun ms hms => ?_, fun w hw => ?_⟩, .inr ⟨hf, ⟨i, rfl⟩, rfl, v, hc, ?_⟩⟩
    · simp only [Sys.settle, Sys.setTask, update_self] at hms
      exact h.generator ms hms
    · simp only [Sys.settle, Sys.setTask, update_self, Option.some.injEq, Pc.recv.injEq] at hw
      subst hw
      exact hsocket
    · simp [Sys.settle, Sys.setTask]
  · simp only [Drops, Classical.not_forall, Classical.not_not] at hf
    obtain ⟨dataType, code, d, hacc⟩ := hf
    obtain ⟨i, m, hi, hm⟩ := streamFrame_accepts hacc s.isDone t s.conn
    rw [hi] at hsole ⊢
    refine ⟨⟨hsole, fun ms hms => ?_, fun w hw => ?_⟩,
      .inl ⟨m, ⟨dataType, code, d, hacc, hm⟩, List.map_append⟩⟩
    · simp only [Sys.settle, Sys.setTask, update_self, Option.some.injEq] at hms
      exact hms.symm
    · simp [Sys.settle, Sys.setTask] at hw

/-- **One step of the only task.** -/
theorem Streaming.step {t : TaskId} {s s' : Sys (upbit env cfg)} {l : Label (upbit env cfg)}
    (h : Streaming t s) (hl : l.Of t) (hs : step cfg s l = some s') :
    Streaming t s' ∧ Effect t s s' (frame? l) := by
  have hsole := step_sole h.sole hl hs
  cases step_move hs with
  | @call u op ho hc =>
    cases hl
    exact Streaming.settle hsole h.generator (enter_path s.conn op) trivial nofun
  | @next u ms ho hc hm =>
    cases hl
    cases h.generator ms hm
    exact Streaming.settle hsole nofun (yieldMessages_path s.conn []) trivial nofun
  | @resume u pc w r hc ha hr =>
    cases hl
    have hw : w ≠ .cancelled := h.sole.steady.calm hs
    cases w with
    | frame f =>
      obtain ⟨⟨v, rfl⟩, rfl⟩ := advance_frame hr
      exact h.receives hsole hc
    | done | raised e =>
      exact Streaming.settle hsole h.generator (advance_path hr) trivial nofun
    | cancelled => exact absurd rfl hw
  | cancel => exact hl.elim
  | @exit u o ho hc hm =>
    cases hl
    refine ⟨⟨hsole, ?_, ?_⟩, rfl⟩
    · intro ms hms
      rw [Sys.setTask_self] at hms
      cases hms
    · intro w hw
      rw [Sys.setTask_self] at hw
      rw [hc] at hw
      cases hw

/-- A step yields what its frame gives. -/
theorem step_yields {t : TaskId} {s s' : Sys (upbit env cfg)} {l : Label (upbit env cfg)}
    {fs : List Frame} (h : Streaming t s) (hy : Yields U (Accepts env cfg) fs (messages s))
    (hl : l.Of t) (hs : step cfg s l = some s') :
    Yields U (Accepts env cfg) (fs ++ (frame? l).toList) (messages s') := by
  obtain ⟨-, he⟩ := h.step hl hs
  cases hf : frame? l with
  | none =>
    rw [hf] at he
    rw [Option.toList_none, List.append_nil]
    rwa [show messages s' = _ from he]
  | some f =>
    rw [hf] at he
    rcases he with ⟨m, ⟨_, _, _, hacc, hm⟩, he⟩ | ⟨hd, hk⟩
    · rw [he]
      exact .gives hy hacc hm
    · rw [hk.messages]
      exact .drops hy hd

/-- The order of the messages is that of the frames. -/
theorem run_yields {t : TaskId} {ls : List (Label (upbit env cfg))} {s s' : Sys (upbit env cfg)}
    {fs : List Frame} (h : Streaming t s) (hy : Yields U (Accepts env cfg) fs (messages s))
    (hl : ∀ l ∈ ls, l.Of t) (hr : run (step cfg) s ls = some s') :
    Yields U (Accepts env cfg) (fs ++ received ls) (messages s') := by
  have hrun : Streaming t s' ∧ Yields U (Accepts env cfg) (fs ++ received ls) (messages s') :=
    run_collects (g := frame?)
      (P := fun x xs => Streaming t x ∧ Yields U (Accepts env cfg) xs (messages x))
      (fun _ _ _ _ hx hl hs => ⟨(hx.1.step hl hs).1, step_yields hx.1 hx.2 hl hs⟩)
      ⟨h, hy⟩ (.of_mem hl) hr
  exact hrun.2

theorem streaming_init (inst : Registry) (t : TaskId) :
    Streaming t (Sys.init (upbit env cfg) inst) :=
  ⟨sole_init (S := upbit env cfg) inst t, nofun, nofun⟩

/-- **The stream yields exactly the accepted frames.**  In every run of a single task, whatever
frames come, whichever connections are lost and whatever the network answers: the messages yielded
are one for each accepted frame, in order, and every other frame leaves the connection as it was. -/
theorem yields_accepted {t : TaskId} {inst : Registry} {ls : List (Label (upbit env cfg))}
    {s : Sys (upbit env cfg)} (hl : ∀ l ∈ ls, l.Of t)
    (hr : run (step cfg) (Sys.init (upbit env cfg) inst) ls = some s) :
    Yields U (Accepts env cfg) (received ls) (messages s) ∧
      Guarded (step cfg) Undisturbing (Sys.init (upbit env cfg) inst) ls := by
  refine ⟨run_yields (streaming_init inst t) .nil hl hr, ?_⟩
  have hquiet : _ ↔ Guarded (step cfg) (fun _ _ => True) (Sys.init (upbit env cfg) inst) ls :=
    guarded_iff (I := Streaming t) (H := fun _ l => l.Of t) (G := Undisturbing)
      (fun _ _ _ h hl hs => (h.step hl hs).1) (fun s l s' h hl hs => ?_)
      (streaming_init inst t) (.of_mem hl) hr
  · exact hquiet.2 (.of_forall fun _ _ => trivial)
  · refine iff_of_true ?_ trivial
    rintro u f s₁ rfl hd hs₁
    have he := (h.step hl hs₁).2
    cases hl
    rcases he with ⟨m, ⟨dataType, code, d, hacc, -⟩, -⟩ | ⟨-, hk⟩
    · exact absurd hacc (hd dataType code d)
    · exact hk

/-! ## A run with bad frames and a lost connection -/

/-- A trade of one bitcoin. -/
def oneTrade : Dict :=
  [("type", .str "trade"), ("code", .str "krw-btc"), ("trade_timestamp", .int 1700000000000)]

/-- The same, with a value that is nested 500 levels deep. -/
def deepTrade : Dict := ("note", .nested 500) :: oneTrade

/-- Surroundings in which the text `trade` is that trade, `deep` the deep one, `late` one after the
year 9999, and any other text no JSON. -/
def tradeOrLate : Environment := fixedEnvironment fun s =>
  if s = "trade" then .ok (.dict oneTrade)
  else if s = "deep" then .ok (.dict deepTrade)
  else if s = "late" then .ok (.dict (("trade_timestamp", .int 253402300800000) :: oneTrade))
  else .error .jsonDecodeError

/-- A stream receives a trade, three frames that are dropped, and, on a second connection, the trade
again. -/
def twoTrades : List (Label (upbit tradeOrLate krwBtcConfig)) :=
  [.call 0 .stream, .resume 0 .done, .resume 0 .done, .resume 0 .done,
    .resume 0 (.frame (.text "trade")), .next 0, .resume 0 (.frame (.text "late")),
    .resume 0 (.frame (.text "noise")), .resume 0 (.frame (.text "deep")),
    .resume 0 (.raised .connectionClosed), .resume 0 .done, .resume 0 .done, .resume 0 .done,
    .resume 0 .done, .resume 0 .done, .resume 0 (.frame (.text "trade"))]

theorem twoTrades_isSome : (run (step krwBtcConfig)
    (Sys.init (upbit tradeOrLate krwBtcConfig) Registry.init) twoTrades).isSome = true := by
  decide +kernel

/-- `yields_accepted` of that run: it yields two messages. -/
theorem yields_accepted_twoTrades : ∃ s, (∀ l ∈ twoTrades, l.Of 0) ∧
    run (step krwBtcConfig) (Sys.init (upbit tradeOrLate krwBtcConfig) Registry.init) twoTrades =
      some s ∧
    (messages s).length = 2 ∧
    Yields asciiTable (Accepts tradeOrLate krwBtcConfig) (received twoTrades) (messages s) ∧
    Guarded (step krwBtcConfig) Undisturbing
      (Sys.init (upbit tradeOrLate krwBtcConfig) Registry.init) twoTrades := by
  have hl : ∀ l ∈ twoTrades, l.Of 0 := by simp [twoTrades, Label.Of]
  have hr := (Option.some_get twoTrades_isSome).symm
  exact ⟨_, hl, hr, by decide +kernel, yields_accepted hl hr⟩

/-! ## A frame that is nested too deeply -/

theorem Yields.none {A : Frame → MarketDataType → String → Dict → Prop} {fs : List Frame}
    {ms : List MarketDataMessage} (h : Yields U A fs ms) (hms : ms = []) :
    ∀ f ∈ fs, ∀ dataType code d, ¬A f dataType code d := by
  induction h with
  | nil => nofun
  | gives => exact absurd hms (List.append_ne_nil_of_right_ne_nil _ (List.cons_ne_nil _ _))
  | drops _ hf ih =>
    intro f hmem
    rcases List.mem_append.1 hmem with hmem | hmem
    · exact ih hms f hmem
    · rw [List.mem_singleton.1 hmem]
      exact hf

/-- A stream receives the deep trade. -/
def deepRun : List (Label (upbit tradeOrLate krwBtcConfig)) :=
  [.call 0 .stream, .resume 0 .done, .resume 0 .done, .resume 0 .done,
    .resume 0 (.frame (.text "deep"))]

theorem deepRun_isSome : (run (step krwBtcConfig)
    (Sys.init (upbit tradeOrLate krwBtcConfig) Registry.init) deepRun).isSome = true := by
  decide +kernel

theorem deepTrade_matches :
    Matches tradeOrLate krwBtcConfig (.text "deep") .trade "krw-btc" deepTrade where
  object := rfl
  hasType := rfl
  hasCode := rfl
  nonempty := by decide
  subscribed := by decide
  time v hv _ := by
    cases hv
    exact Option.isSome_iff_exists.1 (by decide +kernel)

/-- **A matching frame that is too deep for `deepcopy` is lost**: the run of `deepRun` yields
nothing. -/
theorem deepTrade_not_yielded : ∃ s, (∀ l ∈ deepRun, l.Of 0) ∧
    run (step krwBtcConfig) (Sys.init (upbit tradeOrLate krwBtcConfig) Registry.init) deepRun =
      some s ∧
    Matches tradeOrLate krwBtcConfig (.text "deep") .trade "krw-btc" deepTrade ∧
    messages s = [] ∧
    ¬Yields asciiTable (Matches tradeOrLate krwBtcConfig) (received deepRun) (messages s) := by
  have hl : ∀ l ∈ deepRun, l.Of 0 := by simp [deepRun, Label.Of]
  have hms : messages (Option.get _ deepRun_isSome) = [] :=
    List.length_eq_zero_iff.1 (by decide +kernel)
  refine ⟨_, hl, (Option.some_get deepRun_isSome).symm, deepTrade_matches, hms, fun hy => ?_⟩
  exact hy.none hms (.text "deep") (List.mem_singleton.2 rfl) _ _ _ deepTrade_matches

end FlinkPractices.Upbit
