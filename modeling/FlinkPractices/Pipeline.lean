import FlinkPractices.Connector.Attempt
import FlinkPractices.Kafka.Producer
import FlinkPractices.Service.Tasks
import FlinkPractices.Service.WebSocket
import FlinkPractices.Upbit.Stream

/-!
# The whole pipeline (`application/use_cases/stream_market_data.py`)

The use case wires the Upbit connector, the Kafka adapter and the ingestion service.  Here the
three machines run together, from the call of the use case on, while nothing fails: dialing and
sending succeed, the connection stays, nobody is cancelled (`Label.IsCalm`).

* `due` — what such a run owes its reader: a record for each frame that the connector and the
  service can convert, with the topic of its type and the code as key.
* `Sys.Delivers` — what `produce()` was given is what is due, and the consumption loop goes on.
* `isMarketData` — the frames that the connector makes a message of.

The service filters messages by `self._connector.config`, an attribute the connector does not
have.  So the loop ends at the first message, before anything is produced.

## Proof

A run goes through the phases of `Phase`: the connection is opened, the use case sleeps while the
loop waits for frames, and after market data the loop has ended.  Each phase has a lemma for one
step, which rests on what the segments of the connector do in it (`advance_opening`,
`advance_waits`); `run_phase` is the induction over the run, and `Phase.delivers` compares each
phase with what is due.

Principal result: `delivers_iff` — a run delivers iff it receives no market data at all.
-/

set_option autoImplicit false

namespace FlinkPractices.Pipeline

open Lib Upbit Service
open Connector (TaskId Conn ConnectPc Ws connectSubscribed_connecting)

variable {U : UpperTable} (env : Environment) (cfg : ExchangeConfig U)

/-! ## The wiring -/

/-- `code.startswith("KRW-")`. -/
def isKrwMarket (code : String) : Bool := "KRW-".toList.isPrefixOf code.toList

/-- The validation of `stream_market_data`, and its configuration. -/
def exchangeConfig (U : UpperTable) (subscribedMarkets : List String) :
    Except PyExn (ExchangeConfig U) :=
  if subscribedMarkets = [] then
    .error (.validationException "subscribed_markets cannot be empty")
  else
    match subscribedMarkets.find? fun code => !isKrwMarket code with
    | some code => .error (.validationException
        ("Invalid market code: " ++ code ++ ". Must start with 'KRW-'"))
    | none => createUpbitConfig U subscribedMarkets UPBIT_PING_INTERVAL
        DEFAULT_MAX_RECONNECT_ATTEMPTS DEFAULT_EXPONENTIAL_BACKOFF_MAX

/-- The use case accepts exactly the non-empty sets of markets that start with `KRW-`. -/
theorem exchangeConfig_ok {markets : List String} :
    (∃ cfg, exchangeConfig U markets = .ok cfg) ↔
      markets ≠ [] ∧ ∀ m ∈ markets, isKrwMarket m = true := by
  unfold exchangeConfig
  by_cases hne : markets = []
  · simp [hne]
  · rw [if_neg hne]
    cases hf : markets.find? fun code => !isKrwMarket code with
    | some code =>
      have hcode := List.find?_some hf
      refine iff_of_false (fun ⟨_, h⟩ => by cases h) fun h => ?_
      rw [h.2 code (List.mem_of_find?_eq_some hf)] at hcode
      cases hcode
    | none =>
      obtain ⟨cfg, h, -⟩ := createUpbitConfig_ok (U := U) hne
      exact iff_of_true ⟨cfg, h⟩
        ⟨hne, fun m hm => by simpa using List.find?_eq_none.1 hf m hm⟩

/-- `UpbitWebSocketConnector(exchange_config)` as the connector of the service. -/
abbrev connector : ConnectorPort U := webSocket (upbit env cfg) cfg id

/-- `IngestionService(connector, publisher)`, with a task that is going to run the use case. -/
def wired (K : Kafka.Producer) : Sys (connector env cfg) (Kafka.publisher K) :=
  Sys.init (Conn.init (upbit env cfg) Registry.init) Kafka.Adapter.init 10 1

/-! ## Frames -/

/-- The frames that the connector turns into a message: a JSON object of type `trade` or
`orderbook`, for a configured market, whose timestamp, if it has one, is in the range of
`datetime`, and which `deepcopy` can copy. -/
def isMarketData (f : Frame) : Bool :=
  match f.decode.map env.loads with
  | some (.ok (.dict d)) =>
    match recognise cfg d with
    | some (ty, _) =>
      (!(eventTsMs ty d).truthy || (fromTimestampMs .double (eventTsMs ty d)).isSome) &&
        (env.deepcopy d).isOk
    | none => false
  | _ => false

variable {env cfg} in
theorem isMarketData_iff {f : Frame} : isMarketData env cfg f = true ↔
    ∃ dataType code d, Accepts env cfg f dataType code d := by
  unfold isMarketData
  constructor
  · intro h
    split at h
    · rename_i d hd
      split at h
      · rename_i ty code hrec
        obtain ⟨⟨dataType, rfl⟩, ht, hc, hne, hsub⟩ := recognise_iff.1 hrec
        obtain ⟨htime, hcopy⟩ := Bool.and_eq_true_iff.1 h
        refine ⟨dataType, code, d, ⟨hd, ht, hc, hne, hsub, fun v hv htr => ?_⟩, ?_⟩
        · rw [eventTsMs_typeOf, hv, Option.getD_some, htr] at htime
          exact Option.isSome_iff_exists.1 htime
        · cases hc : env.deepcopy d with
          | ok copy => rw [env.deepcopy_eq hc]
          | error e => rw [hc] at hcopy; cases hcopy
      · cases h
    · cases h
  · rintro ⟨dataType, code, d, h⟩
    have hrec : recognise cfg d = some (typeOf dataType, code) :=
      recognise_iff.2 ⟨⟨dataType, rfl⟩, h.hasType, h.hasCode, h.nonempty, h.subscribed⟩
    simp only [h.object, hrec, eventTsMs_typeOf, h.copied]
    cases hv : eventTime d dataType with
    | none => rfl
    | some v =>
      cases htr : v.truthy with
      | false => simp [htr, Except.isOk, Except.toBool]
      | true =>
        obtain ⟨time, htime⟩ := h.time v hv htr
        simp [htime, Except.isOk, Except.toBool]

variable {env cfg} in
/-- Any other frame is dropped. -/
theorem drops_other {f : Frame} (h : isMarketData env cfg f = false) : Drops env cfg f := by
  intro dataType code d ha
  rw [isMarketData_iff.2 ⟨dataType, code, d, ha⟩] at h
  cases h

/-! ## What is due -/

/-- The messages for which a frame is accepted: the connector parses and converts it, and the
service converts it to protobuf.  The registry only tells how often the clock was read. -/
def acceptedMessages (f : Frame) : List MarketDataMessage :=
  match parseMessage env cfg Registry.init f with
  | (r, some d) =>
    match (convertToMarketDataMessages env cfg .double r d).2 with
    | .ok ms => ms.filter fun m => (convertToProtobuf U m).isOk
    | .error _ => []
  | (_, none) => []

/-- Topic and key of the record that is due for a message. -/
def dueRecord (U : UpperTable) (m : MarketDataMessage) : String × ByteArray :=
  (match m.dataType with
    | .trade => "upbit.trades.v1"
    | .orderbook => "upbit.orderbooks.v1", (upper U m.rawCode).toUTF8)

/-- One record per accepted frame, in the order of arrival. -/
def due (fs : List Frame) : List (String × ByteArray) :=
  (fs.flatMap (acceptedMessages env cfg)).map (dueRecord U)

theorem acceptedMessages_other {f : Frame} (h : isMarketData env cfg f = false) :
    acceptedMessages env cfg f = [] := by
  unfold acceptedMessages
  rcases (drops_other h).message Registry.init with hp | ⟨r₁, d, r₂, hp, hc⟩
  · rw [hp]
  · rw [hp]; dsimp only; rw [hc]

/-- Nothing is due for frames that are not market data. -/
theorem due_other {fs : List Frame} (h : ∀ f ∈ fs, isMarketData env cfg f = false) :
    due env cfg fs = [] := by
  unfold due
  rw [List.flatMap_eq_nil_iff.2 fun f hf => acceptedMessages_other env cfg (h f hf)]
  rfl

/-! ## Runs in which nothing fails -/

variable {env cfg} {K : Kafka.Producer}

/-- The use case is called; what is awaited returns; seconds pass; the network delivers frames. -/
def IsCalm : Label (connector env cfg) → Prop
  | .call _ op => op = .useCase
  | .resume _ (.wake .done) => True
  | .resume _ (.wake (.input _)) => True
  | .resume _ .timeout => True
  | _ => False

/-- The frame that a step receives. -/
def frame? : Label (connector env cfg) → Option Frame
  | .resume _ (.wake (.input f)) => some f
  | _ => none

/-- The frames received in a run, in the order of arrival. -/
def received (ls : List (Label (connector env cfg))) : List Frame := ls.filterMap frame?

/-- The records are those that are due, and the consumption loop goes on. -/
structure Delivers (s : Sys (connector env cfg) (Kafka.publisher K)) (fs : List Frame) : Prop where
  records : (Kafka.Adapter.records s.service.publisher).map (fun r => (r.topic, r.key)) =
    due env cfg fs
  alive : ∀ b, s.service.backgroundTask = some b → s.outcome b = none

/-! ### The connection is opened -/

/-- A suspension point of the first `connect()`, with the connector there. -/
inductive Opening : ConnectPc (upbit env cfg) → Conn (upbit env cfg) → Prop
  | dialing {c} : c.state = .connecting → c.inst = Registry.init → Opening .dialing c
  | trade {c w p codes} : c.state = .connecting → c.websocket = some w →
      Opening (.sending w p (.seedTrade codes)) c
  | orderbook {c w p} : c.state = .connecting → c.websocket = some w →
      Opening (.sending w p .seedOrderbook) c

/-- The stream waits on a live connection. -/
structure Open (c : Conn (upbit env cfg)) : Prop where
  state : c.state = .connected
  websocket : ∃ w, c.websocket = some w

/-- What a segment of the first `connect()` leaves. -/
def Opens : Conn (upbit env cfg) × Connector.ConnectAct (upbit env cfg) → Prop
  | (c, .suspend pc) => Opening pc c
  | (c, .finish r) => r = .returned ∧ Open c

theorem resumeConnect_opens (done : TaskId → Bool) (t : TaskId) {c : Conn (upbit env cfg)}
    {pc : ConnectPc (upbit env cfg)} (h : Opening pc c) :
    ∃ x, Connector.resumeConnect cfg done c t pc .done = some x ∧ Opens x := by
  cases h with
  | dialing hs hi =>
    refine ⟨_, rfl, ?_⟩
    unfold Connector.connectDialed
    dsimp only
    rw [hi]
    exact .trade hs rfl
  | trade hs hw =>
    refine ⟨_, rfl, ?_⟩
    rw [hw]
    exact .orderbook hs rfl
  | @orderbook c w p hs hw =>
    refine ⟨_, rfl, ?_⟩
    rw [hw]
    change Opens (Connector.connectSubscribed cfg _ t)
    rw [connectSubscribed_connecting]
    · exact ⟨rfl, rfl, w, rfl⟩
    · exact hs

/-! ### The consumption loop -/

/-- The generator goes on waiting for frames. -/
theorem streamLoop_open (done : TaskId → Bool) (t : TaskId) {c : Conn (upbit env cfg)}
    (h : Open c) : ∃ w, Connector.streamLoop cfg done c t = (c, .suspend (.recv w)) := by
  obtain ⟨hs, w, hw⟩ := h
  refine ⟨w, ?_⟩
  unfold Connector.streamLoop Connector.recvMessage
  rw [if_pos hs, hw]

/-- Market data is yielded. -/
theorem streamFrame_marketData (done : TaskId → Bool) (t : TaskId)
    (c : Conn (upbit env cfg)) {f : Frame} (hf : isMarketData env cfg f = true) :
    ∃ c' m, Connector.streamFrame cfg done c t f = (c', .yields m []) := by
  obtain ⟨dataType, code, d, ha⟩ := isMarketData_iff.1 hf
  obtain ⟨r, m, hr, -⟩ := streamFrame_accepts ha done t c
  exact ⟨_, m, hr⟩

/-- Other frames leave the generator waiting. -/
theorem streamFrame_other (done : TaskId → Bool) (t : TaskId) {c : Conn (upbit env cfg)}
    {f : Frame} (h : Open c) (hf : isMarketData env cfg f = false) :
    ∃ c' w, Connector.streamFrame cfg done c t f = (c', .suspend (.recv w)) ∧ Open c' := by
  obtain ⟨hs, w, hw⟩ := h
  obtain ⟨r, hr⟩ := streamFrame_drops (drops_other hf) done t hs hw
  exact ⟨_, w, hr, hs, w, hw⟩

/-! ### The segments of the service -/

/-- A segment of `start()` while the connection is opened. -/
theorem advance_opening {outcome : TaskId → Option Outcome}
    {v : IngestionService (connector env cfg) (Kafka.publisher K)} {t : TaskId}
    {pc : ConnectPc (upbit env cfg)} {w : Resume (connector env cfg)}
    {r : IngestionService (connector env cfg) (Kafka.publisher K) ×
      Act (connector env cfg) (Kafka.publisher K)}
    (h : Opening pc v.connector) (hw : IsCalm (.resume t w))
    (hr : advance outcome v t (.connecting .useCase pc) w = some r) :
    w = .wake .done ∧
      ((∃ c pc', Opening pc' c ∧
          r = ({ v with connector := c }, .suspend (.connecting .useCase pc'))) ∨
        ∃ c, Open c ∧ r = startConnected { v with connector := c } t .useCase) := by
  match w, hw with
  | .timeout, _ => cases hr
  | .wake (.input f), _ => cases h <;> cases hr
  | .wake .done, _ =>
    refine ⟨rfl, ?_⟩
    obtain ⟨⟨c, a⟩, hx, ho⟩ := resumeConnect_opens (isDone outcome) t h
    simp only [advance, Wake.toConnector, hx, Option.map_some] at hr
    cases a with
    | suspend pc' => cases hr; exact .inl ⟨c, pc', ho, rfl⟩
    | finish o =>
      obtain ⟨rfl, hopen⟩ := ho
      cases hr
      exact .inr ⟨c, hopen, rfl⟩

/-- The places of the consumption loop in these runs. -/
def Waits (pc : Pc (connector env cfg) (Kafka.publisher K)) : Prop :=
  pc = .ready ∨ ∃ w, pc = .receiving (.recv w)

/-- A segment of the consumption loop: it waits for the next frame, or it ends at market data. -/
theorem advance_waits {outcome : TaskId → Option Outcome}
    {v : IngestionService (connector env cfg) (Kafka.publisher K)} {t : TaskId}
    {pc : Pc (connector env cfg) (Kafka.publisher K)} {w : Resume (connector env cfg)}
    {r : IngestionService (connector env cfg) (Kafka.publisher K) ×
      Act (connector env cfg) (Kafka.publisher K)}
    (hp : Waits pc) (ho : Open v.connector) (hv : v.running = true) (hw : IsCalm (.resume t w))
    (hr : advance outcome v t pc w = some r) :
    (∃ c w', Open c ∧ r = ({ v with connector := c }, .suspend (.receiving (.recv w'))) ∧
        ∀ f, frame? (.resume t w) = some f → isMarketData env cfg f = false) ∨
      ∃ c f e, r = ({ v with connector := c }, .finish (.raised e)) ∧
        frame? (.resume t w) = some f ∧ isMarketData env cfg f = true := by
  rcases hp with rfl | ⟨x, rfl⟩
  · match w, hw with
    | .timeout, _ => cases hr
    | .wake (.input f), _ => cases hr
    | .wake .done, _ =>
      obtain ⟨x, hx⟩ := streamLoop_open (isDone outcome) t ho
      simp only [advance, nextMessage, firstSegment, hx, Option.some.injEq] at hr
      subst hr
      exact .inl ⟨v.connector, x, ho, rfl, nofun⟩
  · match w, hw with
    | .timeout, _ => cases hr
    | .wake .done, _ => cases hr
    | .wake (.input f), _ =>
      cases hf : isMarketData env cfg f with
      | true =>
        obtain ⟨c, m, hc⟩ := streamFrame_marketData (isDone outcome) t v.connector hf
        simp only [advance, Wake.toConnector, Connector.advance, hc, Option.map_some, laterStream,
          consume, turn, if_pos hv, isSubscribedMarket, Option.some.injEq] at hr
        subst hr
        exact .inr ⟨c, f, _, rfl, rfl, hf⟩
      | false =>
        obtain ⟨c, x, hc, ho'⟩ := streamFrame_other (isDone outcome) t ho hf
        simp only [advance, Wake.toConnector, Connector.advance, hc, Option.map_some, laterStream,
          Option.some.injEq] at hr
        subst hr
        refine .inl ⟨c, x, ho', rfl, fun g hg => ?_⟩
        cases hg
        exact hf

/-! ### The phases of a run -/

/-- The use case connects. -/
structure Starting (s : Sys (connector env cfg) (Kafka.publisher K))
    (pc : ConnectPc (upbit env cfg)) : Prop where
  clients : s.clients = 1
  nextTask : s.service.nextTask = 1
  background : s.service.backgroundTask = none
  records : Kafka.Adapter.records s.service.publisher = []
  call : (s.tasks 0).call = some (.connecting .useCase pc)
  opening : Opening pc s.service.connector
  ready : (s.tasks 1).call = some .ready
  alive : s.outcome 1 = none

/-- The use case sleeps; nothing has been published. -/
structure Running (s : Sys (connector env cfg) (Kafka.publisher K)) : Prop where
  clients : s.clients = 1
  nextTask : s.service.nextTask = 2
  background : s.service.backgroundTask = some 1
  records : Kafka.Adapter.records s.service.publisher = []
  call : (s.tasks 0).call = some .sleeping

/-- The consumption loop waits for a frame. -/
structure Live (s : Sys (connector env cfg) (Kafka.publisher K)) : Prop extends Running s where
  running : s.service.running = true
  isOpen : Open s.service.connector
  waits : ∃ pc, (s.tasks 1).call = some pc ∧ Waits pc
  alive : s.outcome 1 = none

/-- The consumption loop has ended. -/
structure Dead (s : Sys (connector env cfg) (Kafka.publisher K)) : Prop extends Running s where
  ended : (s.outcome 1).isSome = true

/-- Where a run without failures is, after the frames `fs`. -/
inductive Phase (s : Sys (connector env cfg) (Kafka.publisher K)) (fs : List Frame) : Prop
  | idle : s = wired env cfg K → fs = [] → Phase s fs
  | starting {pc} : Starting s pc → fs = [] → Phase s fs
  | live : Live s → (∀ f ∈ fs, isMarketData env cfg f = false) → Phase s fs
  | dead : Dead s → (∃ f ∈ fs, isMarketData env cfg f = true) → Phase s fs

/-- Where a run delivers. -/
theorem Phase.delivers {s : Sys (connector env cfg) (Kafka.publisher K)} {fs : List Frame}
    (h : Phase s fs) : Delivers s fs ↔ ∀ f ∈ fs, isMarketData env cfg f = false := by
  cases h with
  | idle hs hf =>
    subst hs hf
    exact iff_of_true ⟨rfl, nofun⟩ nofun
  | starting hs hf =>
    subst hf
    exact iff_of_true ⟨by rw [hs.records]; rfl, by rw [hs.background]; nofun⟩ nofun
  | live hs hf =>
    refine iff_of_true ⟨by rw [hs.records, due_other env cfg hf]; rfl, fun b hb => ?_⟩ hf
    rw [hs.background] at hb
    cases hb
    exact hs.alive
  | dead hs hf =>
    obtain ⟨f, hf, hm⟩ := hf
    refine iff_of_false (fun h => ?_) fun h => ?_
    · have he := hs.ended
      rw [h.alive 1 hs.background] at he
      cases he
    · rw [h f hf] at hm
      cases hm

/-- The use case is called. -/
theorem phase_idle {s' : Sys (connector env cfg) (Kafka.publisher K)}
    {l : Label (connector env cfg)} (hl : IsCalm l)
    (h : step (wired env cfg K) l = some s') : frame? l = none ∧ Starting s' .dialing := by
  cases step_move h with
  | @call t op ht ho hc =>
    cases Nat.lt_one_iff.1 ht
    cases hl
    exact ⟨rfl, rfl, rfl, rfl, rfl, rfl, .dialing rfl rfl, rfl, rfl⟩
  | @resume t pc w r ht ho hc ha hr =>
    cases Nat.lt_one_iff.1 ht
    cases hc
  | cancel => exact hl.elim
  | exit => exact hl.elim

/-- The connection is being opened. -/
theorem Starting.step {s s' : Sys (connector env cfg) (Kafka.publisher K)}
    {pc : ConnectPc (upbit env cfg)} {l : Label (connector env cfg)} (hs : Starting s pc)
    (hl : IsCalm l) (h : Service.step s l = some s') :
    frame? l = none ∧ ((∃ pc', Starting s' pc') ∨ Live s') := by
  cases step_move h with
  | @call t op ht ho hc =>
    rw [hs.clients] at ht
    cases Nat.lt_one_iff.1 ht
    rw [hs.call] at hc
    cases hc
  | @resume t pc' w r ht ho hc ha hr =>
    rw [hs.nextTask] at ht
    cases Nat.lt_one_iff.1 ht
    rw [hs.call] at hc
    cases hc
    have hset := s.settle_settled 0 (k := { s.tasks 0 with cancelling := false }) r ho
    have hother := hset.others 1 (by decide)
    obtain ⟨rfl, ⟨c, pc', ho, rfl⟩ | ⟨c, ho, rfl⟩⟩ := advance_opening hs.opening hl hr
    · refine ⟨rfl, .inl ⟨pc', ?_⟩⟩
      exact {
        clients := hset.clients.trans hs.clients
        nextTask := by rw [hset.service]; exact hs.nextTask
        background := by rw [hset.service]; exact hs.background
        records := by rw [hset.service]; exact hs.records
        call := hset.call
        opening := by rw [hset.service]; exact ho
        ready := hother.1.trans hs.ready
        alive := hother.2.trans hs.alive }
    · refine ⟨rfl, .inr ?_⟩
      exact {
        clients := hset.clients.trans hs.clients
        nextTask := by rw [hset.service]; exact congrArg (· + 1) hs.nextTask
        background := by rw [hset.service]; exact congrArg some hs.nextTask
        records := by rw [hset.service]; exact hs.records
        call := hset.call
        running := by rw [hset.service]; rfl
        isOpen := by rw [hset.service]; exact ho
        waits := ⟨.ready, hother.1.trans hs.ready, .inl rfl⟩
        alive := hother.2.trans hs.alive }
  | cancel => exact hl.elim
  | exit => exact hl.elim

/-- While the use case sleeps, a step is a second that passes or a step of the loop. -/
theorem Running.cases {s s' : Sys (connector env cfg) (Kafka.publisher K)}
    {l : Label (connector env cfg)} (hs : Running s) (hl : IsCalm l)
    (h : Service.step s l = some s') :
    (frame? l = none ∧ Settled s s' 0 (s.service, .suspend .sleeping)) ∨
      ∃ w pc r, l = .resume 1 w ∧ s.outcome 1 = none ∧ (s.tasks 1).call = some pc ∧
        advance s.outcome s.service 1 pc w = some r ∧ Settled s s' 1 r := by
  cases step_move h with
  | @call t op ht ho hc =>
    rw [hs.clients] at ht
    cases Nat.lt_one_iff.1 ht
    rw [hs.call] at hc
    cases hc
  | @resume t pc w r ht ho hc ha hr =>
    have hset := s.settle_settled t (k := { s.tasks t with cancelling := false }) r ho
    rw [hs.nextTask] at ht
    rcases Nat.le_one_iff_eq_zero_or_eq_one.1 (Nat.le_of_lt_succ ht) with rfl | rfl
    · rw [hs.call] at hc
      cases hc
      match w, hl with
      | .wake .done, _ => cases hr
      | .wake (.input f), _ => cases hr
      | .timeout, _ => cases hr; exact .inl ⟨rfl, hset⟩
    · exact .inr ⟨w, pc, r, rfl, ho, hc, hr, hset⟩
  | cancel => exact hl.elim
  | exit => exact hl.elim

/-- What the use case finds when it wakes up is what it left. -/
theorem Running.tick {s s' : Sys (connector env cfg) (Kafka.publisher K)} (hs : Running s)
    (h : Settled s s' 0 (s.service, .suspend .sleeping)) : Running s' where
  clients := h.clients.trans hs.clients
  nextTask := by rw [h.service]; exact hs.nextTask
  background := by rw [h.service]; exact hs.background
  records := by rw [h.service]; exact hs.records
  call := h.call

/-- A segment of the loop that changes nothing but the connector. -/
theorem Running.loop {s s' : Sys (connector env cfg) (Kafka.publisher K)}
    {c : Conn (upbit env cfg)} {a : Act (connector env cfg) (Kafka.publisher K)} (hs : Running s)
    (h : Settled s s' 1 ({ s.service with connector := c }, a)) : Running s' where
  clients := h.clients.trans hs.clients
  nextTask := by rw [h.service]; exact hs.nextTask
  background := by rw [h.service]; exact hs.background
  records := by rw [h.service]; exact hs.records
  call := (h.others 0 (by decide)).1.trans hs.call

/-- **One step of a live pipeline**: the loop survives it unless it receives market data. -/
theorem Live.step {s s' : Sys (connector env cfg) (Kafka.publisher K)}
    {l : Label (connector env cfg)} (hs : Live s) (hl : IsCalm l)
    (h : Service.step s l = some s') :
    (Live s' ∧ ∀ f, frame? l = some f → isMarketData env cfg f = false) ∨
      Dead s' ∧ ∃ f, frame? l = some f ∧ isMarketData env cfg f = true := by
  rcases hs.cases hl h with ⟨hf, hset⟩ | ⟨w, pc, r, rfl, ho, hc, hr, hset⟩
  · obtain ⟨pc, hpc, hw⟩ := hs.waits
    have hother := hset.others 1 (by decide)
    refine .inl ⟨⟨hs.tick hset, ?_, ?_, ⟨pc, hother.1.trans hpc, hw⟩, hother.2.trans hs.alive⟩,
      fun f hf' => ?_⟩
    · rw [hset.service]; exact hs.running
    · rw [hset.service]; exact hs.isOpen
    · rw [hf] at hf'; cases hf'
  · obtain ⟨pc', hpc, hw⟩ := hs.waits
    rw [hpc] at hc
    cases hc
    rcases advance_waits hw hs.isOpen hs.running hl hr with ⟨c, x, hopen, rfl, hf⟩ |
      ⟨c, f, e, rfl, hf, hm⟩
    · refine .inl ⟨⟨hs.loop hset, ?_, ?_, ⟨_, hset.call, .inr ⟨x, rfl⟩⟩, hset.outcome⟩, hf⟩
      · rw [hset.service]; exact hs.running
      · rw [hset.service]; exact hopen
    · refine .inr ⟨⟨hs.loop hset, ?_⟩, f, hf, hm⟩
      rw [hset.outcome]
      dsimp only
      rw [hs.clients]
      rfl

/-- A loop that has ended receives nothing any more. -/
theorem Dead.step {s s' : Sys (connector env cfg) (Kafka.publisher K)}
    {l : Label (connector env cfg)} (hs : Dead s) (hl : IsCalm l)
    (h : Service.step s l = some s') : Dead s' ∧ frame? l = none := by
  rcases hs.cases hl h with ⟨hf, hset⟩ | ⟨w, pc, r, rfl, ho, hc, hr, hset⟩
  · refine ⟨⟨hs.tick hset, ?_⟩, hf⟩
    rw [(hset.others 1 (by decide)).2]
    exact hs.ended
  · have he := hs.ended
    rw [ho] at he
    cases he

/-- One step of a run. -/
theorem Phase.step {s s' : Sys (connector env cfg) (Kafka.publisher K)} {fs : List Frame}
    {l : Label (connector env cfg)} (hp : Phase s fs) (hl : IsCalm l)
    (h : Service.step s l = some s') : Phase s' (fs ++ (frame? l).toList) := by
  cases hp with
  | idle hs hf =>
    subst hs hf
    obtain ⟨hf, hs'⟩ := phase_idle hl h
    exact .starting hs' (by rw [hf]; rfl)
  | starting hs hf =>
    subst hf
    obtain ⟨hf, ⟨pc', hs'⟩ | hs'⟩ := hs.step hl h
    · exact .starting hs' (by rw [hf]; rfl)
    · exact .live hs' (by rw [hf]; nofun)
  | live hs hf =>
    rcases hs.step hl h with ⟨hs', hf'⟩ | ⟨hs', f, hf', hm⟩
    · refine .live hs' fun f hmem => ?_
      rcases List.mem_append.1 hmem with hmem | hmem
      · exact hf f hmem
      · exact hf' f (Option.mem_toList.1 hmem)
    · exact .dead hs' ⟨f, List.mem_append_right _ (Option.mem_toList.2 hf'), hm⟩
  | dead hs hf =>
    obtain ⟨hs', hf'⟩ := hs.step hl h
    obtain ⟨f, hmem, hm⟩ := hf
    exact .dead hs' ⟨f, List.mem_append_left _ hmem, hm⟩

/-- Where a run is. -/
theorem run_phase {ls : List (Label (connector env cfg))}
    {s s' : Sys (connector env cfg) (Kafka.publisher K)} {fs : List Frame} (hp : Phase s fs)
    (hl : ∀ l ∈ ls, IsCalm l) (h : run Service.step s ls = some s') :
    Phase s' (fs ++ received ls) :=
  run_collects (P := Phase) (fun _ _ _ _ hp hl hs => hp.step hl hs) hp (.of_mem hl) h

/-- **When the pipeline delivers.**  For every set of markets that the use case accepts, every
producer, and every run in which nothing fails: the records are those that are due and the
consumption loop goes on iff no frame received so far is market data. -/
theorem delivers_iff {markets : List String} (hne : markets ≠ [])
    (hkrw : ∀ m ∈ markets, isKrwMarket m = true) :
    ∃ cfg, exchangeConfig U markets = .ok cfg ∧
      ∀ (env : Environment) (K : Kafka.Producer) (ls : List (Label (connector env cfg)))
        (s : Sys (connector env cfg) (Kafka.publisher K)),
        (∀ l ∈ ls, IsCalm l) → run Service.step (wired env cfg K) ls = some s →
          (Delivers s (received ls) ↔ ∀ f ∈ received ls, isMarketData env cfg f = false) := by
  obtain ⟨cfg, hcfg⟩ := exchangeConfig_ok.2 ⟨hne, hkrw⟩
  refine ⟨cfg, hcfg, fun env K ls s hl h => ?_⟩
  have hp : Phase (wired env cfg K) [] := .idle rfl rfl
  exact (run_phase hp hl h).delivers

/-! ## A trade -/

/-- A trade of one bitcoin. -/
def realTrade : Dict :=
  [("type", .str "trade"), ("code", .str "KRW-BTC"), ("timestamp", .int 1700000000100),
    ("trade_timestamp", .int 1700000000000), ("trade_price", .float Binary64.one),
    ("trade_volume", .float Binary64.one), ("ask_bid", .str "BID"),
    ("prev_closing_price", .float Binary64.one), ("change", .str "EVEN"),
    ("change_price", .float Binary64.zero), ("sequential_id", .int 17000000000000000),
    ("stream_type", .str "REALTIME")]

/-- Surroundings in which every text is that trade. -/
def tradeEnvironment : Environment := fixedEnvironment fun _ => .ok (.dict realTrade)

/-- The use case subscribes to both types; the loop starts and receives the trade. -/
def tradeRun : List (Label (connector tradeEnvironment krwBtcConfig)) :=
  [.call 0 .useCase, .resume 0 (.wake .done), .resume 0 (.wake .done), .resume 0 (.wake .done),
    .resume 1 (.wake .done), .resume 0 .timeout, .resume 1 (.wake (.input (.text "trade")))]

theorem tradeRun_calm : ∀ l ∈ tradeRun, IsCalm l := by simp [tradeRun, IsCalm]

theorem run_tradeRun :
    (run step (wired tradeEnvironment krwBtcConfig Kafka.acceptingProducer) tradeRun).map (fun s =>
      (Kafka.Adapter.records s.service.publisher, s.service.backgroundTask, s.outcome 1)) =
    some ([], some 1, some (.raised (.attributeError "config"))) := rfl

/-- **The first trade ends the loop**: a record is due, none is produced, and the task has failed
for want of the attribute. -/
theorem tradeRun_not_delivers :
    exchangeConfig asciiTable ["KRW-BTC"] = .ok krwBtcConfig ∧
    due tradeEnvironment krwBtcConfig (received tradeRun) =
      [("upbit.trades.v1", "KRW-BTC".toUTF8)] ∧
    ∃ s, run step (wired tradeEnvironment krwBtcConfig Kafka.acceptingProducer) tradeRun = some s ∧
      Kafka.Adapter.records s.service.publisher = [] ∧
      s.outcome 1 = some (.raised (.attributeError "config")) ∧ ¬Delivers s (received tradeRun) := by
  refine ⟨rfl, rfl, ?_⟩
  obtain ⟨s, hs, he⟩ := Option.map_eq_some_iff.1 run_tradeRun
  simp only [Prod.mk.injEq] at he
  refine ⟨s, hs, he.1, he.2.2, fun hd => ?_⟩
  have ho := hd.alive 1 he.2.1
  rw [he.2.2] at ho
  cases ho

/-- `delivers_iff` at that run. -/
theorem delivers_iff_tradeRun : ∃ s,
    run step (wired tradeEnvironment krwBtcConfig Kafka.acceptingProducer) tradeRun = some s ∧
      (Delivers s (received tradeRun) ↔
        ∀ f ∈ received tradeRun, isMarketData tradeEnvironment krwBtcConfig f = false) := by
  obtain ⟨cfg, hcfg, h⟩ := delivers_iff (U := asciiTable) (show ["KRW-BTC"] ≠ [] by decide)
    (by decide)
  cases (show Except.ok krwBtcConfig = .ok cfg from hcfg)
  have hr : run step (wired tradeEnvironment krwBtcConfig Kafka.acceptingProducer) tradeRun =
      some ((run step (wired tradeEnvironment krwBtcConfig Kafka.acceptingProducer) tradeRun).get
        rfl) := (Option.some_get _).symm
  exact ⟨_, hr, h tradeEnvironment Kafka.acceptingProducer tradeRun _ tradeRun_calm hr⟩

end FlinkPractices.Pipeline
