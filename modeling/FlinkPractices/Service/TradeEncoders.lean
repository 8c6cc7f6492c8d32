import FlinkPractices.Proto.Recover
import FlinkPractices.Service.Encoders

/-!
# The two trade encoders

An Upbit trade payload (`IsTrade`) becomes a `Trade` through the pipeline (`pipelineTrade`) or
directly (`jsonToTradeProto`).  `SameTrade` compares two trades up to the time of reception and the
letter case of the code.

The two paths read three things differently.  The service looks `ask_bid` and `change` up as they
are, the mapper upper-cases them first (`Capitals`).  The connector takes a `trade_timestamp` that
is `None` for a missing time, and a time of 0 as well, and reads the clock instead (`Timely`).
Principal results: `tradeAgree_iff`; `sampleTrade_disagree`, a payload on which all three differ.

## Proof

The result is about payloads that both paths accept, so it is about fields, one at a time:

* `doubleField_eq`, `int64Field_eq` — a number that both paths take comes out the same
* `enum_eq_iff` — an enumeration field agrees iff a known name is in capitals, by the names of the
  enumeration being all in capitals and all different
* `time_eq_iff` — the times agree iff the connector finds one, or the clock happens to read it
* `convert_trade` — the message that the connector makes of a trade, and its time

The division of the milliseconds by 1000 is taken as exact on both paths.
-/

set_option autoImplicit false

namespace FlinkPractices.Service

open Lib Proto Upbit

variable {U : UpperTable} (env : Environment) (cfg : ExchangeConfig U) (r : Registry)

/-- Milliseconds, `None` or absent. -/
def IntOrNull (v : Json) : Prop := v = .null ∨ ∃ n, v = .int n

/-- An Upbit trade payload.  Its numbers may be anything. -/
structure IsTrade (d : Dict) (code : String) : Prop where
  type_eq : pyGet d "type" = .str "trade"
  code_eq : pyGet d "code" = .str code
  code_ne : code ≠ ""
  tradeTimestamp : IntOrNull (pyGet d "trade_timestamp")
  timestamp : IntOrNull (pyGet d "timestamp")
  askBid : StringOrNull (pyGet d "ask_bid")
  change : StringOrNull (pyGet d "change")

/-- The pipeline path, with the division of the timestamp taken as exact. -/
def pipelineTrade (d : Dict) : Except PyExn (List Trade) := do
  (← (convertToMarketDataMessages env cfg .exact r d).2).mapM (convertToTradeProto U)

/-- The same trade, up to the time of reception and the letter case of the code. -/
def SameTrade (U : UpperTable) (a b : Trade) : Prop :=
  upper U a.code = upper U b.code ∧
    { a with code := b.code, receivedTimestamp := b.receivedTimestamp } = b

/-- A value that is one of `names` when upper-cased is in capitals. -/
def Capitals (U : UpperTable) (names : List String) (v : Json) : Prop :=
  ∀ s, v = .str s → upper U s ∈ names → upper U s = s

/-- What `get("trade_timestamp", get("timestamp"))` finds is neither `None` nor 0; or the clock
happens to read the time that the mapper finds. -/
def Timely (d : Dict) (clock : DateTime) : Prop :=
  (eventTsMs "trade" d).truthy = true ∨
    ∃ ms, (pyGet d "trade_timestamp" = .int ms ∨
      (pyGet d "trade_timestamp" = .null ∧ pyGet d "timestamp" = .int ms)) ∧
      clock.micros = ms * 1000

/-! ## Fields -/

variable {syn : NumberSyntax} {now : DateTime} {d : Dict} {code : String}

/-- A number that both paths take comes out the same. -/
theorem doubleField_eq {key : String} {x y : Binary64}
    (hx : doubleField (d.getD key zeroFloat) = .ok x) (hy : floatOrZero syn (pyGet d key) = .ok y) :
    x = y := by
  unfold pyGet Dict.getD at hy
  unfold Dict.getD at hx
  cases hk : d.get key with
  | none =>
    rw [hk] at hx hy
    exact Except.ok.inj (hx.symm.trans hy)
  | some v =>
    rw [hk] at hx hy
    cases v with
    | str s => cases hx
    | _ => exact Except.ok.inj (hx.symm.trans hy)

/-- So does an integer. -/
theorem int64Field_eq {key : String} {m n n' : Int}
    (hm : int64Field (d.getD key (.int 0)) = .ok m) (hn : intOrZero syn (pyGet d key) = .ok n)
    (hn' : int64 n = .ok n') : m = n' := by
  unfold pyGet Dict.getD at hn
  unfold Dict.getD at hm
  cases hk : d.get key with
  | none =>
    rw [hk] at hm hn
    cases hn
    exact Except.ok.inj (hm.symm.trans hn')
  | some v =>
    rw [hk] at hm hn
    cases v with
    | null | int _ =>
      cases hn
      exact Except.ok.inj (hm.symm.trans hn')
    | bool b =>
      cases hn
      have hb : int64 (b.toNat : Int) = .ok (b.toNat : Int) := by cases b <;> rfl
      rw [hb] at hn'
      exact Except.ok.inj (hm.symm.trans hn')
    | _ => cases hm

/-- **An enumeration field agrees iff** a known name is in capitals. -/
theorem enum_eq_iff {α : Type} {unspecified : α} {table : String → α} {name : α → Option String}
    {names : List String} {key : String} {x y : α} (h : StringOrNull (pyGet d key))
    (hinj : Function.Injective name) (hnone : name unspecified = none)
    (htable : ∀ s, name (table s) = if s ∈ names then some s else none)
    (hnames : "" ∉ names) (hupper : ∀ s ∈ names, upper U s = s)
    (hx : lookup unspecified table (d.getD key (.str "")) = .ok x)
    (hy : enumOf U unspecified table (pyGet d key) = .ok y) :
    x = y ↔ Capitals U names (pyGet d key) := by
  have hny : name y = knownName U names (pyGet d key) := by
    obtain ⟨z, hz, hname⟩ := (enumOf_fails (U := U) h hnone hnames htable).returns not_false
    rw [hy] at hz
    cases hz
    exact hname
  rw [← hinj.eq_iff, hny]
  rcases h with hv | ⟨s, hv⟩
  · rw [hv] at hy ⊢
    have hx' : name x = none := by
      unfold pyGet Dict.getD at hv
      unfold Dict.getD at hx
      cases hk : d.get key with
      | none =>
        rw [hk] at hx
        cases hx
        exact (htable "").trans (if_neg hnames)
      | some w =>
        rw [hk] at hx hv
        obtain rfl : w = .null := hv
        cases hx
        exact hnone
    apply iff_of_true hx'
    intro s hs
    cases hs
  · rw [getD_of_get hv (by intro hn; cases hn)] at hx
    cases hx
    rw [hv, htable, knownName]
    constructor
    · intro he t ht hmem
      cases ht
      by_cases hs : s ∈ names
      · exact hupper s hs
      · rw [if_pos hmem, if_neg hs] at he
        cases he
    · intro hc
      by_cases hmem : upper U s ∈ names
      · have hs := hc s rfl hmem
        rw [hs] at hmem ⊢
      · have hs : s ∉ names := fun hs => hmem ((hupper s hs).symm ▸ hs)
        rw [if_neg hmem, if_neg hs]

/-! ## The time -/

variable {env cfg r}

/-- The message that the connector makes of a trade, and its time. -/
theorem convert_trade (h : IsTrade d code) {ms : List MarketDataMessage}
    (hm : (convertToMarketDataMessages env cfg .exact r d).2 = .ok ms) :
    ∃ received event, ms = [⟨cfg.exchangeName, .trade, code, received, event, .realtime, d⟩] ∧
      (((eventTsMs "trade" d).truthy = true ∧ fromTimestampMs .exact (eventTsMs "trade" d) = some event) ∨
        ((eventTsMs "trade" d).truthy = false ∧ event = env.now r.reads)) := by
  unfold convertToMarketDataMessages at hm
  rw [show d.getD "type" .null = .str "trade" from h.type_eq,
    show d.getD "code" .null = .str code from h.code_eq] at hm
  simp only [toMessage] at hm
  split at hm
  · rename_i htruthy
    split at hm
    · rename_i event hevent
      obtain ⟨-, rfl⟩ := newMessage_ok.1 hm
      exact ⟨_, event, rfl, .inl ⟨htruthy, hevent⟩⟩
    · cases hm
  · rename_i htruthy
    obtain ⟨-, rfl⟩ := newMessage_ok.1 hm
    exact ⟨_, _, rfl, .inr ⟨Bool.eq_false_iff.2 htruthy, rfl⟩⟩

/-- The time the mapper takes. -/
theorem firstTimestamp_ok (h : IsTrade d code) {text : String} {v : Json}
    (hv : firstTimestamp d "trade_timestamp" "timestamp" text = .ok v) :
    ∃ ms, v = .int ms ∧ (pyGet d "trade_timestamp" = .int ms ∨
      (pyGet d "trade_timestamp" = .null ∧ pyGet d "timestamp" = .int ms)) := by
  rw [firstTimestamp] at hv
  rcases h.tradeTimestamp with h₁ | ⟨ms, h₁⟩
  · rcases h.timestamp with h₂ | ⟨ms, h₂⟩
    · rw [h₁, h₂] at hv; cases hv
    · rw [h₁, h₂] at hv; cases hv
      exact ⟨ms, rfl, .inr ⟨h₁, h₂⟩⟩
  · rw [h₁] at hv; cases hv
    exact ⟨ms, rfl, .inl h₁⟩

/-- A time that the connector takes is the one the mapper takes. -/
theorem eventTsMs_eq {ms : Int} (ht : (eventTsMs "trade" d).truthy = true)
    (hms : pyGet d "trade_timestamp" = .int ms ∨
      (pyGet d "trade_timestamp" = .null ∧ pyGet d "timestamp" = .int ms)) :
    eventTsMs "trade" d = .int ms := by
  have he : eventTsMs "trade" d = d.getD "trade_timestamp" (pyGet d "timestamp") := rfl
  rw [he] at ht ⊢
  unfold pyGet Dict.getD at *
  cases hk : d.get "trade_timestamp" with
  | none =>
    rw [hk] at hms
    rcases hms with hms | ⟨-, hms⟩
    · cases hms
    · exact hms
  | some v =>
    rw [hk] at ht hms
    rcases hms with hms | ⟨hms, -⟩
    · exact hms
    · obtain rfl : v = .null := hms
      cases ht

theorem fromDatetime_eq_ofMillis {t : DateTime} {ms : Int} :
    Timestamp.fromDatetime t = Timestamp.ofMillis ms ↔ t.micros = ms * 1000 := by
  unfold Timestamp.fromDatetime Timestamp.ofMillis
  rw [Timestamp.mk.injEq]
  constructor
  · rintro ⟨h₁, h₂⟩; omega
  · intro h; rw [h]; constructor <;> omega

/-- **The times agree iff** the connector finds one, or the clock happens to read it. -/
theorem time_eq_iff {ms : Int} {event : DateTime}
    (hevent : ((eventTsMs "trade" d).truthy = true ∧
        fromTimestampMs .exact (eventTsMs "trade" d) = some event) ∨
      ((eventTsMs "trade" d).truthy = false ∧ event = env.now r.reads))
    (hms : pyGet d "trade_timestamp" = .int ms ∨
      (pyGet d "trade_timestamp" = .null ∧ pyGet d "timestamp" = .int ms)) :
    Timestamp.fromDatetime event = Timestamp.ofMillis ms ↔ Timely d (env.now r.reads) := by
  rcases hevent with ⟨ht, he⟩ | ⟨ht, rfl⟩
  · rw [eventTsMs_eq ht hms] at he
    exact iff_of_true (Timestamp.fromDatetime_fromMillis he) (.inl ht)
  · rw [fromDatetime_eq_ofMillis]
    constructor
    · intro hclock
      exact .inr ⟨ms, hms, hclock⟩
    · rintro (ht' | ⟨ms', hms', hclock⟩)
      · rw [ht] at ht'; cases ht'
      · obtain rfl : ms' = ms := by
          rcases hms with h₁ | ⟨h₁, h₂⟩ <;> rcases hms' with h₁' | ⟨h₁', h₂'⟩
          · exact Json.int.inj (h₁'.symm.trans h₁)
          · rw [h₁] at h₁'; cases h₁'
          · rw [h₁] at h₁'; cases h₁'
          · exact Json.int.inj (h₂'.symm.trans h₂)
        exact hclock

/-! ## Exactly when they agree -/

theorem capital (U : UpperTable) {s : String} (h : ∀ c ∈ s.toList, c.toNat < 128)
    (hs : String.ofList (s.toList.map Char.toUpper) = s) : upper U s = s :=
  (upper_ascii U h).trans hs

theorem askBid_capital : ∀ s ∈ ["ASK", "BID"], upper U s = s := by
  intro s hs
  simp only [List.mem_cons, List.not_mem_nil, or_false] at hs
  rcases hs with rfl | rfl <;> exact capital U (by simp) (by decide)

theorem change_capital : ∀ s ∈ ["RISE", "EVEN", "FALL"], upper U s = s := by
  intro s hs
  simp only [List.mem_cons, List.not_mem_nil, or_false] at hs
  rcases hs with rfl | rfl | rfl <;> exact capital U (by simp) (by decide)

theorem askBidName_injective : Function.Injective AskBid.name := by
  intro a b h
  cases a <;> cases b <;> simp_all [AskBid.name]

theorem changeTypeName_injective : Function.Injective ChangeType.name := by
  intro a b h
  cases a <;> cases b <;> simp_all [ChangeType.name]

/-- **The two trade encoders agree iff** the known names are in capitals and the connector finds
the time. -/
theorem tradeAgree_iff (h : IsTrade d code) {a b : Trade}
    (ha : pipelineTrade env cfg r d = .ok [a])
    (hb : jsonToTradeProto U syn now (.dict d) "upbit" = .ok b) :
    SameTrade U a b ↔ Capitals U ["ASK", "BID"] (pyGet d "ask_bid") ∧
      Capitals U ["RISE", "EVEN", "FALL"] (pyGet d "change") ∧ Timely d (env.now r.reads) := by
  -- the pipeline's fields
  obtain ⟨ms, hm, ha⟩ := Except.bind_ok.1 ha
  obtain ⟨received, event, rfl, hevent⟩ := convert_trade h hm
  simp only [Except.mapM_ok, List.map_cons, List.map_nil, List.cons.injEq, and_true,
    convertToTradeProto, Except.bind_ok, Except.pure_ok] at ha
  obtain ⟨askBid, hab, change, hch, price, hp, volume, hv, prev, hpc, diff, hcp, sid, hsid, rfl⟩ :=
    ha
  -- the mapper's fields
  simp only [jsonToTradeProto, toExchangeEnum_upbit, Except.bind_ok, Except.pure_ok] at hb
  obtain ⟨codeValue, hcode, timeValue, htime, price', hp', volume', hv', askBid', hab', prev', hpc',
    change', hch', diff', hcp', ms, hms, stamp, hstamp, sid', hsid', code', hcode', sid'', hsid'',
    rfl⟩ := hb
  obtain ⟨ms', rfl, hfirst⟩ := firstTimestamp_ok h htime
  cases hms
  obtain rfl := doubleField_eq hp hp'
  obtain rfl := doubleField_eq hv hv'
  obtain rfl := doubleField_eq hpc hpc'
  obtain rfl := doubleField_eq hcp hcp'
  obtain rfl := int64Field_eq hsid hsid' hsid''
  have hcodes : code' = code := by
    rw [requiredCode_given h.code_eq h.code_ne] at hcode
    cases hcode
    exact (Except.ok.inj hcode').symm
  have hofMillis : stamp = Timestamp.ofMillis ms := by
    unfold timestampFromMillis int64 at hstamp
    split at hstamp
    · exact (Except.ok.inj hstamp).symm
    · cases hstamp
  rw [← enum_eq_iff h.askBid askBidName_injective rfl askBidMap_name (by decide) askBid_capital hab
      hab', ← enum_eq_iff h.change changeTypeName_injective rfl changeTypeMap_name (by decide)
      change_capital hch hch', ← time_eq_iff hevent hfirst, ← hofMillis, hcodes]
  simp only [SameTrade, MarketDataMessage.code, upper_upper, protoStreamType, StreamType.value,
    Trade.mk.injEq, true_and, and_true, if_true]

/-! ## A payload on which they differ -/

/-- A trade in small letters, with its time under `timestamp` and `None` under `trade_timestamp`. -/
def sampleTrade : Dict :=
  [("type", .str "trade"), ("code", .str "KRW-BTC"), ("trade_timestamp", .null),
    ("timestamp", .int 1700000000000), ("ask_bid", .str "ask"), ("change", .str "rise"),
    ("trade_price", .float Binary64.one), ("sequential_id", .int 1)]

theorem sampleTrade_isTrade : IsTrade sampleTrade "KRW-BTC" where
  type_eq := rfl
  code_eq := rfl
  code_ne := by decide
  tradeTimestamp := .inl rfl
  timestamp := .inr ⟨_, rfl⟩
  askBid := .inr ⟨_, rfl⟩
  change := .inr ⟨_, rfl⟩

/-- What both paths make of it, but for three fields. -/
def sampleProto (askBid : AskBid) (change : ChangeType) (tradeTimestamp : Timestamp) : Trade where
  exchange := .upbit
  code := "KRW-BTC"
  tradePrice := Binary64.one
  tradeVolume := Binary64.zero
  askBid := askBid
  prevClosingPrice := Binary64.zero
  change := change
  changePrice := Binary64.zero
  tradeTimestamp := tradeTimestamp
  sequentialId := 1
  streamType := .realtime
  receivedTimestamp := ⟨0, 0⟩

theorem sampleTrade_pipeline :
    pipelineTrade plainEnvironment krwBtcConfig Registry.init sampleTrade =
      .ok [sampleProto .unspecified .unspecified ⟨0, 0⟩] := rfl

theorem sampleTrade_direct :
    jsonToTradeProto asciiTable plainSyntax DateTime.epoch (.dict sampleTrade) "upbit" =
      .ok (sampleProto .ask .rise ⟨1700000000, 0⟩) := rfl

/-- **One trade becomes two**: the pipeline has neither its side, nor its change, nor its time. -/
theorem sampleTrade_disagree :
    IsTrade sampleTrade "KRW-BTC" ∧
    ∃ a b, pipelineTrade plainEnvironment krwBtcConfig Registry.init sampleTrade = .ok [a] ∧
      jsonToTradeProto asciiTable plainSyntax DateTime.epoch (.dict sampleTrade) "upbit" = .ok b ∧
      a.askBid ≠ b.askBid ∧ a.change ≠ b.change ∧ a.tradeTimestamp ≠ b.tradeTimestamp ∧
      ¬SameTrade asciiTable a b := by
  refine ⟨sampleTrade_isTrade, _, _, sampleTrade_pipeline, sampleTrade_direct, by decide, by decide,
    by decide, ?_⟩
  rintro ⟨_, h⟩
  exact absurd (congrArg Trade.askBid h) (by decide)

/-- `tradeAgree_iff` at that payload. -/
theorem tradeAgree_iff_sampleTrade :
    SameTrade asciiTable (sampleProto .unspecified .unspecified ⟨0, 0⟩)
        (sampleProto .ask .rise ⟨1700000000, 0⟩) ↔
      Capitals asciiTable ["ASK", "BID"] (pyGet sampleTrade "ask_bid") ∧
        Capitals asciiTable ["RISE", "EVEN", "FALL"] (pyGet sampleTrade "change") ∧
        Timely sampleTrade (plainEnvironment.now Registry.init.reads) :=
  tradeAgree_iff sampleTrade_isTrade sampleTrade_pipeline sampleTrade_direct

end FlinkPractices.Service
