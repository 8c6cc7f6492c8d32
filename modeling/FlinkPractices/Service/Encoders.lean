import FlinkPractices.Lib.Except
import FlinkPractices.Service.Convert
import FlinkPractices.Upbit.Connector

/-!
# The two order book encoders

An Upbit order book payload (`IsOrderbook`) becomes an `OrderBookUpdate` in two ways: through the
pipeline (`pipelineOrderbook`: the connector's message, then the service's conversion), and
directly (`jsonToOrderbookProto`).  `Agree` says that both succeed, with the same message up to
the time of reception.  The division of the milliseconds by 1000 is taken as exact on both paths.

The payload lists its levels as `orderbook_units`; the service looks for lists `asks` and `bids` of
objects with `price` and `size` instead.  Principal results: `agree_iff` — the two agree iff the
payload can be copied, every number of it has a double, its date is before the year 10000, and it
carries its levels a second time in the form the service looks for (`CarriesLevels`);
`realPayload_disagree`, an order book with one unit that comes out empty.

## Proof

* `jsonToOrderbookProto_ok` — when the direct path succeeds, and with which levels: the loop over
  the units collects exactly their pairs (`collectLevels_ok`, by induction on the units)
* `pipelineOrderbook_ok` — the same of the pipeline path, by the lemmas about the service's loops
  over lists of levels (`orderBookLevels_ok`)
* `update` — the message that both are about; two of them are equal iff their levels are
* `isSome_of_unitPairs` — pairs of an actual message are all there, so levels that are equal are
  those of the units
-/

set_option autoImplicit false

namespace FlinkPractices.Service

open Lib Proto Upbit

variable {U : UpperTable} (env : Environment) (cfg : ExchangeConfig U) (r : Registry)
  (syn : NumberSyntax) (now : DateTime)

/-! ## Payloads -/

/-- A JSON number. -/
def Numeric (v : Json) : Prop := (∃ n, v = .int n) ∨ ∃ x, v = .float x

/-- The members of a unit. -/
def unitKeys : List String := ["ask_price", "ask_size", "bid_price", "bid_size"]

/-- An Upbit order book payload. -/
structure IsOrderbook (U : UpperTable) (d : Dict) (code : String) (ts : Int) (units : List Dict) :
    Prop where
  type_eq : pyGet d "type" = .str "orderbook"
  code_eq : pyGet d "code" = .str code
  code_ne : code ≠ ""
  code_upper : upper U code = code
  timestamp_eq : pyGet d "timestamp" = .int ts
  timestamp_pos : 0 < ts
  totalAskSize : Numeric (pyGet d "total_ask_size")
  totalBidSize : Numeric (pyGet d "total_bid_size")
  units_eq : d.getD "orderbook_units" (.list []) = .list (units.map .dict)
  numbers : ∀ u ∈ units, ∀ k ∈ unitKeys, Numeric (pyGet u k)

/-- Every number of the payload has a double. -/
structure Representable (d : Dict) (units : List Dict) : Prop where
  totalAskSize : (number (pyGet d "total_ask_size")).isSome
  totalBidSize : (number (pyGet d "total_bid_size")).isSome
  units : ∀ u ∈ units, ∀ k ∈ unitKeys, (number (pyGet u k)).isSome

/-- A number of a level of the service's form; `None` and absence count as zero. -/
def levelNumber (level : Dict) (key : String) : Option Binary64 :=
  match level.getD key zeroFloat with
  | .null => some Binary64.zero
  | v => number v

/-- The prices and sizes of the units. -/
def unitPairs (units : List Dict) (price size : String) :
    List (Option Binary64 × Option Binary64) :=
  units.map fun u => (number (pyGet u price), number (pyGet u size))

/-- The prices and sizes of levels of the service's form. -/
def levelPairs (levels : List Dict) : List (Option Binary64 × Option Binary64) :=
  levels.map fun l => (levelNumber l "price", levelNumber l "size")

/-- `v` lists levels with the prices and sizes of the units, in order. -/
def Repeats (v : Json) (units : List Dict) (price size : String) : Prop :=
  ∃ levels : List Dict, v.iter = some (levels.map .dict) ∧
    levelPairs levels = unitPairs units price size

/-- The payload has the levels of its units once more, under `asks` and `bids`. -/
structure CarriesLevels (d : Dict) (units : List Dict) : Prop where
  asks : Repeats (d.getD "asks" (.list [])) units "ask_price" "ask_size"
  bids : Repeats (d.getD "bids" (.list [])) units "bid_price" "bid_size"

/-- The pipeline path, with the division of the timestamp taken as exact. -/
def pipelineOrderbook (d : Dict) : Except PyExn (List OrderBookUpdate) := do
  (← (convertToMarketDataMessages env cfg .exact r d).2).mapM (convertToOrderbookProto U)

/-- Both paths succeed with one message, the same up to the time of reception. -/
def Agree (d : Dict) : Prop :=
  ∃ a b, pipelineOrderbook env cfg r d = .ok [a] ∧
    jsonToOrderbookProto U syn now (.dict d) "upbit" = .ok b ∧
    { a with receivedTimestamp := b.receivedTimestamp } = b

variable {env cfg r syn now}

/-! ## The direct path -/

theorem Numeric.ne_null {v : Json} (h : Numeric v) : v ≠ .null := by
  rcases h with ⟨n, rfl⟩ | ⟨x, rfl⟩ <;> nofun

theorem Numeric.floatOrZero {v : Json} (h : Numeric v) : floatOrZero syn v = toDouble v := by
  rcases h with ⟨n, rfl⟩ | ⟨x, rfl⟩ <;> rfl

theorem levelOf_ok {p s : Json} (hp : Numeric p) (hs : Numeric s) {ls : List OrderBookLevel} :
    levelOf syn p s = .ok ls ↔
      ∃ x y, number p = some x ∧ number s = some y ∧ ls = [⟨x, y⟩] := by
  have hl : levelOf syn p s = (do
      let price ← toDouble p
      let size ← toDouble s
      return [⟨price, size⟩]) := by
    rcases hp with ⟨n, rfl⟩ | ⟨x, rfl⟩ <;> rcases hs with ⟨m, rfl⟩ | ⟨y, rfl⟩ <;> rfl
  simp only [hl, Except.bind_ok, Except.pure_ok, toDouble_ok]
  constructor
  · rintro ⟨x, hx, y, hy, rfl⟩; exact ⟨x, y, hx, hy, rfl⟩
  · rintro ⟨x, y, hx, hy, rfl⟩; exact ⟨x, hx, y, hy, rfl⟩

/-- The prices and sizes of a message's levels. -/
def protoPairs (ls : List OrderBookLevel) : List (Option Binary64 × Option Binary64) :=
  ls.map fun l => (some l.price, some l.size)

/-- Pairs that are all there are those of a list of levels. -/
theorem exists_protoPairs (units : List Dict) (p s : String)
    (h : ∀ u ∈ units, (number (pyGet u p)).isSome ∧ (number (pyGet u s)).isSome) :
    ∃ ls, protoPairs ls = unitPairs units p s := by
  induction units with
  | nil => exact ⟨[], rfl⟩
  | cons u us ih =>
    obtain ⟨ls, hls⟩ := ih fun v hv => h v (List.mem_cons_of_mem u hv)
    obtain ⟨hp, hs⟩ := h u List.mem_cons_self
    obtain ⟨x, hx⟩ := Option.isSome_iff_exists.1 hp
    obtain ⟨y, hy⟩ := Option.isSome_iff_exists.1 hs
    refine ⟨⟨x, y⟩ :: ls, ?_⟩
    rw [unitPairs, List.map_cons, hx, hy, protoPairs, List.map_cons]
    exact congrArg _ hls

theorem collectLevels_cons {u : Json} {us : List Json} {asks bids : List OrderBookLevel} :
    collectLevels syn (u :: us) = .ok (asks, bids) ↔ ∃ a b as bs, unitLevels syn u = .ok (a, b) ∧
      collectLevels syn us = .ok (as, bs) ∧ asks = a ++ as ∧ bids = b ++ bs := by
  rw [collectLevels, Except.bind_ok]
  constructor
  · rintro ⟨⟨a, b⟩, hu, h⟩
    obtain ⟨⟨as, bs⟩, hus, h⟩ := Except.bind_ok.1 h
    obtain ⟨rfl, rfl⟩ := Prod.mk.inj (Except.pure_ok.1 h)
    exact ⟨a, b, as, bs, hu, hus, rfl, rfl⟩
  · rintro ⟨a, b, as, bs, hu, hus, rfl, rfl⟩
    exact ⟨(a, b), hu, Except.bind_ok.2 ⟨(as, bs), hus, rfl⟩⟩

theorem unitLevels_ok {u : Dict} (h : ∀ k ∈ unitKeys, Numeric (pyGet u k))
    {a b : List OrderBookLevel} :
    unitLevels syn (.dict u) = .ok (a, b) ↔
      protoPairs a = unitPairs [u] "ask_price" "ask_size" ∧
      protoPairs b = unitPairs [u] "bid_price" "bid_size" := by
  have one : ∀ {p s : String} {ls : List OrderBookLevel}, p ∈ unitKeys → s ∈ unitKeys →
      (levelOf syn (pyGet u p) (pyGet u s) = .ok ls ↔ protoPairs ls = unitPairs [u] p s) := by
    intro p s ls hp hs
    rw [levelOf_ok (h p hp) (h s hs)]
    constructor
    · rintro ⟨x, y, hx, hy, rfl⟩
      simp [protoPairs, unitPairs, hx, hy]
    · intro hl
      match ls, hl with
      | [⟨x, y⟩], hl =>
        simp only [protoPairs, unitPairs, List.map_cons, List.map_nil, List.cons.injEq,
          Prod.mk.injEq, and_true] at hl
        exact ⟨x, y, hl.1.symm, hl.2.symm, rfl⟩
      | [], hl => cases hl
      | _ :: _ :: _, hl => simp [protoPairs, unitPairs] at hl
  rw [← one (p := "ask_price") (s := "ask_size") (by decide) (by decide),
    ← one (p := "bid_price") (s := "bid_size") (by decide) (by decide), unitLevels,
    Except.bind_ok]
  constructor
  · rintro ⟨a', ha, h⟩
    obtain ⟨b', hb, h⟩ := Except.bind_ok.1 h
    obtain ⟨rfl, rfl⟩ := Prod.mk.inj (Except.pure_ok.1 h)
    exact ⟨ha, hb⟩
  · rintro ⟨ha, hb⟩
    exact ⟨a, ha, Except.bind_ok.2 ⟨b, hb, rfl⟩⟩

theorem protoPairs_append (a b : List OrderBookLevel) :
    protoPairs (a ++ b) = protoPairs a ++ protoPairs b := List.map_append

/-- A list of levels that has the pairs of some units followed by others splits accordingly. -/
theorem protoPairs_eq_append {ls : List OrderBookLevel}
    {xs ys : List (Option Binary64 × Option Binary64)} (h : protoPairs ls = xs ++ ys) :
    ∃ a b, ls = a ++ b ∧ protoPairs a = xs ∧ protoPairs b = ys := by
  obtain ⟨a, b, rfl, ha, hb⟩ := List.map_eq_append_iff.1 h
  exact ⟨a, b, rfl, ha, hb⟩

/-- The loop over the units collects exactly their pairs. -/
theorem collectLevels_ok : ∀ {units : List Dict} {asks bids : List OrderBookLevel},
    (∀ u ∈ units, ∀ k ∈ unitKeys, Numeric (pyGet u k)) →
    (collectLevels syn (units.map .dict) = .ok (asks, bids) ↔
      protoPairs asks = unitPairs units "ask_price" "ask_size" ∧
      protoPairs bids = unitPairs units "bid_price" "bid_size")
  | [], asks, bids, _ => by
    constructor
    · intro h; cases h; exact ⟨rfl, rfl⟩
    · rintro ⟨ha, hb⟩
      obtain rfl := List.map_eq_nil_iff.1 ha
      obtain rfl := List.map_eq_nil_iff.1 hb
      rfl
  | u :: us, asks, bids, h => by
    have hus : ∀ v ∈ us, ∀ k ∈ unitKeys, Numeric (pyGet v k) :=
      fun v hv => h v (List.mem_cons_of_mem u hv)
    have hcons : ∀ p s, unitPairs (u :: us) p s = unitPairs [u] p s ++ unitPairs us p s :=
      fun _ _ => rfl
    rw [List.map_cons, collectLevels_cons, hcons, hcons]
    constructor
    · rintro ⟨a, b, as, bs, hu, hc, rfl, rfl⟩
      obtain ⟨ha, hb⟩ := (unitLevels_ok (h u List.mem_cons_self)).1 hu
      obtain ⟨has, hbs⟩ := (collectLevels_ok hus).1 hc
      rw [protoPairs_append, protoPairs_append, ha, hb, has, hbs]
      exact ⟨rfl, rfl⟩
    · rintro ⟨ha, hb⟩
      obtain ⟨a, as, rfl, ha, has⟩ := protoPairs_eq_append ha
      obtain ⟨b, bs, rfl, hb, hbs⟩ := protoPairs_eq_append hb
      exact ⟨a, b, as, bs, (unitLevels_ok (h u List.mem_cons_self)).2 ⟨ha, hb⟩,
        (collectLevels_ok hus).2 ⟨has, hbs⟩, rfl, rfl⟩

theorem getD_of_get {d : Dict} {key : String} {v default : Json} (h : pyGet d key = v)
    (hv : v ≠ .null) : d.getD key default = v := by
  unfold pyGet Dict.getD at h
  unfold Dict.getD
  cases hg : d.get key with
  | some w => rw [hg] at h; exact h
  | none => rw [hg] at h; exact absurd h.symm hv

theorem toExchangeEnum_upbit : toExchangeEnum U "upbit" = .upbit := by
  have hs : strip "upbit" = "upbit" := by decide
  have hu : upper U "upbit" = "UPBIT" := by
    rw [upper_ascii U (by simp)]; decide
  have hn : ¬"upbit" = "" := by decide
  unfold toExchangeEnum normalizeExchangeName
  rw [if_neg hn, hs, hu, if_pos rfl]

/-- The message both paths are about: of the payload `d`, with the levels and totals found. -/
def update (code : String) (ts : Int) (received : Timestamp) (ta tb : Binary64)
    (asks bids : List OrderBookLevel) : OrderBookUpdate where
  exchange := .upbit
  code := code
  totalAskSize := ta
  totalBidSize := tb
  asks := asks
  bids := bids
  streamType := .realtime
  eventTimestamp := Timestamp.ofMillis ts
  receivedTimestamp := received

variable {d : Dict} {code : String} {ts : Int} {units : List Dict}

/-- **The direct path** succeeds iff the numbers have doubles and the seconds fit, with the levels
of the units. -/
theorem jsonToOrderbookProto_ok (h : IsOrderbook U d code ts units) {b : OrderBookUpdate} :
    jsonToOrderbookProto U syn now (.dict d) "upbit" = .ok b ↔
      ∃ ta tb asks bids, number (pyGet d "total_ask_size") = some ta ∧
        number (pyGet d "total_bid_size") = some tb ∧
        protoPairs asks = unitPairs units "ask_price" "ask_size" ∧
        protoPairs bids = unitPairs units "bid_price" "bid_size" ∧
        int64 (ts / 1000) = .ok (ts / 1000) ∧
        b = update code ts (nowTimestampUtc now) ta tb asks bids := by
  have hcode : requiredCode d "'code' is required in orderbook message" = .ok (.str code) := by
    unfold requiredCode
    rw [h.code_eq, if_pos (by simpa [Json.truthy] using h.code_ne)]
  have hts : firstTimestamp d "timestamp" "event_timestamp"
      "'timestamp' (ms) is required in orderbook message" = .ok (.int ts) := by
    unfold firstTimestamp
    rw [h.timestamp_eq]
  have hunits : iterate (if (d.getD "orderbook_units" (.list [])).truthy then
      d.getD "orderbook_units" (.list []) else .list []) = .ok (units.map .dict) := by
    rw [h.units_eq]
    cases units <;> rfl
  have hstamp : ∀ {t : Timestamp}, timestampFromMillis ts = .ok t ↔
      int64 (ts / 1000) = .ok (ts / 1000) ∧ t = Timestamp.ofMillis ts := by
    intro t
    unfold timestampFromMillis int64
    split
    · rw [Except.ok_bind, Except.pure_ok]
      simp [Timestamp.ofMillis, eq_comm]
    · simp [bind, Except.bind]
  simp only [jsonToOrderbookProto, hcode, hts, hunits, Except.ok_bind,
    h.totalAskSize.floatOrZero, h.totalBidSize.floatOrZero, toExchangeEnum_upbit, pyInt,
    stringField, Except.bind_ok, toDouble_ok, hstamp, Except.pure_ok]
  constructor
  · rintro ⟨⟨asks, bids⟩, hc, ta, hta, tb, htb, t, ⟨hi, rfl⟩, rfl⟩
    obtain ⟨ha, hb⟩ := (collectLevels_ok h.numbers).1 hc
    exact ⟨ta, tb, asks, bids, hta, htb, ha, hb, hi, rfl⟩
  · rintro ⟨ta, tb, asks, bids, hta, htb, ha, hb, hi, rfl⟩
    exact ⟨(asks, bids), (collectLevels_ok h.numbers).2 ⟨ha, hb⟩, ta, hta, tb, htb, _, ⟨hi, rfl⟩, rfl⟩

/-! ## The pipeline path -/

theorem levelNumber_ok {level : Dict} {key : String} {x : Binary64} :
    doubleField (level.getD key zeroFloat) = .ok x ↔ levelNumber level key = some x := by
  unfold levelNumber
  rw [doubleField_ok]
  cases level.getD key zeroFloat with
  | null => simp [number, eq_comm]
  | _ => simp

theorem orderBookLevel_ok {v : Json} {l : OrderBookLevel} : orderBookLevel v = .ok l ↔
    ∃ level : Dict, v = .dict level ∧ levelNumber level "price" = some l.price ∧
      levelNumber level "size" = some l.size := by
  cases v with
  | dict level =>
    rw [orderBookLevel, Except.bind_ok]
    constructor
    · rintro ⟨x, hx, h⟩
      obtain ⟨y, hy, h⟩ := Except.bind_ok.1 h
      obtain rfl := Except.pure_ok.1 h
      exact ⟨level, rfl, levelNumber_ok.1 hx, levelNumber_ok.1 hy⟩
    · rintro ⟨level', he, hx, hy⟩
      cases he
      exact ⟨l.price, levelNumber_ok.2 hx, Except.bind_ok.2 ⟨l.size, levelNumber_ok.2 hy, rfl⟩⟩
  | _ => simp [orderBookLevel]

theorem mapM_orderBookLevel_ok : ∀ {vs : List Json} {ls : List OrderBookLevel},
    vs.mapM orderBookLevel = .ok ls ↔
      ∃ levels : List Dict, vs = levels.map .dict ∧ levelPairs levels = protoPairs ls
  | [], ls => by
    rw [List.mapM_nil, Except.pure_ok]
    constructor
    · rintro rfl; exact ⟨[], rfl, rfl⟩
    · rintro ⟨levels, hl, hp⟩
      obtain rfl := List.map_eq_nil_iff.1 hl.symm
      exact (List.map_eq_nil_iff.1 hp.symm).symm
  | v :: vs, ls => by
    rw [List.mapM_cons, Except.bind_ok]
    constructor
    · rintro ⟨l, hl, h⟩
      obtain ⟨ls', hls, h⟩ := Except.bind_ok.1 h
      obtain rfl := Except.pure_ok.1 h
      obtain ⟨level, rfl, hp, hs⟩ := orderBookLevel_ok.1 hl
      obtain ⟨levels, rfl, hlevels⟩ := mapM_orderBookLevel_ok.1 hls
      refine ⟨level :: levels, rfl, ?_⟩
      rw [levelPairs, List.map_cons, hp, hs, protoPairs, List.map_cons]
      exact congrArg _ hlevels
    · rintro ⟨levels, hl, hp⟩
      match levels, ls, hl, hp with
      | level :: levels, l :: ls, hl, hp =>
        simp only [List.map_cons, List.cons.injEq] at hl
        simp only [levelPairs, protoPairs, List.map_cons, List.cons.injEq, Prod.mk.injEq] at hp
        exact ⟨l, orderBookLevel_ok.2 ⟨level, hl.1, hp.1⟩,
          Except.bind_ok.2 ⟨ls, mapM_orderBookLevel_ok.2 ⟨levels, hl.2, hp.2⟩, rfl⟩⟩
      | [], _, hl, _ => cases hl
      | _ :: _, [], _, hp => cases hp

/-- The service's loop over a list of levels. -/
theorem orderBookLevels_ok {v : Json} {ls : List OrderBookLevel} : orderBookLevels v = .ok ls ↔
    ∃ levels : List Dict, v.iter = some (levels.map .dict) ∧
      levelPairs levels = protoPairs ls := by
  rw [orderBookLevels, Except.bind_ok]
  constructor
  · rintro ⟨vs, hv, h⟩
    obtain ⟨levels, rfl, hl⟩ := mapM_orderBookLevel_ok.1 h
    refine ⟨levels, ?_, hl⟩
    unfold iterate at hv
    split at hv
    · rename_i xs hxs; rw [hxs]; cases hv; rfl
    · cases hv
  · rintro ⟨levels, hv, hl⟩
    exact ⟨levels.map .dict, by rw [iterate, hv], mapM_orderBookLevel_ok.2 ⟨levels, rfl, hl⟩⟩

/-- The message that the connector makes of an order book. -/
theorem convert_orderbook (h : IsOrderbook U d code ts units) :
    (convertToMarketDataMessages env cfg .exact r d).2 =
      match DateTime.fromMillis .exact ts with
      | some t => newMessage env cfg .orderbook code d t (env.now r.reads)
      | none => .error invalidMessage := by
  have ht : eventTsMs "orderbook" d = .int ts := h.timestamp_eq
  have htruthy : (Json.int ts).truthy = true := by
    have := h.timestamp_pos
    simp only [Json.truthy, bne_iff_ne, ne_eq]
    omega
  unfold convertToMarketDataMessages
  rw [show d.getD "type" .null = .str "orderbook" from h.type_eq,
    show d.getD "code" .null = .str code from h.code_eq]
  simp only [toMessage, ht, htruthy, if_true, fromTimestampMs]
  cases DateTime.fromMillis .exact ts <;> rfl

/-- **The pipeline path** succeeds iff the payload can be copied, the date has a date-time and the
payload lists levels in the service's form, with those levels. -/
theorem pipelineOrderbook_ok (h : IsOrderbook U d code ts units) {a : OrderBookUpdate} :
    pipelineOrderbook env cfg r d = .ok [a] ↔
      ∃ ta tb asks bids, number (pyGet d "total_ask_size") = some ta ∧
        number (pyGet d "total_bid_size") = some tb ∧
        orderBookLevels (d.getD "asks" (.list [])) = .ok asks ∧
        orderBookLevels (d.getD "bids" (.list [])) = .ok bids ∧
        env.deepcopy d = .ok d ∧ ts < 253402300800000 ∧
        a = update code ts (Timestamp.fromDatetime (env.now r.reads)) ta tb asks bids := by
  have htotal : ∀ {key : String} {x : Binary64}, Numeric (pyGet d key) →
      (doubleField (d.getD key zeroFloat) = .ok x ↔ number (pyGet d key) = some x) := by
    intro key x hn
    rw [getD_of_get rfl hn.ne_null, doubleField_ok]
    exact or_iff_left fun hnull => hn.ne_null hnull.1
  have hupper : upper U code = code := h.code_upper
  cases ht : DateTime.fromMillis .exact ts with
  | none =>
    have hlate : ¬ts < 253402300800000 := fun hlt => by
      have := h.timestamp_pos
      obtain ⟨t, ht'⟩ := DateTime.fromMillis_isSome.2 ⟨by omega, hlt⟩
      rw [ht] at ht'; cases ht'
    rw [pipelineOrderbook, convert_orderbook h, ht]
    constructor
    · intro ha; cases ha
    · rintro ⟨_, _, _, _, _, _, _, _, _, hlt, _⟩; exact absurd hlt hlate
  | some t =>
    have hlt : ts < 253402300800000 := (DateTime.fromMillis_isSome.1 ⟨t, ht⟩).2
    rw [pipelineOrderbook, convert_orderbook h, ht]
    dsimp only
    by_cases hcopy : env.deepcopy d = .ok d
    swap
    · rw [newMessage_not_copied hcopy]
      refine iff_of_false nofun ?_
      rintro ⟨_, _, _, _, _, _, _, _, hc, _⟩
      exact hcopy hc
    rw [newMessage_copied hcopy, Except.ok_bind, Except.mapM_ok]
    simp only [List.map_cons, List.map_nil, List.cons.injEq, and_true, convertToOrderbookProto,
      Except.bind_ok, Except.pure_ok, htotal h.totalAskSize, htotal h.totalBidSize,
      MarketDataMessage.code, hupper, Timestamp.fromDatetime_fromMillis ht]
    constructor
    · rintro ⟨asks, ha, bids, hb, ta, hta, tb, htb, rfl⟩
      exact ⟨ta, tb, asks, bids, hta, htb, ha, hb, hcopy, hlt, rfl⟩
    · rintro ⟨ta, tb, asks, bids, hta, htb, ha, hb, _, _, rfl⟩
      exact ⟨asks, ha, bids, hb, ta, hta, tb, htb, rfl⟩

/-! ## Exactly when they agree -/

theorem Representable.pairs (h : Representable d units) {p s : String} (hp : p ∈ unitKeys)
    (hs : s ∈ unitKeys) : ∃ ls, protoPairs ls = unitPairs units p s :=
  exists_protoPairs units p s fun u hu => ⟨h.units u hu p hp, h.units u hu s hs⟩

/-- Pairs of an actual message are all there. -/
theorem isSome_of_unitPairs {ls : List OrderBookLevel} {p s : String}
    (h : protoPairs ls = unitPairs units p s) : ∀ u ∈ units,
      (number (pyGet u p)).isSome ∧ (number (pyGet u s)).isSome := by
  intro u hu
  have hm : (number (pyGet u p), number (pyGet u s)) ∈ protoPairs ls := by
    rw [h]; exact List.mem_map.2 ⟨u, hu, rfl⟩
  obtain ⟨l, _, hl⟩ := List.mem_map.1 hm
  rw [Prod.mk.injEq] at hl
  rw [← hl.1, ← hl.2]
  exact ⟨rfl, rfl⟩

/-- **The two encoders agree iff** the payload can be copied, every number has a double, the date is
before the year 10000 and the payload carries its levels in the service's form as well. -/
theorem agree_iff (h : IsOrderbook U d code ts units) :
    Agree env cfg r syn now d ↔
      env.deepcopy d = .ok d ∧ Representable d units ∧ ts < 253402300800000 ∧
        CarriesLevels d units := by
  constructor
  · rintro ⟨a, b, ha, hb, hab⟩
    obtain ⟨ta, tb, asks, bids, hta, htb, hasks, hbids, hcopy, hlt, rfl⟩ :=
      (pipelineOrderbook_ok h).1 ha
    obtain ⟨ta', tb', asks', bids', -, -, hasks', hbids', -, rfl⟩ :=
      (jsonToOrderbookProto_ok h).1 hb
    simp only [update, OrderBookUpdate.mk.injEq] at hab
    obtain ⟨-, -, -, -, rfl, rfl, -⟩ := hab
    obtain ⟨la, hla, hpa⟩ := orderBookLevels_ok.1 hasks
    obtain ⟨lb, hlb, hpb⟩ := orderBookLevels_ok.1 hbids
    refine ⟨hcopy, ⟨by rw [hta]; rfl, by rw [htb]; rfl, fun u hu k hk => ?_⟩, hlt,
      ⟨la, hla, hpa.trans hasks'⟩, ⟨lb, hlb, hpb.trans hbids'⟩⟩
    have hask := isSome_of_unitPairs hasks' u hu
    have hbid := isSome_of_unitPairs hbids' u hu
    simp only [unitKeys, List.mem_cons, List.not_mem_nil, or_false] at hk
    rcases hk with rfl | rfl | rfl | rfl
    · exact hask.1
    · exact hask.2
    · exact hbid.1
    · exact hbid.2
  · rintro ⟨hcopy, hr, hlt, ⟨la, hla, hpa⟩, ⟨lb, hlb, hpb⟩⟩
    obtain ⟨ta, hta⟩ := Option.isSome_iff_exists.1 hr.totalAskSize
    obtain ⟨tb, htb⟩ := Option.isSome_iff_exists.1 hr.totalBidSize
    obtain ⟨asks, hasks⟩ := hr.pairs (p := "ask_price") (s := "ask_size") (by decide) (by decide)
    obtain ⟨bids, hbids⟩ := hr.pairs (p := "bid_price") (s := "bid_size") (by decide) (by decide)
    have hfit : int64 (ts / 1000) = .ok (ts / 1000) := by
      have := h.timestamp_pos
      unfold int64 int64Min int64Max
      rw [if_pos (by omega)]
    exact ⟨_, _, (pipelineOrderbook_ok h).2 ⟨ta, tb, asks, bids, hta, htb,
      orderBookLevels_ok.2 ⟨la, hla, hpa.trans hasks.symm⟩,
      orderBookLevels_ok.2 ⟨lb, hlb, hpb.trans hbids.symm⟩, hcopy, hlt, rfl⟩,
      (jsonToOrderbookProto_ok h).2 ⟨ta, tb, asks, bids, hta, htb, hasks, hbids, hfit, rfl⟩, rfl⟩

/-! ## A real payload -/

/-- One unit, with all numbers 1. -/
def sampleUnit : Dict := unitKeys.map fun k => (k, .float Binary64.one)

/-- An order book of that unit, in Upbit's format. -/
def realPayload : Dict :=
  [("type", .str "orderbook"), ("code", .str "KRW-BTC"), ("timestamp", .int 1700000000000),
    ("total_ask_size", .float Binary64.one), ("total_bid_size", .float Binary64.one),
    ("orderbook_units", .list [.dict sampleUnit]), ("stream_type", .str "REALTIME")]

theorem realPayload_isOrderbook :
    IsOrderbook asciiTable realPayload "KRW-BTC" 1700000000000 [sampleUnit] where
  type_eq := rfl
  code_eq := rfl
  code_ne := by decide
  code_upper := by decide
  timestamp_eq := rfl
  timestamp_pos := by decide
  totalAskSize := .inr ⟨_, rfl⟩
  totalBidSize := .inr ⟨_, rfl⟩
  units_eq := rfl
  numbers u hu k hk := by
    rw [List.mem_singleton.1 hu]
    simp only [unitKeys, List.mem_cons, List.not_mem_nil, or_false] at hk
    rcases hk with rfl | rfl | rfl | rfl <;> exact .inr ⟨_, rfl⟩

/-- Surroundings of no consequence: no frame is decoded, no string is a number. -/
def plainEnvironment : Environment := fixedEnvironment fun _ => .error .jsonDecodeError

def plainSyntax : NumberSyntax := ⟨fun _ => none, fun _ => none⟩

/-- **The pipeline loses the levels**, and the direct path keeps them. -/
theorem realPayload_disagree :
    IsOrderbook asciiTable realPayload "KRW-BTC" 1700000000000 [sampleUnit] ∧
    (∃ a b, pipelineOrderbook plainEnvironment krwBtcConfig Registry.init realPayload = .ok [a] ∧
      jsonToOrderbookProto asciiTable plainSyntax DateTime.epoch (.dict realPayload) "upbit" =
        .ok b ∧
      a.asks = [] ∧ b.asks = [⟨Binary64.one, Binary64.one⟩]) ∧
    ¬Agree plainEnvironment krwBtcConfig Registry.init plainSyntax DateTime.epoch realPayload := by
  refine ⟨realPayload_isOrderbook, ⟨_, _, rfl, rfl, rfl, rfl⟩, ?_⟩
  rintro ⟨a, b, ha, hb, hab⟩
  obtain ⟨_, _, asks, _, _, _, hasks, _, _, _, rfl⟩ :=
    (pipelineOrderbook_ok realPayload_isOrderbook).1 ha
  cases hb
  cases hasks
  cases congrArg OrderBookUpdate.asks hab

/-- `agree_iff` at that payload. -/
theorem agree_iff_realPayload :
    Agree plainEnvironment krwBtcConfig Registry.init plainSyntax DateTime.epoch realPayload ↔
      plainEnvironment.deepcopy realPayload = .ok realPayload ∧
        Representable realPayload [sampleUnit] ∧ (1700000000000 : Int) < 253402300800000 ∧
        CarriesLevels realPayload [sampleUnit] :=
  agree_iff realPayload_isOrderbook

end FlinkPractices.Service
