import FlinkPractices.Lib.Exact
import FlinkPractices.Lib.Except
import FlinkPractices.Proto.Mapper
import Mathlib.Data.List.Forall2

/-!
# What the protobuf mapper keeps

The payloads that `json_to_trade_proto` and `json_to_orderbook_proto` are meant for
(`TradePayload`, `OrderbookPayload`) and how much of one the message gives back (`TradeRecovered`,
`OrderbookRecovered`).  `Maps` is the verdict on one call: a `ValueError` exactly for the rejected
payloads, an `OverflowError` when `float()` meets an integer beyond the doubles, and a message that
gives the payload back for all others.

Principal results: `mappers_recover`, for both mappers and all payloads; `largeInteger_lost`, two
integers that a double does not hold.

## Proof

The mappers are `do` blocks in `Except`, and both have one way to fail once a payload has passed the
checks: they are followed step by step with the rules of `Lib.Except.FailsOn`.

* `checks` — the checks at the head of both mappers let through exactly the payloads that are not
  rejected, with their code and their first timestamp
* `pyFloat_fails`, `enumOf_fails`, `timestampFromMillis_fails` — one lemma for each kind of field
* `collectLevels_fails` — the loop over the units, by induction on them
* `jsonToTradeProto_maps`, `jsonToOrderbookProto_maps` — the verdict on each mapper
-/

set_option autoImplicit false

namespace FlinkPractices.Proto

open Lib

/-! ## Payloads -/

/-- A value that is there and not `None`. -/
def given : Json → Bool
  | .null => false
  | _ => true

/-- A string, `None` or absent. -/
def StringOrNull (v : Json) : Prop := v = .null ∨ ∃ s, v = .str s

/-- A JSON number, `None` or absent. -/
def NumberOrNull (v : Json) : Prop := v = .null ∨ (∃ n, v = .int n) ∨ ∃ x, v = .float x

/-- Milliseconds whose seconds fit a `Timestamp`, `None` or absent. -/
def MillisOrNull (v : Json) : Prop :=
  v = .null ∨ ∃ ms, v = .int ms ∧ int64Min ≤ ms / 1000 ∧ ms / 1000 ≤ int64Max

/-- An integer that fits an `int64`, `None` or absent. -/
def Int64OrNull (v : Json) : Prop := v = .null ∨ ∃ n, v = .int n ∧ int64Min ≤ n ∧ n ≤ int64Max

/-- The number fields of a trade. -/
def tradeNumbers : List String :=
  ["trade_price", "trade_volume", "prev_closing_price", "change_price"]

/-- The number fields of an order book. -/
def orderbookNumbers : List String := ["total_ask_size", "total_bid_size"]

/-- The number fields of a unit of an order book. -/
def unitNumbers : List String := ["ask_price", "ask_size", "bid_price", "bid_size"]

structure TradePayload (d : Dict) : Prop where
  code : StringOrNull (pyGet d "code")
  tradeTimestamp : MillisOrNull (pyGet d "trade_timestamp")
  timestamp : MillisOrNull (pyGet d "timestamp")
  numbers : ∀ k ∈ tradeNumbers, NumberOrNull (pyGet d k)
  askBid : StringOrNull (pyGet d "ask_bid")
  change : StringOrNull (pyGet d "change")
  sequentialId : Int64OrNull (pyGet d "sequential_id")

structure OrderbookPayload (d : Dict) (units : List Dict) : Prop where
  code : StringOrNull (pyGet d "code")
  timestamp : MillisOrNull (pyGet d "timestamp")
  eventTimestamp : MillisOrNull (pyGet d "event_timestamp")
  numbers : ∀ k ∈ orderbookNumbers, NumberOrNull (pyGet d k)
  units_eq : pyGet d "orderbook_units" = .list (units.map .dict) ∨
    (pyGet d "orderbook_units" = .null ∧ units = [])
  units : ∀ u ∈ units, ∀ k ∈ unitNumbers, NumberOrNull (pyGet u k)

/-- No code, or neither timestamp. -/
def Rejected (d : Dict) (first second : String) : Prop :=
  (pyGet d "code" = .null ∨ pyGet d "code" = .str "") ∨
    (pyGet d first = .null ∧ pyGet d second = .null)

/-- An integer beyond the doubles. -/
def TooLarge (v : Json) : Prop := ∃ n, v = .int n ∧ Binary64.ofInt n = none

/-! ## Recovery -/

/-- `x` is the number `v`: the value itself if a double holds it, else what it is rounded to, and
zero if there is none. -/
def NumberRecovered (v : Json) (x : Binary64) : Prop :=
  match v with
  | .null => x = Binary64.zero
  | .float y => x = y
  | .int n => Binary64.ofInt n = some x ∧
      ∀ y : Binary64, y.units = n * 2 ^ 1074 → x.units = n * 2 ^ 1074
  | _ => False

/-- The first timestamp that is not `None` is `seconds * 1000 + nanos / 10 ^ 6`, exactly. -/
def TimeRecovered (d : Dict) (first second : String) (t : Timestamp) : Prop :=
  ∃ ms, (pyGet d first = .int ms ∨ (pyGet d first = .null ∧ pyGet d second = .int ms)) ∧
    t.seconds * 1000000000 + t.nanos = ms * 1000000 ∧ 0 ≤ t.nanos ∧ t.nanos < 1000000000

def AskBid.name : AskBid → Option String
  | .unspecified => none
  | .ask => some "ASK"
  | .bid => some "BID"

def ChangeType.name : ChangeType → Option String
  | .unspecified => none
  | .rise => some "RISE"
  | .even => some "EVEN"
  | .fall => some "FALL"

/-- The upper-cased string, if it is one of `names`. -/
def knownName (U : UpperTable) (names : List String) : Json → Option String
  | .str s => if upper U s ∈ names then some (upper U s) else none
  | _ => none

structure TradeRecovered (U : UpperTable) (d : Dict) (t : Trade) : Prop where
  code : pyGet d "code" = .str t.code
  tradeTimestamp : TimeRecovered d "trade_timestamp" "timestamp" t.tradeTimestamp
  tradePrice : NumberRecovered (pyGet d "trade_price") t.tradePrice
  tradeVolume : NumberRecovered (pyGet d "trade_volume") t.tradeVolume
  prevClosingPrice : NumberRecovered (pyGet d "prev_closing_price") t.prevClosingPrice
  changePrice : NumberRecovered (pyGet d "change_price") t.changePrice
  askBid : t.askBid.name = knownName U ["ASK", "BID"] (pyGet d "ask_bid")
  change : t.change.name = knownName U ["RISE", "EVEN", "FALL"] (pyGet d "change")
  sequentialId : pyGet d "sequential_id" = .int t.sequentialId ∨
    (pyGet d "sequential_id" = .null ∧ t.sequentialId = 0)

/-- The units that have a level on one side. -/
def sideUnits (units : List Dict) (price size : String) : List Dict :=
  units.filter fun u => given (pyGet u price) && given (pyGet u size)

/-- `levels` are the levels of that side, in order. -/
def LevelsRecovered (units : List Dict) (price size : String) (levels : List OrderBookLevel) :
    Prop :=
  List.Forall₂ (fun u l => NumberRecovered (pyGet u price) l.price ∧
    NumberRecovered (pyGet u size) l.size) (sideUnits units price size) levels

structure OrderbookRecovered (d : Dict) (units : List Dict) (b : OrderBookUpdate) : Prop where
  code : pyGet d "code" = .str b.code
  eventTimestamp : TimeRecovered d "timestamp" "event_timestamp" b.eventTimestamp
  totalAskSize : NumberRecovered (pyGet d "total_ask_size") b.totalAskSize
  totalBidSize : NumberRecovered (pyGet d "total_bid_size") b.totalBidSize
  asks : LevelsRecovered units "ask_price" "ask_size" b.asks
  bids : LevelsRecovered units "bid_price" "bid_size" b.bids

/-- A level of that side has an integer beyond the doubles. -/
def SideTooLarge (units : List Dict) (price size : String) : Prop :=
  ∃ u ∈ sideUnits units price size, TooLarge (pyGet u price) ∨ TooLarge (pyGet u size)

def TradeTooLarge (d : Dict) : Prop := ∃ k ∈ tradeNumbers, TooLarge (pyGet d k)

def OrderbookTooLarge (d : Dict) (units : List Dict) : Prop :=
  (∃ k ∈ orderbookNumbers, TooLarge (pyGet d k)) ∨
    SideTooLarge units "ask_price" "ask_size" ∨ SideTooLarge units "bid_price" "bid_size"

/-- The verdict on one call. -/
structure Maps {α : Type} (rejected tooLarge : Prop) (recovered : α → Prop)
    (r : Except PyExn α) : Prop where
  rejects : (∃ text, r = .error (.valueError text)) ↔ rejected
  overflows : r = .error .overflowError ↔ ¬rejected ∧ tooLarge
  maps : ¬rejected → ¬tooLarge → ∃ a, r = .ok a ∧ recovered a

namespace Maps

variable {α : Type} {rejected tooLarge : Prop} {recovered : α → Prop} {r : Except PyExn α}

theorem of_rejected (h : rejected) {text : String} (hr : r = .error (.valueError text)) :
    Maps rejected tooLarge recovered r := by
  subst hr
  refine ⟨iff_of_true ⟨text, rfl⟩ h, iff_of_false ?_ fun hn => hn.1 h, fun hn => absurd h hn⟩
  intro h
  cases h

theorem of_failsOn (h : ¬rejected)
    (hr : Except.FailsOn PyExn.overflowError tooLarge recovered r) :
    Maps rejected tooLarge recovered r := by
  by_cases hl : tooLarge
  · obtain rfl := hr.fails hl
    refine ⟨iff_of_false ?_ h, iff_of_true rfl ⟨h, hl⟩, fun _ hn => absurd hl hn⟩
    rintro ⟨_, he⟩
    cases he
  · obtain ⟨a, rfl, ha⟩ := hr.returns hl
    refine ⟨iff_of_false ?_ h, iff_of_false ?_ fun hn => hl hn.2, fun _ _ => ⟨a, rfl, ha⟩⟩
    · rintro ⟨_, he⟩
      cases he
    · intro he
      cases he

end Maps

/-! ## Fields -/

variable {U : UpperTable} {syn : NumberSyntax} {now : DateTime}

theorem not_tooLarge_null : ¬TooLarge .null := by
  rintro ⟨_, h, _⟩
  cases h

/-- `float()` of a number that is there. -/
theorem pyFloat_fails {v : Json} (h : NumberOrNull v) (hv : given v = true) :
    Except.FailsOn .overflowError (TooLarge v) (NumberRecovered v) (pyFloat syn v) := by
  rcases h with rfl | ⟨n, rfl⟩ | ⟨x, rfl⟩
  · cases hv
  · have hd : pyFloat syn (.int n) = toDouble (.int n) := rfl
    cases hn : Binary64.ofInt n with
    | none =>
      have hr : pyFloat syn (.int n) = .error .overflowError := by
        rw [hd, toDouble, number, hn]; rfl
      exact (Except.FailsOn.error _ hr).congr (iff_of_true trivial ⟨n, rfl, hn⟩)
    | some x =>
      have hr : pyFloat syn (.int n) = .ok x := by rw [hd, toDouble, number, hn]
      have hx : NumberRecovered (.int n) x := by
        refine ⟨hn, ?_⟩
        intro y hy
        obtain ⟨z, hz, hu⟩ := Binary64.ofInt_exact hy
        rw [hn] at hz
        cases hz
        exact hu
      rw [hr]
      refine (Except.FailsOn.pure hx).congr (iff_of_false not_false ?_)
      rintro ⟨m, hm, hnone⟩
      cases hm
      rw [hn] at hnone
      cases hnone
  · have hx : NumberRecovered (.float x) x := rfl
    refine (Except.FailsOn.pure hx).congr (iff_of_false not_false ?_)
    rintro ⟨_, h, _⟩
    cases h

theorem floatOrZero_fails {v : Json} (h : NumberOrNull v) :
    Except.FailsOn .overflowError (TooLarge v) (NumberRecovered v) (floatOrZero syn v) := by
  by_cases hv : given v = true
  · have he : floatOrZero syn v = pyFloat syn v := by cases v <;> first | rfl | cases hv
    rw [he]
    exact pyFloat_fails h hv
  · have he : v = .null := by cases v <;> first | rfl | exact absurd rfl hv
    have hz : NumberRecovered .null Binary64.zero := rfl
    subst he
    exact (Except.FailsOn.pure hz).congr (iff_of_false not_false not_tooLarge_null)

theorem askBidMap_name (s : String) :
    (askBidMap s).name = if s ∈ ["ASK", "BID"] then some s else none := by
  unfold askBidMap
  split <;> simp_all [AskBid.name]

theorem changeTypeMap_name (s : String) :
    (changeTypeMap s).name = if s ∈ ["RISE", "EVEN", "FALL"] then some s else none := by
  unfold changeTypeMap
  split <;> simp_all [ChangeType.name]

/-- An enumeration field has the known name of its value. -/
theorem enumOf_fails {α : Type} {unspecified : α} {table : String → α} {name : α → Option String}
    {names : List String} {v : Json} (h : StringOrNull v) (hnone : name unspecified = none)
    (hnames : "" ∉ names) (htable : ∀ s, name (table s) = if s ∈ names then some s else none) :
    Except.FailsOn PyExn.overflowError False (fun a => name a = knownName U names v)
      (enumOf U unspecified table v) := by
  rcases h with rfl | ⟨s, rfl⟩
  · exact .pure hnone
  · by_cases hs : s = ""
    · subst hs
      have hempty : upper U "" = "" := rfl
      refine .pure ?_
      rw [hnone, knownName, hempty, if_neg hnames]
    · have ht : enumOf U unspecified table (.str s) = .ok (table (upper U s)) := by
        rw [enumOf, if_pos (by simpa [Json.truthy] using hs)]
      rw [ht]
      exact .pure (htable _)

theorem timestampFromMillis_fails {ms : Int} (h : int64Min ≤ ms / 1000 ∧ ms / 1000 ≤ int64Max) :
    Except.FailsOn PyExn.overflowError False
      (fun t => t.seconds * 1000000000 + t.nanos = ms * 1000000 ∧ 0 ≤ t.nanos ∧
        t.nanos < 1000000000) (timestampFromMillis ms) := by
  have ht : timestampFromMillis ms = .ok ⟨ms / 1000, ms % 1000 * 1000000⟩ := by
    rw [timestampFromMillis, int64, if_pos h]; rfl
  rw [ht]
  refine .pure ?_
  simp only
  omega

theorem intOrZero_fails {v : Json} (h : Int64OrNull v) :
    Except.FailsOn PyExn.overflowError False
      (fun n => (v = .int n ∨ (v = .null ∧ n = 0)) ∧ int64 n = .ok n) (intOrZero syn v) := by
  rcases h with rfl | ⟨n, rfl, hn⟩
  · exact .pure ⟨.inr ⟨rfl, rfl⟩, rfl⟩
  · exact .pure ⟨.inl rfl, if_pos hn⟩

/-! ## The two checks -/

section Checks

variable {d : Dict} {first second codeText timeText : String}

theorem requiredCode_missing (h : pyGet d "code" = .null ∨ pyGet d "code" = .str "") :
    requiredCode d codeText = .error (.valueError codeText) := by
  rw [requiredCode, if_neg]
  rcases h with h | h <;> rw [h] <;> decide

theorem requiredCode_given {s : String} (h : pyGet d "code" = .str s) (hs : s ≠ "") :
    requiredCode d codeText = .ok (.str s) := by
  rw [requiredCode, h, if_pos (by simpa [Json.truthy] using hs)]

/-- The checks at the head of both mappers: they let through exactly the payloads that are not
rejected, with their code and their first timestamp. -/
theorem checks (hc : StringOrNull (pyGet d "code")) (h₁ : MillisOrNull (pyGet d first))
    (h₂ : MillisOrNull (pyGet d second)) :
    (Rejected d first second ∧ ∃ text, ∀ {α : Type} (f : Json → Json → Except PyExn α),
      (do let code ← requiredCode d codeText
          let ms ← firstTimestamp d first second timeText
          f code ms) = .error (.valueError text)) ∨
    (¬Rejected d first second ∧ ∃ s ms, pyGet d "code" = .str s ∧
      requiredCode d codeText = .ok (.str s) ∧
      firstTimestamp d first second timeText = .ok (.int ms) ∧
      (pyGet d first = .int ms ∨ (pyGet d first = .null ∧ pyGet d second = .int ms)) ∧
      int64Min ≤ ms / 1000 ∧ ms / 1000 ≤ int64Max) := by
  by_cases hmissing : pyGet d "code" = .null ∨ pyGet d "code" = .str ""
  · exact .inl ⟨.inl hmissing, codeText, fun f => by rw [requiredCode_missing hmissing]; rfl⟩
  obtain ⟨hnull, hempty⟩ := not_or.1 hmissing
  obtain ⟨s, hs⟩ := hc.resolve_left hnull
  have hcode : requiredCode d codeText = .ok (.str s) :=
    requiredCode_given hs fun h => hempty (h ▸ hs)
  rcases h₁ with h₁ | ⟨ms, h₁, hms⟩
  · rcases h₂ with h₂ | ⟨ms, h₂, hms⟩
    · refine .inl ⟨.inr ⟨h₁, h₂⟩, timeText, ?_⟩
      intro α f
      rw [hcode, firstTimestamp, h₁, h₂]; rfl
    · refine .inr ⟨?_, s, ms, hs, hcode, by rw [firstTimestamp, h₁, h₂], .inr ⟨h₁, h₂⟩, hms⟩
      rintro (h | ⟨-, h⟩)
      · exact hmissing h
      · rw [h₂] at h; cases h
  · refine .inr ⟨?_, s, ms, hs, hcode, by rw [firstTimestamp, h₁], .inl h₁, hms⟩
    rintro (h | ⟨h, -⟩)
    · exact hmissing h
    · rw [h₁] at h; cases h

end Checks

/-! ## Levels -/

theorem sideUnits_append (us vs : List Dict) (price size : String) :
    sideUnits (us ++ vs) price size = sideUnits us price size ++ sideUnits vs price size :=
  List.filter_append us vs

theorem LevelsRecovered.append {us vs : List Dict} {price size : String}
    {ls ms : List OrderBookLevel} (h : LevelsRecovered us price size ls)
    (h' : LevelsRecovered vs price size ms) : LevelsRecovered (us ++ vs) price size (ls ++ ms) := by
  unfold LevelsRecovered
  rw [sideUnits_append]
  exact List.rel_append h h'

theorem sideTooLarge_append {us vs : List Dict} {price size : String} :
    SideTooLarge (us ++ vs) price size ↔
      SideTooLarge us price size ∨ SideTooLarge vs price size := by
  simp only [SideTooLarge, sideUnits_append, List.mem_append, or_and_right, exists_or]

/-- One side of one unit. -/
theorem levelOf_fails {u : Dict} {price size : String} (hp : NumberOrNull (pyGet u price))
    (hs : NumberOrNull (pyGet u size)) :
    Except.FailsOn .overflowError (SideTooLarge [u] price size) (LevelsRecovered [u] price size)
      (levelOf syn (pyGet u price) (pyGet u size)) := by
  by_cases hg : (given (pyGet u price) && given (pyGet u size)) = true
  · have hside : sideUnits [u] price size = [u] := by rw [sideUnits, List.filter_singleton, hg]; rfl
    obtain ⟨hgp, hgs⟩ := Bool.and_eq_true_iff.1 hg
    have hl : levelOf syn (pyGet u price) (pyGet u size) = (do
        let x ← pyFloat syn (pyGet u price)
        let y ← pyFloat syn (pyGet u size)
        return [⟨x, y⟩]) := by
      unfold levelOf
      split
      · rename_i h; rw [h] at hgp; cases hgp
      · rename_i h _; rw [h] at hgs; cases hgs
      · rfl
    rw [hl]
    refine ((pyFloat_fails hp hgp).bind fun x hx => (pyFloat_fails hs hgs).bind fun y hy =>
      .pure (e := PyExn.overflowError) (P := LevelsRecovered [u] price size) ?_).congr ?_
    · unfold LevelsRecovered
      rw [hside]
      exact .cons ⟨hx, hy⟩ .nil
    · simp [SideTooLarge, hside]
  · have hside : sideUnits [u] price size = [] := by
      rw [sideUnits, List.filter_singleton, Bool.eq_false_iff.2 hg]; rfl
    have hl : levelOf syn (pyGet u price) (pyGet u size) = .ok [] := by
      unfold levelOf
      split
      · rfl
      · rfl
      · rename_i hp' hs'
        refine absurd (Bool.and_eq_true_iff.2 ⟨?_, ?_⟩) hg
        · cases hv : pyGet u price <;> first | rfl | exact absurd hv hp'
        · cases hv : pyGet u size <;> first | rfl | exact absurd hv hs'
    rw [hl]
    have hnil : LevelsRecovered [u] price size [] := by
      unfold LevelsRecovered
      rw [hside]
      exact .nil
    refine (Except.FailsOn.pure hnil).congr (iff_of_false not_false ?_)
    rintro ⟨v, hv, _⟩
    rw [hside] at hv
    cases hv

/-- A level of either side has an integer beyond the doubles. -/
def UnitsTooLarge (units : List Dict) : Prop :=
  SideTooLarge units "ask_price" "ask_size" ∨ SideTooLarge units "bid_price" "bid_size"

/-- The asks and the bids of some units. -/
def UnitsRecovered (units : List Dict) (p : List OrderBookLevel × List OrderBookLevel) : Prop :=
  LevelsRecovered units "ask_price" "ask_size" p.1 ∧
    LevelsRecovered units "bid_price" "bid_size" p.2

theorem unitLevels_fails {u : Dict} (h : ∀ k ∈ unitNumbers, NumberOrNull (pyGet u k)) :
    Except.FailsOn .overflowError (UnitsTooLarge [u]) (UnitsRecovered [u])
      (unitLevels syn (.dict u)) := by
  have hask : Except.FailsOn _ _ _ (levelOf syn (pyGet u "ask_price") (pyGet u "ask_size")) :=
    levelOf_fails (h "ask_price" (by decide)) (h "ask_size" (by decide))
  have hbid : Except.FailsOn _ _ _ (levelOf syn (pyGet u "bid_price") (pyGet u "bid_size")) :=
    levelOf_fails (h "bid_price" (by decide)) (h "bid_size" (by decide))
  refine (hask.bind fun a ha => hbid.bind fun b hb => .pure (e := PyExn.overflowError)
    (P := UnitsRecovered [u]) (a := (a, b)) ⟨ha, hb⟩).congr ?_
  rw [or_false, UnitsTooLarge]

/-- The loop over the units, step by step. -/
theorem collectLevels_fails : ∀ {units : List Dict},
    (∀ u ∈ units, ∀ k ∈ unitNumbers, NumberOrNull (pyGet u k)) →
    Except.FailsOn .overflowError (UnitsTooLarge units) (UnitsRecovered units)
      (collectLevels syn (units.map .dict))
  | [], _ => by
    refine (Except.FailsOn.pure (a := ([], [])) ⟨.nil, .nil⟩).congr (iff_of_false not_false ?_)
    rintro (⟨_, hu, _⟩ | ⟨_, hu, _⟩) <;> cases hu
  | u :: us, h => by
    have hu : Except.FailsOn _ _ _ (unitLevels syn (.dict u)) :=
      unitLevels_fails (h u List.mem_cons_self)
    have hus := collectLevels_fails fun v hv => h v (List.mem_cons_of_mem u hv)
    refine (hu.bind fun p hp => hus.bind fun q hq => .pure (e := PyExn.overflowError)
      (P := UnitsRecovered (u :: us)) (a := (p.1 ++ q.1, p.2 ++ q.2))
      ⟨hp.1.append hq.1, hp.2.append hq.2⟩).congr ?_
    have hcons : ∀ price size, SideTooLarge (u :: us) price size ↔
        SideTooLarge [u] price size ∨ SideTooLarge us price size :=
      fun _ _ => @sideTooLarge_append [u] us _ _
    rw [or_false, UnitsTooLarge, UnitsTooLarge, UnitsTooLarge, hcons, hcons, or_or_or_comm]

/-! ## The two mappers -/

theorem tradeTooLarge_iff {d : Dict} : TradeTooLarge d ↔
    TooLarge (pyGet d "trade_price") ∨ TooLarge (pyGet d "trade_volume") ∨
      TooLarge (pyGet d "prev_closing_price") ∨ TooLarge (pyGet d "change_price") := by
  simp [TradeTooLarge, tradeNumbers]

/-- The verdict on `json_to_trade_proto`. -/
theorem jsonToTradeProto_maps {d : Dict} (h : TradePayload d) (exchangeName : String) :
    Maps (Rejected d "trade_timestamp" "timestamp") (TradeTooLarge d) (TradeRecovered U d)
      (jsonToTradeProto U syn now (.dict d) exchangeName) := by
  rcases checks h.code h.tradeTimestamp h.timestamp with
    ⟨hr, text, he⟩ | ⟨hn, code, ms, hs, hcode, htime, hms, hrange⟩
  · exact .of_rejected hr (he _)
  refine .of_failsOn hn ?_
  have hfloat : ∀ k ∈ tradeNumbers, Except.FailsOn .overflowError (TooLarge (pyGet d k))
      (NumberRecovered (pyGet d k)) (floatOrZero syn (pyGet d k)) :=
    fun k hk => floatOrZero_fails (h.numbers k hk)
  have haskBid : Except.FailsOn PyExn.overflowError False _ (toAskBidEnum U (pyGet d "ask_bid")) :=
    enumOf_fails h.askBid rfl (by decide) askBidMap_name
  have hchange : Except.FailsOn PyExn.overflowError False _
      (toChangeTypeEnum U (pyGet d "change")) :=
    enumOf_fails h.change rfl (by decide) changeTypeMap_name
  have hstamp := timestampFromMillis_fails hrange
  have hseq : Except.FailsOn _ _ _ (intOrZero syn (pyGet d "sequential_id")) :=
    intOrZero_fails h.sequentialId
  rw [jsonToTradeProto, hcode, htime]
  refine ((hfloat "trade_price" (by decide)).bind fun tradePrice hprice =>
    (hfloat "trade_volume" (by decide)).bind fun tradeVolume hvolume =>
    haskBid.bind fun askBid hab =>
    (hfloat "prev_closing_price" (by decide)).bind fun prevClosingPrice hprev =>
    hchange.bind fun change hch =>
    (hfloat "change_price" (by decide)).bind fun changePrice hcp =>
    hstamp.bind fun tradeTimestamp hts =>
    hseq.bind fun sequentialId hsi => (?_ : Except.FailsOn _ False _ _)).congr ?_
  · have hcode' : stringField (.str code) = .ok code := rfl
    rw [hcode', Except.ok_bind, hsi.2, Except.ok_bind]
    exact .pure ⟨hs, ⟨ms, hms, hts⟩, hprice, hvolume, hprev, hcp, hab, hch, hsi.1⟩
  · rw [tradeTooLarge_iff]
    simp only [or_false, false_or]

theorem orderbookTooLarge_iff {d : Dict} {units : List Dict} : OrderbookTooLarge d units ↔
    UnitsTooLarge units ∨ TooLarge (pyGet d "total_ask_size") ∨
      TooLarge (pyGet d "total_bid_size") := by
  simp only [OrderbookTooLarge, orderbookNumbers, List.mem_cons, List.not_mem_nil, or_false,
    exists_eq_or_imp, exists_eq_left, UnitsTooLarge]
  exact or_comm

/-- `data.get("orderbook_units", []) or []`. -/
theorem iterate_units {d : Dict} {units : List Dict} (h : OrderbookPayload d units) :
    iterate (if (Dict.getD d "orderbook_units" (.list [])).truthy then
      Dict.getD d "orderbook_units" (.list []) else .list []) = .ok (units.map .dict) := by
  have hget := h.units_eq
  unfold pyGet Dict.getD at hget
  unfold Dict.getD
  cases hu : d.get "orderbook_units" with
  | none =>
    rw [hu] at hget
    obtain ⟨-, rfl⟩ := hget.resolve_left (fun hl => by cases hl)
    rfl
  | some v =>
    rw [hu] at hget
    rcases hget with hv | ⟨hv, rfl⟩
    · obtain rfl : v = .list (units.map .dict) := hv
      cases units <;> rfl
    · obtain rfl : v = .null := hv
      rfl

/-- The verdict on `json_to_orderbook_proto`. -/
theorem jsonToOrderbookProto_maps {d : Dict} {units : List Dict} (h : OrderbookPayload d units)
    (exchangeName : String) :
    Maps (Rejected d "timestamp" "event_timestamp") (OrderbookTooLarge d units)
      (OrderbookRecovered d units) (jsonToOrderbookProto U syn now (.dict d) exchangeName) := by
  rcases checks h.code h.timestamp h.eventTimestamp with
    ⟨hr, text, he⟩ | ⟨hn, code, ms, hs, hcode, htime, hms, hrange⟩
  · exact .of_rejected hr (he _)
  refine .of_failsOn hn ?_
  have hfloat : ∀ k ∈ orderbookNumbers, Except.FailsOn .overflowError (TooLarge (pyGet d k))
      (NumberRecovered (pyGet d k)) (floatOrZero syn (pyGet d k)) :=
    fun k hk => floatOrZero_fails (h.numbers k hk)
  have hstamp := timestampFromMillis_fails hrange
  simp only [jsonToOrderbookProto, hcode, htime, iterate_units h, Except.ok_bind]
  refine ((collectLevels_fails h.units).bind fun levels hlevels =>
    (hfloat "total_ask_size" (by decide)).bind fun totalAskSize hask =>
    (hfloat "total_bid_size" (by decide)).bind fun totalBidSize hbid =>
    hstamp.bind fun eventTimestamp hts => (Except.FailsOn.pure
      ⟨hs, ⟨ms, hms, hts⟩, hask, hbid, hlevels.1, hlevels.2⟩)).congr ?_
  rw [orderbookTooLarge_iff, or_false, or_false]

/-- **Both mappers give the payload back** in their message, reject exactly the payloads without a
code or a timestamp, and overflow exactly on the integers beyond the doubles that they convert. -/
theorem mappers_recover (U : UpperTable) (syn : NumberSyntax) (now : DateTime)
    (exchangeName : String) :
    (∀ d, TradePayload d →
      Maps (Rejected d "trade_timestamp" "timestamp") (TradeTooLarge d) (TradeRecovered U d)
        (jsonToTradeProto U syn now (.dict d) exchangeName)) ∧
    (∀ d units, OrderbookPayload d units →
      Maps (Rejected d "timestamp" "event_timestamp") (OrderbookTooLarge d units)
        (OrderbookRecovered d units) (jsonToOrderbookProto U syn now (.dict d) exchangeName)) :=
  ⟨fun _ h => jsonToTradeProto_maps h exchangeName,
    fun _ _ h => jsonToOrderbookProto_maps h exchangeName⟩

/-! ## Large integers -/

/-- A trade of the given price. -/
def pricedTrade (price : Int) : Dict :=
  [("code", .str "KRW-BTC"), ("timestamp", .int 1700000000123), ("trade_price", .int price),
    ("ask_bid", .str "bid")]

theorem pricedTrade_payload (price : Int) : TradePayload (pricedTrade price) where
  code := .inr ⟨_, rfl⟩
  tradeTimestamp := .inl rfl
  timestamp := .inr ⟨_, rfl, by decide, by decide⟩
  numbers k hk := by
    simp only [tradeNumbers, List.mem_cons, List.not_mem_nil, or_false] at hk
    rcases hk with rfl | rfl | rfl | rfl
    · exact .inr (.inl ⟨_, rfl⟩)
    · exact .inl rfl
    · exact .inl rfl
    · exact .inl rfl
  askBid := .inr ⟨_, rfl⟩
  change := .inl rfl
  sequentialId := .inl rfl

theorem pricedTrade_not_rejected (price : Int) :
    ¬Rejected (pricedTrade price) "trade_timestamp" "timestamp" := by
  rintro ((h | h) | ⟨_, h⟩)
  · cases h
  · exact absurd (Json.str.inj h) (by decide)
  · cases h

/-- No string is a number. -/
def noNumerals : NumberSyntax := ⟨fun _ => none, fun _ => none⟩

/-- **A price of `2 ^ 53 + 1` comes out as another number, one of `2 ^ 1024` not at all.** -/
theorem largeInteger_lost :
    (TradePayload (pricedTrade (2 ^ 53 + 1)) ∧
      ¬Rejected (pricedTrade (2 ^ 53 + 1)) "trade_timestamp" "timestamp" ∧
      ∃ t, jsonToTradeProto asciiTable noNumerals DateTime.epoch
          (.dict (pricedTrade (2 ^ 53 + 1))) "upbit" = .ok t ∧
        t.tradePrice.units = 2 ^ 53 * 2 ^ 1074 ∧ t.tradePrice.units ≠ (2 ^ 53 + 1) * 2 ^ 1074) ∧
    (TradePayload (pricedTrade (2 ^ 1024)) ∧
      ¬Rejected (pricedTrade (2 ^ 1024)) "trade_timestamp" "timestamp" ∧
      jsonToTradeProto asciiTable noNumerals DateTime.epoch (.dict (pricedTrade (2 ^ 1024)))
        "upbit" = .error .overflowError) := by
  refine ⟨⟨pricedTrade_payload _, pricedTrade_not_rejected _, _, rfl, ?_, ?_⟩,
    pricedTrade_payload _, pricedTrade_not_rejected _, ?_⟩
  · decide +kernel
  · decide +kernel
  · decide +kernel

/-- A unit with a bid and no ask. -/
def bidOnly : Dict :=
  [("ask_price", .null), ("ask_size", .float Binary64.one), ("bid_price", .int 7),
    ("bid_size", .float Binary64.one)]

def bidOnlyBook : Dict :=
  [("code", .str "KRW-BTC"), ("event_timestamp", .int (-1)),
    ("orderbook_units", .list [.dict bidOnly])]

theorem bidOnlyBook_payload : OrderbookPayload bidOnlyBook [bidOnly] where
  code := .inr ⟨_, rfl⟩
  timestamp := .inl rfl
  eventTimestamp := .inr ⟨_, rfl, by decide, by decide⟩
  numbers k hk := by
    simp only [orderbookNumbers, List.mem_cons, List.not_mem_nil, or_false] at hk
    rcases hk with rfl | rfl <;> exact .inl rfl
  units_eq := .inl rfl
  units u hu k hk := by
    rw [List.mem_singleton.1 hu]
    simp only [unitNumbers, List.mem_cons, List.not_mem_nil, or_false] at hk
    rcases hk with rfl | rfl | rfl | rfl
    · exact .inl rfl
    · exact .inr (.inr ⟨_, rfl⟩)
    · exact .inr (.inl ⟨_, rfl⟩)
    · exact .inr (.inr ⟨_, rfl⟩)

/-- `mappers_recover` at the first of these trades and at that order book. -/
theorem mappers_recover_pricedTrade :
    Maps (Rejected (pricedTrade (2 ^ 53 + 1)) "trade_timestamp" "timestamp")
      (TradeTooLarge (pricedTrade (2 ^ 53 + 1)))
      (TradeRecovered asciiTable (pricedTrade (2 ^ 53 + 1)))
      (jsonToTradeProto asciiTable noNumerals DateTime.epoch (.dict (pricedTrade (2 ^ 53 + 1)))
        "upbit") ∧
    Maps (Rejected bidOnlyBook "timestamp" "event_timestamp")
      (OrderbookTooLarge bidOnlyBook [bidOnly]) (OrderbookRecovered bidOnlyBook [bidOnly])
      (jsonToOrderbookProto asciiTable noNumerals DateTime.epoch (.dict bidOnlyBook) "upbit") := by
  have h := mappers_recover asciiTable noNumerals DateTime.epoch "upbit"
  exact ⟨h.1 _ (pricedTrade_payload _), h.2 _ _ bidOnlyBook_payload⟩

end FlinkPractices.Proto
