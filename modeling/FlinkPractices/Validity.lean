import FlinkPractices.Pipeline
import FlinkPractices.Upbit.Arrivals

/-!
# What the connector yields is valid

`MarketDataMessage.validate` is never called in the pipeline.  With a configuration that
`stream_market_data` accepts, it would find one fault at most in the messages of the connector: an
event that is later than its receipt, as the exchange's own timestamp is taken over unchecked.

The other checks cannot fail, each for a reason of its own:

* the exchange is the name in the configuration, `upbit`,
* the code is that of a configured market, so it starts with `KRW-` (`exchangeConfig_facts`;
  upper-casing keeps the prefix, `startsWith_upper`),
* the payload is the whole object, which is not empty, as it has a type and a code.

## Proof

`rendered_validationErrors` computes the list of violations for one rendered message.  Every message
that reaches a consumer has been rendered from an accepted frame (`Relayed`), in any interleaving of
any number of tasks, and the result follows.

Principal result: `validate_of_run`.  It is about `validate` as a function; that nobody calls it in
the pipeline is not a theorem, but the reason to ask.
-/

set_option autoImplicit false

namespace FlinkPractices.Pipeline

open Lib Upbit

variable {U : UpperTable}

/-- Upper-casing keeps the prefix. -/
theorem startsWith_upper {s : String} (h : isKrwMarket s = true) :
    startsWith (upper U s) "KRW-" = true := by
  obtain ⟨rest, hs⟩ := List.isPrefixOf_iff_prefix.1 h
  have hfull : ∀ c : Char, c.toNat < 128 → c.toUpper = c → U.full c = [c] := by
    intro c hc hu
    rw [U.ascii c hc, hu]
  have hupper : (upper U s).toList = "KRW-".toList ++ rest.flatMap U.full := by
    rw [upper, String.toList_ofList, ← hs, List.flatMap_append]
    congr 1
    show U.full 'K' ++ (U.full 'R' ++ (U.full 'W' ++ (U.full '-' ++ []))) = ['K', 'R', 'W', '-']
    rw [hfull 'K' (by decide) (by decide), hfull 'R' (by decide) (by decide),
      hfull 'W' (by decide) (by decide), hfull '-' (by decide) (by decide)]
    rfl
  unfold startsWith
  rw [hupper]
  exact List.isPrefixOf_iff_prefix.2 (List.prefix_append _ _)

/-- The configuration of the use case. -/
theorem exchangeConfig_facts {markets : List String} {cfg : ExchangeConfig U}
    (h : exchangeConfig U markets = .ok cfg) :
    cfg.exchangeName = "upbit" ∧ ∀ m ∈ cfg.subscribedMarkets, startsWith m "KRW-" = true := by
  have hkrw := (exchangeConfig_ok.1 ⟨cfg, h⟩).2
  have hne := (exchangeConfig_ok.1 ⟨cfg, h⟩).1
  unfold exchangeConfig at h
  rw [if_neg hne] at h
  split at h
  · cases h
  · obtain ⟨cfg', hcfg, hmem, -, -⟩ := createUpbitConfig_ok (U := U) hne
    rw [hcfg] at h
    cases h
    refine ⟨?_, fun m hm => ?_⟩
    · unfold createUpbitConfig ExchangeConfig.create at hcfg
      dsimp only at hcfg
      split at hcfg
      · cases hcfg
      · split at hcfg
        · cases hcfg
          rfl
        · cases hcfg
    · obtain ⟨x, hx, rfl⟩ := (hmem m).1 hm
      exact startsWith_upper (hkrw x hx)

/-- **A message of the connector has one fault at most.** -/
theorem rendered_validationErrors {env : Environment} {cfg : ExchangeConfig U}
    {m : MarketDataMessage} {f : Frame} (hname : cfg.exchangeName = "upbit")
    (hkrw : ∀ m ∈ cfg.subscribedMarkets, startsWith m "KRW-" = true) (h : Renders env cfg f m) :
    m.validationErrors U =
      if m.receivedTimestamp.micros < m.eventTimestamp.micros then [m.laterThanReceived]
      else [] := by
  obtain ⟨ty, code, d, r, r', hacc, hm⟩ := h
  have hr := rendered_of_toMessage hm
  have hcode : startsWith (upper U (m.code U)) "KRW-" = true := by
    rw [MarketDataMessage.code, upper_upper, hr.rawCode]
    exact hkrw _ hacc.subscribed
  have hdata : m.rawData.isEmpty = false := by
    rw [hr.rawData]
    have htype := hacc.hasType
    cases d with
    | nil => cases htype
    | cons => rfl
  have hexchange : ¬(m.exchange = "" ∨ strip m.exchange = "") := by
    rw [hr.exchange, hname]
    decide
  unfold MarketDataMessage.validationErrors
  rw [if_neg hexchange, hcode, hdata]
  simp

/-- Every message that was relayed has been rendered. -/
theorem relayed_renders {env : Environment} {cfg : ExchangeConfig U}
    {fs : List (Connector.TaskId × Frame)} {ms : List (Connector.TaskId × MarketDataMessage)}
    (h : Relayed env cfg fs ms) : ∀ x ∈ ms, ∃ f, Renders env cfg f x.2 := by
  induction h with
  | nil => intro x hx; cases hx
  | gives _ hm ih =>
    intro x hx
    rcases List.mem_append.1 hx with hx | hx
    · exact ih x hx
    · obtain rfl := List.mem_singleton.1 hx
      exact ⟨_, hm⟩
  | drops _ _ ih => exact ih

/-- **What `validate` would say of the stream**: in every run of any number of tasks on the
connector of the use case, with whatever frames, failures and cancellations, a message is valid but
for an event that is later than its receipt. -/
theorem validate_of_run {markets : List String} {env : Environment} {cfg : ExchangeConfig U}
    {inst : Registry} {ls : List (Connector.Label (upbit env cfg))}
    {s : Connector.Sys (upbit env cfg)} (hcfg : exchangeConfig U markets = .ok cfg)
    (hr : run (Connector.step cfg) (Connector.Sys.init (upbit env cfg) inst) ls = some s) :
    ∀ x ∈ deliveries s, x.2.validate U =
      if x.2.receivedTimestamp.micros < x.2.eventTimestamp.micros then
        .error (.validationException
          ("MarketDataMessage validation failed: " ++ x.2.laterThanReceived))
      else .ok () := by
  intro x hx
  obtain ⟨hname, hkrw⟩ := exchangeConfig_facts hcfg
  obtain ⟨f, hf⟩ := relayed_renders (run_relayed hr) x hx
  unfold MarketDataMessage.validate
  rw [rendered_validationErrors hname hkrw hf]
  split
  · rfl
  · rfl

/-- `validate_of_run` of two streams: their messages are from the future, as the clock has
stopped. -/
theorem validate_of_run_twoStreams : (deliveries twoStreamsEnd).length = 2 ∧
    ∀ x ∈ deliveries twoStreamsEnd, x.2.validate asciiTable =
      if x.2.receivedTimestamp.micros < x.2.eventTimestamp.micros then
        .error (.validationException
          ("MarketDataMessage validation failed: " ++ x.2.laterThanReceived))
      else .ok () :=
  ⟨rfl, validate_of_run (show exchangeConfig asciiTable ["KRW-BTC"] = .ok krwBtcConfig from rfl)
    (Option.some_get twoStreams_isSome).symm⟩

end FlinkPractices.Pipeline
