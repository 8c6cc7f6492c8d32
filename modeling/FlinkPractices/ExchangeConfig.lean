import FlinkPractices.Exceptions
import FlinkPractices.Lib.PyStr
import Mathlib.Data.List.Dedup

/-!
# Exchange configuration (`domain/models/exchange_config.py`, `connectors/upbit_config.py`)

`ExchangeConfig` is the object after `__post_init__`: the markets are upper-cased and the checks
of `validate` hold, as fields, so that a connector never meets an invalid configuration.
`ExchangeConfig.create` is the constructor call, `createUpbitConfig` the Upbit factory.

* `validationErrors` — the error texts of `validate`, in its order; the constructor raises
  `InvalidConfigurationError` with all of them
* `normalizeMarkets` — the set of the upper-cased markets, a list without repetitions
* `isValidUrl` — what `urlparse` makes of an address, as far as `validate` asks for it

Principal results:

* `create_ok_iff` — construction succeeds exactly when `validate` finds no error
* `createUpbitConfig_ok` — with the default settings the factory accepts every non-empty set of
  markets, and the configured markets are the upper-cased ones

The order of the markets in a Python set is not specified; the list is one order of it, and nothing
that follows depends on which.
-/

set_option autoImplicit false

namespace FlinkPractices

open Lib

/-- A validated, immutable configuration. -/
structure ExchangeConfig (U : UpperTable) where
  exchangeName : String
  websocketUrl : String
  restApiUrl : String
  subscribedMarkets : List String
  pingIntervalSeconds : Nat
  maxReconnectAttempts : Nat
  exponentialBackoffMaxSeconds : Nat
  markets_ne : subscribedMarkets ≠ []
  markets_upper : ∀ m ∈ subscribedMarkets, upper U m = m
  ping_ge : 60 ≤ pingIntervalSeconds
  backoff_ge : 1 ≤ exponentialBackoffMaxSeconds

namespace ExchangeConfig

/-- Characters of a URL scheme (`urllib.parse.scheme_chars`). -/
def isSchemeChar (c : Char) : Bool :=
  c.isAlpha || c.isDigit || c == '+' || c == '-' || c == '.'

/-- `urlparse(url).scheme` and what follows it. -/
def splitScheme (url : List Char) : List Char × List Char :=
  match url.span (· != ':') with
  | (s, _ :: rest) =>
    if s.head?.any Char.isAlpha && s.all isSchemeChar then (s, rest) else ([], url)
  | (_, []) => ([], url)

/-- `urlparse(url).netloc`. -/
def netloc : List Char → List Char
  | '/' :: '/' :: rest => rest.takeWhile fun c => c != '/' && c != '?' && c != '#'
  | _ => []

/-- `_is_valid_url`: a scheme and a network location (unbalanced brackets are a `ValueError`). -/
def isValidUrl (url : String) : Bool :=
  let p := splitScheme url.toList
  let n := netloc p.2
  !p.1.isEmpty && !n.isEmpty && (n.contains '[' == n.contains ']')

/-- The error texts of `validate`, in its order. -/
def validationErrors (exchangeName websocketUrl restApiUrl : String) (markets : List String)
    (ping maxAttempts backoff : Int) : List String :=
  (if exchangeName = "" then ["exchange_name must be a non-empty string."] else []) ++
  (if isValidUrl websocketUrl then [] else ["Invalid websocket_url format: " ++ websocketUrl]) ++
  (if isValidUrl restApiUrl then [] else ["Invalid rest_api_url format: " ++ restApiUrl]) ++
  (if markets = [] then ["subscribed_markets cannot be empty."] else []) ++
  (if ping < 60 then
    ["ping_interval_seconds must be at least 60 seconds for Upbit compatibility."] else []) ++
  (if maxAttempts < 0 then ["max_reconnect_attempts cannot be negative."] else []) ++
  (if backoff < 1 then ["exponential_backoff_max_seconds must be at least 1 second."] else [])

theorem validationErrors_nil {n w r : String} {ms : List String} {p m b : Int} :
    validationErrors n w r ms p m b = [] ↔
      n ≠ "" ∧ isValidUrl w = true ∧ isValidUrl r = true ∧ ms ≠ [] ∧ 60 ≤ p ∧ 0 ≤ m ∧ 1 ≤ b := by
  simp only [validationErrors, List.append_eq_nil_iff, and_assoc, ite_eq_right_iff,
    ite_eq_left_iff, List.cons_ne_nil, imp_false, ne_eq, Bool.not_eq_true, Bool.not_eq_false,
    Int.not_lt]

/-- `{market.upper() for market in markets}`. -/
def normalizeMarkets (U : UpperTable) (markets : List String) : List String :=
  (markets.map (upper U)).dedup

theorem mem_normalizeMarkets {U : UpperTable} {markets : List String} {m : String} :
    m ∈ normalizeMarkets U markets ↔ ∃ x ∈ markets, upper U x = m := by
  simp [normalizeMarkets]

theorem normalizeMarkets_upper {U : UpperTable} {markets : List String} :
    ∀ m ∈ normalizeMarkets U markets, upper U m = m := by
  intro m hm
  obtain ⟨x, _, rfl⟩ := mem_normalizeMarkets.1 hm
  exact upper_upper x

theorem normalizeMarkets_ne_nil {U : UpperTable} {markets : List String} (h : markets ≠ []) :
    normalizeMarkets U markets ≠ [] := by
  obtain ⟨x, hx⟩ := List.exists_mem_of_ne_nil _ h
  exact List.ne_nil_of_mem (mem_normalizeMarkets.2 ⟨x, hx, rfl⟩)

/-- `ExchangeConfig(...)`: normalise the markets, then `validate`. -/
def create (U : UpperTable) (exchangeName websocketUrl restApiUrl : String)
    (markets : List String) (ping maxAttempts backoff : Int) : Except PyExn (ExchangeConfig U) :=
  let ms := normalizeMarkets U markets
  let errors := validationErrors exchangeName websocketUrl restApiUrl ms ping maxAttempts backoff
  if h : errors = [] then
    have hv := validationErrors_nil.1 h
    .ok {
      exchangeName, websocketUrl, restApiUrl
      subscribedMarkets := ms
      pingIntervalSeconds := ping.toNat
      maxReconnectAttempts := maxAttempts.toNat
      exponentialBackoffMaxSeconds := backoff.toNat
      markets_ne := hv.2.2.2.1
      markets_upper := normalizeMarkets_upper
      ping_ge := by omega
      backoff_ge := by omega }
  else
    .error (.invalidConfigurationError ("ExchangeConfig validation failed for " ++ exchangeName ++
      ": " ++ "; ".intercalate errors))

/-- Construction succeeds exactly when `validate` finds no error. -/
theorem create_ok_iff {U : UpperTable} {n w r : String} {ms : List String} {p m b : Int} :
    (∃ cfg, create U n w r ms p m b = .ok cfg) ↔
      validationErrors n w r (normalizeMarkets U ms) p m b = [] := by
  unfold create
  by_cases h : validationErrors n w r (normalizeMarkets U ms) p m b = [] <;> simp [h]

end ExchangeConfig

/-! ## The Upbit factory -/

def UPBIT_WEBSOCKET_URL : String := "wss://api.upbit.com/websocket/v1"
def UPBIT_REST_API_URL : String := "https://api.upbit.com/v1"
def UPBIT_PING_INTERVAL : Int := 60
def DEFAULT_MAX_RECONNECT_ATTEMPTS : Int := 10
def DEFAULT_EXPONENTIAL_BACKOFF_MAX : Int := 60

/-- `create_upbit_config`. -/
def createUpbitConfig (U : UpperTable) (subscribedMarkets : List String)
    (ping maxAttempts backoff : Int) : Except PyExn (ExchangeConfig U) :=
  if ping < 60 then
    .error (.invalidConfigurationError
      "Upbit ping_interval must be >= 60 seconds to prevent 120s idle timeout")
  else
    ExchangeConfig.create U "upbit" UPBIT_WEBSOCKET_URL UPBIT_REST_API_URL
      (ExchangeConfig.normalizeMarkets U subscribedMarkets) ping maxAttempts backoff

theorem isValidUrl_upbit : ExchangeConfig.isValidUrl UPBIT_WEBSOCKET_URL = true ∧
    ExchangeConfig.isValidUrl UPBIT_REST_API_URL = true := by
  constructor <;> decide

/-- **With its default settings the factory accepts every non-empty set of markets**, and the
configured markets are the upper-cased ones. -/
theorem createUpbitConfig_ok {U : UpperTable} {markets : List String} (h : markets ≠ []) :
    ∃ cfg, createUpbitConfig U markets UPBIT_PING_INTERVAL DEFAULT_MAX_RECONNECT_ATTEMPTS
        DEFAULT_EXPONENTIAL_BACKOFF_MAX = .ok cfg ∧
      (∀ m, m ∈ cfg.subscribedMarkets ↔ ∃ x ∈ markets, upper U x = m) ∧
      cfg.maxReconnectAttempts = 10 ∧ cfg.exponentialBackoffMaxSeconds = 60 := by
  have hn := ExchangeConfig.normalizeMarkets_ne_nil (U := U)
    (ExchangeConfig.normalizeMarkets_ne_nil (U := U) h)
  have hv : ExchangeConfig.validationErrors "upbit" UPBIT_WEBSOCKET_URL UPBIT_REST_API_URL
      (ExchangeConfig.normalizeMarkets U (ExchangeConfig.normalizeMarkets U markets)) 60 10 60
        = [] :=
    ExchangeConfig.validationErrors_nil.2 ⟨by decide, isValidUrl_upbit.1, isValidUrl_upbit.2, hn,
      by decide, by decide, by decide⟩
  refine ⟨_, dif_pos hv, fun m => ?_, rfl, rfl⟩
  simp only [ExchangeConfig.mem_normalizeMarkets]
  constructor
  · rintro ⟨_, ⟨x, hx, rfl⟩, rfl⟩; exact ⟨x, hx, (upper_upper x).symm⟩
  · rintro ⟨x, hx, rfl⟩; exact ⟨upper U x, ⟨x, hx, rfl⟩, upper_upper x⟩

/-- What the factory makes of the market `krw-btc`. -/
def krwBtcConfig : ExchangeConfig asciiTable where
  exchangeName := "upbit"
  websocketUrl := UPBIT_WEBSOCKET_URL
  restApiUrl := UPBIT_REST_API_URL
  subscribedMarkets := ["KRW-BTC"]
  pingIntervalSeconds := 60
  maxReconnectAttempts := 10
  exponentialBackoffMaxSeconds := 60
  markets_ne := by decide
  markets_upper := by decide
  ping_ge := by decide
  backoff_ge := by decide

example : createUpbitConfig asciiTable ["krw-btc"] UPBIT_PING_INTERVAL
    DEFAULT_MAX_RECONNECT_ATTEMPTS DEFAULT_EXPONENTIAL_BACKOFF_MAX = .ok krwBtcConfig := by rfl

end FlinkPractices
