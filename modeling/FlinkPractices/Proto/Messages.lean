import FlinkPractices.Exceptions
import FlinkPractices.Lib.Json

/-!
# The protobuf messages (`proto/common.proto`, `proto/market_data.proto`)

The messages as the generated Python classes hold them, and what those classes accept when a field
is set from an arbitrary Python value: `None` leaves the field at its default, `bool` counts as
`int`, and nothing is parsed out of a string.  The texts of the library's own errors are not
modelled.

* `doubleField`, `int64Field`, `stringField` — setting a field
* `toDouble` — a number wherever one is required: an integer beyond the doubles is an
  `OverflowError`, anything that is no number a `TypeError`
* `Timestamp`, `Timestamp.fromDatetime` — `google.protobuf.Timestamp` and its `FromDatetime`
* `Timestamp.ofMillis` — the timestamp of a millisecond count, directly

Principal results:

* `doubleField_ok` — what a double field takes, and what it then holds
* `Timestamp.fromDatetime_fromMillis` — by way of an exact date-time or directly, a `Timestamp` of
  milliseconds is the same
-/

set_option autoImplicit false

namespace FlinkPractices.Proto

open Lib

inductive Exchange where
  | unspecified
  | upbit
  deriving DecidableEq, Repr

inductive ChangeType where
  | unspecified
  | rise
  | even
  | fall
  deriving DecidableEq, Repr

inductive AskBid where
  | unspecified
  | ask
  | bid
  deriving DecidableEq, Repr

inductive StreamType where
  | unspecified
  | snapshot
  | realtime
  deriving DecidableEq, Repr

/-- `google.protobuf.Timestamp`. -/
structure Timestamp where
  seconds : Int
  nanos : Int
  deriving DecidableEq, Repr

structure Trade where
  exchange : Exchange
  code : String
  tradePrice : Binary64
  tradeVolume : Binary64
  askBid : AskBid
  prevClosingPrice : Binary64
  change : ChangeType
  changePrice : Binary64
  tradeTimestamp : Timestamp
  sequentialId : Int
  streamType : StreamType
  receivedTimestamp : Timestamp
  deriving DecidableEq, Repr

structure OrderBookLevel where
  price : Binary64
  size : Binary64
  deriving DecidableEq, Repr

structure OrderBookUpdate where
  exchange : Exchange
  code : String
  totalAskSize : Binary64
  totalBidSize : Binary64
  asks : List OrderBookLevel
  bids : List OrderBookLevel
  streamType : StreamType
  eventTimestamp : Timestamp
  receivedTimestamp : Timestamp
  deriving DecidableEq, Repr

/-! ## Setting fields -/

/-- The number of a numeric value, as a double, if it has one. -/
def number : Json → Option Binary64
  | .bool b => some (if b then Binary64.one else Binary64.zero)
  | .int n => Binary64.ofInt n
  | .float x => some x
  | _ => none

/-- The error for a value that has none: an integer is too large, anything else not a number. -/
def notNumber : Json → PyExn
  | .int _ => .overflowError
  | _ => .typeError ""

/-- A number wherever one is required. -/
def toDouble (v : Json) : Except PyExn Binary64 :=
  match number v with
  | some x => .ok x
  | none => .error (notNumber v)

/-- Setting a `double` field. -/
def doubleField : Json → Except PyExn Binary64
  | .null => .ok Binary64.zero
  | v => toDouble v

def int64Min : Int := -2 ^ 63
def int64Max : Int := 2 ^ 63 - 1

/-- A value for an `int64` field. -/
def int64 (n : Int) : Except PyExn Int :=
  if int64Min ≤ n ∧ n ≤ int64Max then .ok n else .error (.valueError "")

/-- Setting an `int64` field. -/
def int64Field : Json → Except PyExn Int
  | .null => .ok 0
  | .bool b => .ok b.toNat
  | .int n => int64 n
  | _ => .error (.typeError "")

/-- Setting a `string` field. -/
def stringField : Json → Except PyExn String
  | .null => .ok ""
  | .str s => .ok s
  | _ => .error (.typeError "")

theorem toDouble_ok {v : Json} {x : Binary64} : toDouble v = .ok x ↔ number v = some x := by
  unfold toDouble
  split
  · rename_i y hy; rw [hy]; simp
  · rename_i hn; rw [hn]; simp

/-- What a double field takes. -/
theorem doubleField_ok {v : Json} {x : Binary64} :
    doubleField v = .ok x ↔ number v = some x ∨ (v = .null ∧ x = Binary64.zero) := by
  cases v with
  | null => simp [doubleField, number, eq_comm]
  | _ => simp [doubleField, toDouble_ok]

/-! ## Timestamps -/

namespace Timestamp

/-- `Timestamp.FromDatetime`. -/
def fromDatetime (t : DateTime) : Timestamp :=
  ⟨t.micros / 1000000, t.micros % 1000000 * 1000⟩

/-- The `Timestamp` of a millisecond count. -/
def ofMillis (ms : Int) : Timestamp := ⟨ms / 1000, ms % 1000 * 1000000⟩

/-- **By way of a date-time or directly, the result is the same.** -/
theorem fromDatetime_fromMillis {ms : Int} {t : DateTime} (h : DateTime.fromMillis .exact ms = some t) :
    fromDatetime t = ofMillis ms := by
  obtain ⟨_, hm⟩ := DateTime.fromMillis_eq_some.1 h
  unfold fromDatetime ofMillis
  rw [hm, Timestamp.mk.injEq]
  constructor <;> omega

end Timestamp

end FlinkPractices.Proto
