import FlinkPractices.Lib.Binary64

/-!
# UTC date-times

Python's `datetime` in UTC: microseconds since the epoch, between the years 1 and 9999.

`fromMillis` and `fromMillisFloat` are `datetime.fromtimestamp(ms / 1000, tz=UTC)` of an integer and
of a double.  A `Division` says what becomes of the quotient:

* `double` — what Python does.  The quotient is rounded to a double (`Scaled.nearest`), `modf` takes
  its fraction off, the fraction times `1e6` is rounded to a double once more, and that to an
  integer, ties to even each time (`Scaled.micros`).
* `exact` — the exact quotient, rounded to the microsecond, ties to even.

Either way a result outside the years 1 to 9999 is an error; a quotient beyond the doubles, for
which Python raises earlier, is one of those.

A double on the way is a `Scaled` number, a significand and an exponent without upper bound, which
is enough where the result is checked afterwards.

Principal result: `fromMillis_eq_some` (which millisecond timestamps have an exact date-time, and
which one).  `str` is the text of a date-time, with the calendar it needs (`civil`).
-/

set_option autoImplicit false

namespace FlinkPractices.Lib

/-- `datetime(1, 1, 1, tzinfo=UTC)`. -/
def minMicros : Int := -62135596800000000

/-- One past `datetime(9999, 12, 31, 23, 59, 59, 999999, tzinfo=UTC)`. -/
def maxMicros : Int := 253402300800000000

structure DateTime where
  micros : Int
  ge : minMicros ≤ micros
  lt : micros < maxMicros
  deriving DecidableEq, Repr

namespace DateTime

/-- The epoch. -/
def epoch : DateTime := ⟨0, by decide, by decide⟩

def fromMicros (us : Int) : Option DateTime :=
  if h : minMicros ≤ us ∧ us < maxMicros then some ⟨us, h.1, h.2⟩ else none

/-- `n / d` to the nearest integer, ties to even. -/
def roundHalfEven (n : Int) (d : Nat) : Int :=
  let q := n / d
  let r := n % d
  if 2 * r > d ∨ (2 * r = d ∧ q % 2 = 1) then q + 1 else q

end DateTime

/-! ## Seconds as doubles -/

/-- The number `significand * 2 ^ exponent`. -/
structure Scaled where
  significand : Nat
  exponent : Int
  deriving DecidableEq, Repr

namespace Scaled

/-- The number is `num / den`. -/
def num (x : Scaled) : Nat := x.significand * 2 ^ x.exponent.toNat

def den (x : Scaled) : Nat := 2 ^ (-x.exponent).toNat

/-- The exponent of the leading bit of `n / d`. -/
def binade (n d : Nat) : Int :=
  let k : Int := n.log2 - d.log2
  if d * 2 ^ k.toNat ≤ n * 2 ^ (-k).toNat then k else k - 1

/-- The double nearest to `n / d`, ties to even: 53 bits, and fewer below the normal numbers.  The
exponent has no upper bound. -/
def nearest (n d : Nat) : Scaled :=
  let e := max (binade n d - 52) (-1074)
  ⟨(DateTime.roundHalfEven (n * 2 ^ (-e).toNat : Nat) (d * 2 ^ e.toNat)).toNat, e⟩

/-- A number of seconds in microseconds: `modf`, and the fraction times `1e6`, a double again,
rounded to the nearest integer. -/
def micros (x : Scaled) : Nat :=
  let fraction := nearest (x.num % x.den * 1000000) x.den
  x.num / x.den * 1000000 + (DateTime.roundHalfEven fraction.num fraction.den).toNat

-- 0.1, and its sum of bits as a fraction
example : nearest 1 10 = ⟨7205759403792794, -56⟩ := by decide +kernel
example : (nearest 1700000000123 1000).micros = 1700000000123000 := by decide +kernel

end Scaled

/-- How a number of seconds is divided. -/
inductive Division where
  | double
  | exact
  deriving DecidableEq, Repr

namespace DateTime

/-- `datetime.fromtimestamp(n / d, tz=UTC)`. -/
def fromSeconds : Division → Int → Nat → Option DateTime
  | .double, n, d => fromMicros (n.sign * (Scaled.nearest n.natAbs d).micros)
  | .exact, n, d => fromMicros (roundHalfEven (n * 1000000) d)

/-- `datetime.fromtimestamp(ms / 1000, tz=UTC)` of an integer. -/
def fromMillis (q : Division) (ms : Int) : Option DateTime := fromSeconds q ms 1000

/-- The same of a double. -/
def fromMillisFloat (q : Division) (ms : Binary64) : Option DateTime :=
  fromSeconds q ms.units (1000 * 2 ^ 1074)

-- in the year 2242 the doubles are too far apart for the microseconds
example : (fromMillis .double 8589934593001).map micros = some 8589934593000999 ∧
    (fromMillis .exact 8589934593001).map micros = some 8589934593001000 := by decide +kernel

/-- The date of a day since the epoch: year, month and day, in the proleptic Gregorian calendar.
Years begin in March, and eras of 400 years with the year 0. -/
def civil (day : Int) : Nat × Nat × Nat :=
  let n := (day + 719468).toNat
  let dayOfEra := n % 146097
  let yearOfEra := (dayOfEra - dayOfEra / 1460 + dayOfEra / 36524 - dayOfEra / 146096) / 365
  let dayOfYear := dayOfEra - (365 * yearOfEra + yearOfEra / 4 - yearOfEra / 100)
  let m := (5 * dayOfYear + 2) / 153
  let month := if m < 10 then m + 3 else m - 9
  let year := n / 146097 * 400 + yearOfEra
  (if month ≤ 2 then year + 1 else year, month, dayOfYear - (153 * m + 2) / 5 + 1)

/-- `n` in decimal, with zeros in front. -/
def zeroPad (width n : Nat) : String :=
  let s := Nat.repr n
  String.ofList (List.replicate (width - s.length) '0') ++ s

/-- `str(t)`. -/
def str (t : DateTime) : String :=
  let (year, month, day) := civil (t.micros / 86400000000)
  let us := (t.micros % 86400000000).toNat
  let seconds := us / 1000000
  zeroPad 4 year ++ "-" ++ zeroPad 2 month ++ "-" ++ zeroPad 2 day ++ " " ++
    zeroPad 2 (seconds / 3600) ++ ":" ++ zeroPad 2 (seconds / 60 % 60) ++ ":" ++
    zeroPad 2 (seconds % 60) ++
    (if us % 1000000 = 0 then "" else "." ++ zeroPad 6 (us % 1000000)) ++ "+00:00"

example : (DateTime.str ⟨1709210096000078, by decide, by decide⟩, DateTime.str epoch) =
    ("2024-02-29 12:34:56.000078+00:00", "1970-01-01 00:00:00+00:00") := by decide +kernel

/-- A whole number of microseconds is not rounded. -/
theorem roundHalfEven_millis (ms : Int) : roundHalfEven (ms * 1000000) 1000 = ms * 1000 := by
  have hq : ms * 1000000 / (1000 : Nat) = ms * 1000 := by omega
  have hr : ms * 1000000 % (1000 : Nat) = 0 := by omega
  unfold roundHalfEven
  dsimp only
  rw [hq, hr]
  exact if_neg (by omega)

/-- **The millisecond timestamps of the years 1 to 9999 are the ones with a date-time.** -/
theorem fromMillis_eq_some {ms : Int} {t : DateTime} :
    fromMillis .exact ms = some t ↔
      (-62135596800000 ≤ ms ∧ ms < 253402300800000) ∧ t.micros = ms * 1000 := by
  have hr : (minMicros ≤ ms * 1000 ∧ ms * 1000 < maxMicros) ↔
      (-62135596800000 ≤ ms ∧ ms < 253402300800000) := by
    unfold minMicros maxMicros; omega
  unfold fromMillis fromSeconds
  dsimp only
  rw [roundHalfEven_millis]
  unfold fromMicros
  split
  · rename_i h
    rw [Option.some.injEq]
    constructor
    · rintro rfl; exact ⟨hr.1 h, rfl⟩
    · rintro ⟨_, ht⟩; cases t; simp only at ht; subst ht; rfl
  · rename_i h
    exact iff_of_false nofun fun ht => h (hr.2 ht.1)

theorem fromMillis_isSome {ms : Int} :
    (∃ t, fromMillis .exact ms = some t) ↔ -62135596800000 ≤ ms ∧ ms < 253402300800000 := by
  constructor
  · rintro ⟨t, ht⟩; exact (fromMillis_eq_some.1 ht).1
  · intro h
    have hmin : minMicros ≤ ms * 1000 := by unfold minMicros; omega
    have hmax : ms * 1000 < maxMicros := by unfold maxMicros; omega
    exact ⟨⟨ms * 1000, hmin, hmax⟩, fromMillis_eq_some.2 ⟨h, rfl⟩⟩

end DateTime

end FlinkPractices.Lib
