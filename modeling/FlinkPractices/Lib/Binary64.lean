import Mathlib.Algebra.Group.Int.Defs
import Mathlib.Algebra.Group.Nat.Defs
import Mathlib.Data.Nat.Log

/-!
# Finite double-precision numbers

A finite IEEE 754 binary64 number is its 64-bit word, with the bound that makes it finite as a
field: an infinity or a NaN cannot be built (`Lib.Double` adds them).

* `ofInt` — the conversion of an integer of any size: to the nearest double, ties to even, and
  nothing if that is not finite (`float(n)` and `PyFloat_AsDouble` raise `OverflowError`)
* `significand`, `magnitude` — its two halves: the rounded 53-bit significand, and the word made of
  it and the exponent.  A carry out of the significand runs into the exponent, where it belongs
* `units` — the exact value, in units of `2 ^ -1074`: an integer, so that values are compared and
  added without fractions
* `isZero` — `x == 0.0`, which both zeros are

The definitions are computable, and doubles in the runs and counterexamples of a development are
given by their words.  There are no operations but the conversion: a double that a program only
passes on needs no more.  `Lib.Exact` says which integers are converted without loss, and
`Lib.DateTime` divides.
-/

set_option autoImplicit false

namespace FlinkPractices.Lib

/-- A finite double, as its word: sign, 11 bits of exponent, 52 bits of fraction. -/
structure Binary64 where
  word : Nat
  word_lt : word < 2 ^ 64
  finite : word % 2 ^ 63 < 2047 * 2 ^ 52
  deriving DecidableEq, Repr

namespace Binary64

/-- `0.0`. -/
def zero : Binary64 := ⟨0, by decide, by decide⟩

/-- `1.0`. -/
def one : Binary64 := ⟨1023 * 2 ^ 52, by decide, by decide⟩

/-- The 53-bit significand of `n`, whose leading bit is bit `k`, rounded to nearest, ties to even.
It is `2 ^ 53` when the rounding carries. -/
def significand (n k : Nat) : Nat :=
  if k ≤ 52 then n * 2 ^ (52 - k)
  else
    let unit := 2 ^ (k - 52)
    let q := n / unit
    let r := n % unit
    if 2 * r > unit ∨ (2 * r = unit ∧ q % 2 = 1) then q + 1 else q

/-- The word of the double nearest to `n`, exponent range permitting: a carry out of the
significand runs into the exponent, where it belongs. -/
def magnitude (n : Nat) : Nat :=
  if n = 0 then 0
  else
    let k := Nat.log2 n
    (k + 1022) * 2 ^ 52 + significand n k

/-- `float(n)`. -/
def ofInt (n : Int) : Option Binary64 :=
  let m := magnitude n.natAbs
  if h : m < 2047 * 2 ^ 52 then
    if n < 0 then
      some ⟨2 ^ 63 + m, by omega, by omega⟩
    else
      some ⟨m, by omega, by omega⟩
  else none

/-- The exact value, in units of `2 ^ -1074`. -/
def units (x : Binary64) : Int :=
  let m : Nat := x.word % 2 ^ 63
  let e : Nat := m / 2 ^ 52
  let f : Nat := m % 2 ^ 52
  let u : Nat := if e = 0 then f else (2 ^ 52 + f) * 2 ^ (e - 1)
  if x.word < 2 ^ 63 then (u : Int) else -(u : Int)

/-- `x == 0.0`: both zeros. -/
def isZero (x : Binary64) : Bool := x.word % 2 ^ 63 == 0

example : ofInt 1 = some one := by decide
example : ofInt (2 ^ 53 + 1) = ofInt (2 ^ 53) := by decide
example : ofInt (2 ^ 53 + 3) = ofInt (2 ^ 53 + 4) := by decide

end Binary64

end FlinkPractices.Lib
