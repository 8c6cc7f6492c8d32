import FlinkPractices.Lib.DateTime

/-!
# Doubles with their special values

`Double` is a Python `float`: a finite double, an infinity or a NaN.

* `le` — `x <= y`: exact values are compared, in units of `2 ^ -1074`, and the answer is false as
  soon as a NaN takes part.  `≤` is this relation, with its decision procedure
* `toFixed2` — `format(x, ".2f")`: the exact value rounded to two decimals, ties to even

`≤` is no order in the sense of Mathlib: it is not reflexive at a NaN, so there is no instance of
`Preorder`, and none of its lemmas may be used.  What does hold is stated by hand:

* `finite_le` — of finite doubles it is the order of their values
* `not_le_of_lt` — no number lies below the lower and above the upper of two bounds, NaN included;
  a classification by two thresholds is exclusive for that reason

Arithmetic is left out: amounts that a program only compares and prints need none.
-/

set_option autoImplicit false

namespace FlinkPractices.Lib

inductive Double where
  | finite (x : Binary64)
  | infinity (negative : Bool)
  | nan
  deriving DecidableEq, Repr

namespace Double

/-- `x <= y`. -/
def le : Double → Double → Bool
  | .finite x, .finite y => decide (x.units ≤ y.units)
  | .infinity n, .finite _ => n
  | .finite _, .infinity n => !n
  | .infinity m, .infinity n => m || !n
  | .nan, _ => false
  | _, .nan => false

instance : LE Double := ⟨fun x y => le x y = true⟩

instance (x y : Double) : Decidable (x ≤ y) := inferInstanceAs (Decidable (le x y = true))

theorem finite_le {x y : Binary64} : Double.finite x ≤ .finite y ↔ x.units ≤ y.units :=
  decide_eq_true_iff

/-- No number lies below the lower and above the upper of two bounds. -/
theorem not_le_of_lt {x y : Binary64} (h : x.units < y.units) :
    ∀ {z : Double}, z ≤ .finite x → ¬Double.finite y ≤ z
  | .finite _, hx, hy => by
    have hx := finite_le.1 hx
    have hy := finite_le.1 hy
    omega
  | .infinity true, _, hy => Bool.noConfusion hy
  | .infinity false, hx, _ => Bool.noConfusion hx
  | .nan, hx, _ => Bool.noConfusion hx

/-- The digits of `n / 100`, two after the point. -/
def hundredths (n : Nat) : String :=
  toString (n / 100) ++ "." ++ toString (n % 100 / 10) ++ toString (n % 10)

/-- `format(x, ".2f")`: the exact value rounded to two decimals, ties to even. -/
def toFixed2 : Double → String
  | .finite x =>
    let digits := hundredths (DateTime.roundHalfEven (x.units.natAbs * 100) (2 ^ 1074)).toNat
    if x.word < 2 ^ 63 then digits else "-" ++ digits
  | .infinity n => if n then "-inf" else "inf"
  | .nan => "nan"

end Double

end FlinkPractices.Lib
