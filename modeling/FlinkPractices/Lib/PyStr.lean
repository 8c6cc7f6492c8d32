import Mathlib.Data.List.Basic
import Mathlib.Tactic.TypeStar

/-!
# Upper-casing of Python strings

`str.upper()` maps each code point on its own to a string of code points (`"ß".upper() = "SS"`),
by a table that grows with the Unicode version.  `UpperTable` is such a table with the two facts
every version has: on ASCII it is the usual mapping, and upper-casing an upper-cased character
changes nothing.  Everything that upper-cases takes the table as a parameter, so that what is proved
holds of every version of Python.

Principal results:

* `upper_upper` — upper-casing is idempotent
* `upper_ascii` — on ASCII strings every table does the same; codes that are known to be ASCII can
  be evaluated

`asciiTable` knows the ASCII letters only; runs and counterexamples are evaluated with it.

`strip` and `startsWith` are the other operations on strings that the programs here use: `strip`
takes off what `str.isspace()` says is a space, which are the 29 code points of Unicode's
`White_Space` and of the bidirectional types that Python counts as such.
-/

set_option autoImplicit false

namespace FlinkPractices.Lib

/-- A full upper-case mapping of code points. -/
structure UpperTable where
  full : Char → List Char
  ascii : ∀ c : Char, c.toNat < 128 → full c = [c.toUpper]
  idem : ∀ c, ∀ d ∈ full c, full d = [d]

/-- `str.upper()`. -/
def upper (U : UpperTable) (s : String) : String := String.ofList (s.toList.flatMap U.full)

variable {U : UpperTable}

theorem flatMap_full_idem (U : UpperTable) : ∀ cs : List Char,
    (cs.flatMap U.full).flatMap U.full = cs.flatMap U.full
  | [] => rfl
  | c :: cs => by
    have hc : ∀ ds : List Char, (∀ d ∈ ds, U.full d = [d]) → ds.flatMap U.full = ds := by
      intro ds
      induction ds with
      | nil => intro _; rfl
      | cons d ds ih =>
        intro h
        rw [List.flatMap_cons, h d List.mem_cons_self,
          ih (fun e he => h e (List.mem_cons_of_mem _ he))]
        rfl
    rw [List.flatMap_cons, List.flatMap_append, flatMap_full_idem U cs, hc _ (U.idem c)]

/-- Upper-casing twice is upper-casing once. -/
theorem upper_upper (s : String) : upper U (upper U s) = upper U s := by
  unfold upper
  rw [String.toList_ofList, flatMap_full_idem]

theorem toUpper_toUpper (c : Char) : c.toUpper.toUpper = c.toUpper := by
  unfold Char.toUpper
  split
  · rename_i h
    have h₁ : ('a'.val ≤ c.val) := h.1
    have h₂ : (c.val ≤ 'z'.val) := h.2
    have a₁ := UInt32.le_iff_toNat_le.1 h₁
    have a₂ := UInt32.le_iff_toNat_le.1 h₂
    rw [dif_neg]
    rintro ⟨b₁, _⟩
    have b₁ := UInt32.le_iff_toNat_le.1 b₁
    rw [UInt32.toNat_add] at b₁
    simp at a₁ a₂ b₁
    omega
  · rfl

/-- `str.isspace()` of one code point. -/
def isSpace (c : Char) : Bool :=
  let n := c.toNat
  (9 ≤ n && n ≤ 13) || (28 ≤ n && n ≤ 32) || n == 0x85 || n == 0xA0 || n == 0x1680 ||
    (0x2000 ≤ n && n ≤ 0x200A) || n == 0x2028 || n == 0x2029 || n == 0x202F || n == 0x205F ||
    n == 0x3000

/-- `str.strip()`. -/
def strip (s : String) : String :=
  String.ofList (((s.toList.dropWhile isSpace).reverse.dropWhile isSpace).reverse)

/-- `s.startswith(p)`. -/
def startsWith (s p : String) : Bool := p.toList.isPrefixOf s.toList

/-- On ASCII strings every table does the same. -/
theorem upper_ascii (U : UpperTable) {s : String} (h : ∀ c ∈ s.toList, c.toNat < 128) :
    upper U s = String.ofList (s.toList.map Char.toUpper) := by
  have hflat : ∀ cs : List Char, (∀ c ∈ cs, c.toNat < 128) →
      cs.flatMap U.full = cs.map Char.toUpper := by
    intro cs
    induction cs with
    | nil => intro _; rfl
    | cons c cs ih =>
      intro hc
      rw [List.flatMap_cons, U.ascii c (hc c List.mem_cons_self),
        ih fun d hd => hc d (List.mem_cons_of_mem c hd)]
      rfl
  rw [upper, hflat _ h]

/-- The table that knows the ASCII letters only. -/
def asciiTable : UpperTable where
  full c := [c.toUpper]
  ascii _ _ := rfl
  idem c d hd := by
    rw [List.mem_singleton] at hd
    rw [hd, toUpper_toUpper]

end FlinkPractices.Lib
