import FlinkPractices.Lib.Binary64

/-!
# Integers that a double holds

`Binary64.ofInt` rounds.  Principal result: `ofInt_exact` — an integer that is the value of some
double is converted without loss.  So a number that has been a double and is written and read again
as an integer comes back as it was, however large it is.

## Proof

* `units_eq`, `natAbs_units` — the value of a word is its sign and `absUnits`
* `absUnits_normal` — the word made of an exponent and a 53-bit significand means their product
* `dvd_of_absUnits` — a double whose leading bit is at place `k` is a multiple of the place of its
  last significant bit
* `log2_absUnits_lt` — and has its leading bit below bit 2098, so the exponent fits
* `significand_spec` — hence the significand of such an integer needs no rounding, and the word that
  is made of it is the one that the double has

All of it is about natural numbers and their leading bits (`Nat.log2`); no real number occurs.
-/

set_option autoImplicit false

namespace FlinkPractices.Lib.Binary64

/-- The absolute value, in units of `2 ^ -1074`, of the double with the word `w`, sign apart. -/
def absUnits (w : Nat) : Nat :=
  if w / 2 ^ 52 = 0 then w % 2 ^ 52 else (2 ^ 52 + w % 2 ^ 52) * 2 ^ (w / 2 ^ 52 - 1)

theorem units_eq (x : Binary64) :
    x.units = if x.word < 2 ^ 63 then (absUnits (x.word % 2 ^ 63) : Int)
      else -(absUnits (x.word % 2 ^ 63) : Int) := rfl

theorem natAbs_units (x : Binary64) : x.units.natAbs = absUnits (x.word % 2 ^ 63) := by
  rw [units_eq]
  split
  · exact Int.natAbs_natCast _
  · rw [Int.natAbs_neg]; exact Int.natAbs_natCast _

/-- The word made of an exponent and a 53-bit significand means their product. -/
theorem absUnits_normal {k s : Nat} (h : 2 ^ 52 ≤ s) (h' : s < 2 ^ 53) :
    absUnits ((k + 1022) * 2 ^ 52 + s) = s * 2 ^ (k + 1022) := by
  have hdiv : ((k + 1022) * 2 ^ 52 + s) / 2 ^ 52 = k + 1023 := by omega
  have hmod : ((k + 1022) * 2 ^ 52 + s) % 2 ^ 52 = s - 2 ^ 52 := by omega
  have hs : 2 ^ 52 + (s - 2 ^ 52) = s := by omega
  have hpos : ¬k + 1023 = 0 := by omega
  unfold absUnits
  rw [hdiv, hmod, if_neg hpos, hs, show k + 1023 - 1 = k + 1022 by omega]

/-- The leading bit of a product with a power of two. -/
theorem log2_mul_pow {s : Nat} (h : s ≠ 0) (e : Nat) : Nat.log2 (s * 2 ^ e) = Nat.log2 s + e := by
  have hne : s * 2 ^ e ≠ 0 := Nat.mul_ne_zero h (Nat.two_pow_pos e).ne'
  rw [Nat.log2_eq_iff hne, Nat.add_right_comm, Nat.pow_add, Nat.pow_add]
  constructor
  · exact Nat.mul_le_mul_right _ (Nat.log2_self_le h)
  · exact Nat.mul_lt_mul_of_pos_right Nat.lt_log2_self (Nat.two_pow_pos e)

theorem log2_normal {s : Nat} (h : 2 ^ 52 ≤ s) (h' : s < 2 ^ 53) : Nat.log2 s = 52 :=
  (Nat.log2_eq_iff (by omega)).2 ⟨h, h'⟩

/-- A finite double has its leading bit below bit 2098. -/
theorem log2_absUnits_lt {w : Nat} (h : w < 2047 * 2 ^ 52) : Nat.log2 (absUnits w) < 2098 := by
  have hfrac : w % 2 ^ 52 < 2 ^ 52 := Nat.mod_lt _ (by decide)
  unfold absUnits
  split
  · by_cases h0 : w % 2 ^ 52 = 0
    · rw [h0]; decide
    · have := (Nat.log2_lt h0).2 hfrac
      omega
  · rw [log2_mul_pow (by omega), log2_normal (by omega) (by omega)]
    omega

/-- A double that is `m` units of `2 ^ t`, where the leading bit of `m` is above bit 52, shows that
its bits below that one are zero. -/
theorem dvd_of_absUnits {w m t : Nat} (hk : 52 < Nat.log2 m) (h : absUnits w = m * 2 ^ t) :
    2 ^ (Nat.log2 m - 52) ∣ m := by
  have hm : m ≠ 0 := by rintro rfl; exact absurd hk (by decide)
  have hfrac : w % 2 ^ 52 < 2 ^ 52 := Nat.mod_lt _ (by decide)
  have hlog : Nat.log2 (absUnits w) = Nat.log2 m + t := by rw [h, log2_mul_pow hm]
  unfold absUnits at h hlog
  split at h
  · rename_i he
    rw [if_pos he] at hlog
    have hne : w % 2 ^ 52 ≠ 0 := by
      rw [h]; exact Nat.mul_ne_zero hm (Nat.two_pow_pos _).ne'
    have := (Nat.log2_lt hne).2 hfrac
    omega
  · rename_i he
    rw [if_neg he, log2_mul_pow (by omega), log2_normal (by omega) (by omega)] at hlog
    have hexp : w / 2 ^ 52 - 1 = Nat.log2 m - 52 + t := by omega
    rw [hexp, Nat.pow_add, ← Nat.mul_assoc] at h
    exact ⟨2 ^ 52 + w % 2 ^ 52, by
      rw [Nat.mul_comm, Nat.eq_of_mul_eq_mul_right (Nat.two_pow_pos t) h]⟩

/-- The significand of an integer that needs no rounding. -/
theorem significand_spec {m : Nat} (hm : m ≠ 0)
    (h : 52 < Nat.log2 m → 2 ^ (Nat.log2 m - 52) ∣ m) :
    2 ^ 52 ≤ significand m (Nat.log2 m) ∧ significand m (Nat.log2 m) < 2 ^ 53 ∧
      ∀ c, significand m (Nat.log2 m) * 2 ^ (Nat.log2 m + c) = m * 2 ^ (c + 52) := by
  have hlow := Nat.log2_self_le hm
  have hhigh : m < 2 ^ (Nat.log2 m + 1) := Nat.lt_log2_self
  generalize Nat.log2 m = k at *
  unfold significand
  by_cases hle : k ≤ 52
  · rw [if_pos hle]
    have h52 : 2 ^ k * 2 ^ (52 - k) = 2 ^ 52 := by rw [← Nat.pow_add]; congr 1; omega
    have h53 : 2 ^ (k + 1) * 2 ^ (52 - k) = 2 ^ 53 := by rw [← Nat.pow_add]; congr 1; omega
    refine ⟨?_, ?_, ?_⟩
    · exact h52 ▸ Nat.mul_le_mul_right _ hlow
    · exact h53 ▸ Nat.mul_lt_mul_of_pos_right hhigh (Nat.two_pow_pos _)
    · intro c
      rw [Nat.mul_assoc, ← Nat.pow_add, show 52 - k + (k + c) = c + 52 by omega]
  · obtain ⟨q, hq⟩ := h (by omega)
    have hpos : 0 < 2 ^ (k - 52) := Nat.two_pow_pos _
    have hdiv : m / 2 ^ (k - 52) = q := by rw [hq, Nat.mul_div_cancel_left _ hpos]
    have hmod : m % 2 ^ (k - 52) = 0 := by rw [hq, Nat.mul_mod_right]
    have hk : 2 ^ k = 2 ^ (k - 52) * 2 ^ 52 := by rw [← Nat.pow_add]; congr 1; omega
    have hk' : 2 ^ (k + 1) = 2 ^ (k - 52) * 2 ^ 53 := by rw [← Nat.pow_add]; congr 1; omega
    have hexact : (if k ≤ 52 then m * 2 ^ (52 - k)
        else
          let unit := 2 ^ (k - 52)
          let q := m / unit
          let r := m % unit
          if 2 * r > unit ∨ (2 * r = unit ∧ q % 2 = 1) then q + 1 else q) = q := by
      simp only [if_neg hle, hdiv, hmod]
      exact if_neg (by omega)
    rw [hexact]
    refine ⟨?_, ?_, ?_⟩
    · exact Nat.le_of_mul_le_mul_left (by rw [← hk, ← hq]; exact hlow) hpos
    · exact Nat.lt_of_mul_lt_mul_left (a := 2 ^ (k - 52)) (by rw [← hk', ← hq]; exact hhigh)
    · intro c
      rw [show k + c = k - 52 + (c + 52) by omega, Nat.pow_add, ← Nat.mul_assoc, Nat.mul_comm q,
        ← hq]

/-- **An integer that is the value of a double is converted to that value.** -/
theorem ofInt_exact {n : Int} {x : Binary64} (h : x.units = n * 2 ^ 1074) :
    ∃ y, ofInt n = some y ∧ y.units = n * 2 ^ 1074 := by
  have hpow : ∀ t, ((2 : Int) ^ t).natAbs = 2 ^ t := fun t => Int.natAbs_pow 2 t
  have habs : absUnits (x.word % 2 ^ 63) = n.natAbs * 2 ^ 1074 := by
    rw [← natAbs_units, h, Int.natAbs_mul, hpow]
  by_cases hn : n = 0
  · subst hn
    exact ⟨zero, rfl, (Int.zero_mul _).symm⟩
  have hm : n.natAbs ≠ 0 := Int.natAbs_ne_zero.2 hn
  obtain ⟨hlow, hhigh, hval⟩ := significand_spec hm fun hk => dvd_of_absUnits hk habs
  have hk : Nat.log2 n.natAbs + 1074 < 2098 := by
    rw [← log2_mul_pow hm, ← habs]; exact log2_absUnits_lt x.finite
  have hmag : magnitude n.natAbs =
      (Nat.log2 n.natAbs + 1022) * 2 ^ 52 + significand n.natAbs (Nat.log2 n.natAbs) := by
    rw [magnitude, if_neg hm]
  have hfin : magnitude n.natAbs < 2047 * 2 ^ 52 := by rw [hmag]; omega
  have hunits : (absUnits (magnitude n.natAbs) : Int) = n.natAbs * 2 ^ 1074 := by
    rw [hmag, absUnits_normal hlow hhigh, hval 1022, Int.natCast_mul, Int.natCast_pow]; rfl
  generalize (2 : Int) ^ 1074 = scale at hunits ⊢
  unfold ofInt
  rw [dif_pos hfin]
  by_cases hneg : n < 0
  · refine ⟨_, if_pos hneg, ?_⟩
    rw [units_eq, if_neg (by simp only; omega)]
    have hmod : (2 ^ 63 + magnitude n.natAbs) % 2 ^ 63 = magnitude n.natAbs := by omega
    simp only [hmod, hunits]
    rw [show (n.natAbs : Int) = -n by omega, Int.neg_mul, Int.neg_neg]
  · refine ⟨_, if_neg hneg, ?_⟩
    rw [units_eq, if_pos (by simp only; omega)]
    have hmod : magnitude n.natAbs % 2 ^ 63 = magnitude n.natAbs := Nat.mod_eq_of_lt (by omega)
    simp only [hmod, hunits]
    rw [show (n.natAbs : Int) = n by omega]

end FlinkPractices.Lib.Binary64
