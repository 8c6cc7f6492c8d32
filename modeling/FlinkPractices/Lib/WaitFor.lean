import Mathlib.Data.Nat.Find
import Mathlib.Logic.Relation
import Mathlib.Order.WellFounded

/-!
# Who waits for whom

A wait-for relation is `Grounded` if no chain of waits goes on for ever.  Then no one waits for
himself, not even through others, and everybody waits, if at all, through others for somebody who
waits for nobody.

Two ways in which such a relation stays grounded as it grows:

* `Grounded.of_sinks` — the new waits are for those who wait for nobody;
* `Grounded.of_rank` — they go down in a rank, and the old ones do not go up.

And what it is good for:

* `Grounded.acyclic` — nobody waits for himself
* `Grounded.exists_end` — every chain of waits comes to an end

`eldest` helps to find a rank where those who wait are numbered: the greatest, up to a bound, of
those who wait for `t`, directly or through others, `t` included.  It does not go down along a wait
(`eldest_mono`), and is below whatever all of them are below (`eldest_lt`).
-/

set_option autoImplicit false

namespace FlinkPractices.Lib

open Relation

variable {τ : Type*} {W W' : τ → τ → Prop}

/-- No chain of waits goes on for ever. -/
def Grounded (W : τ → τ → Prop) : Prop := WellFounded (Function.swap W)

/-- Waits through others, when the new ones are for those (`N`) who wait for nobody. -/
theorem transGen_of_sinks {N : τ → Prop} (hW : ∀ t u, W' t u → W t u ∨ N u)
    (hN : ∀ t, N t → ∀ u, ¬W' t u) {t u : τ} (h : TransGen W' t u) : TransGen W t u ∨ N u := by
  induction h with
  | single hw => exact (hW _ _ hw).imp_left .single
  | @tail u v _ hw ih =>
    rcases hW u v hw with hold | hv
    · rcases ih with hu | hu
      · exact .inl (hu.tail hold)
      · exact absurd hw (hN u hu v)
    · exact .inr hv

namespace Grounded

theorem of_empty (h : ∀ t u, ¬W t u) : Grounded W :=
  ⟨fun t => .intro t fun u hw => absurd hw (h t u)⟩

/-- What is new is a wait for somebody who waits for nobody. -/
theorem of_sinks (h : Grounded W) (hW : ∀ t u, W' t u → W t u ∨ ∀ v, ¬W' u v) : Grounded W' := by
  refine ⟨fun t => h.induction t fun t ih => .intro t fun u hw => ?_⟩
  rcases hW t u hw with hold | hend
  · exact ih u hold
  · exact .intro u fun v hv => absurd hv (hend v)

/-- What is new goes down in the rank `g`, and what is old does not go up. -/
theorem of_rank (h : Grounded W) (g : τ → Nat)
    (hW : ∀ t u, W' t u → g u < g t ∨ g u = g t ∧ W t u) : Grounded W' := by
  have hlex : WellFounded (Prod.Lex (· < ·) (Function.swap W)) :=
    WellFounded.prod_lex Nat.lt_wfRel.wf h
  refine Subrelation.wf (fun {u t} hw => ?_) (InvImage.wf (fun t => (g t, t)) hlex)
  rcases hW t u hw with hlt | ⟨he, hold⟩
  · exact .left _ _ hlt
  · show Prod.Lex _ _ (g u, u) (g t, t)
    rw [he]
    exact .right _ hold

/-- Nobody waits for himself. -/
theorem acyclic (h : Grounded W) (t : τ) : ¬TransGen W t t := by
  intro hc
  have hwf : WellFounded (TransGen (Function.swap W)) := h.transGen
  have hswap : TransGen (Function.swap W) t t := transGen_swap.2 hc
  exact hwf.asymmetric t t hswap hswap

/-- **Every chain of waits comes to an end.** -/
theorem exists_end (h : Grounded W) (t : τ) : ∃ u, ReflTransGen W t u ∧ ∀ v, ¬W u v := by
  induction t using h.induction with | _ t ih => ?_
  by_cases hs : ∀ v, ¬W t v
  · exact ⟨t, .refl, hs⟩
  · simp only [Classical.not_forall, Classical.not_not] at hs
    obtain ⟨v, hv⟩ := hs
    obtain ⟨u, hu, hend⟩ := ih v hv
    exact ⟨u, hu.head hv, hend⟩

end Grounded

/-! ## The last to wait -/

section

variable {A : Nat → Nat → Prop} {n t u : Nat}

open Classical in
/-- Of those up to `n` who wait for `t`, the greatest. -/
noncomputable def eldest (A : Nat → Nat → Prop) (n t : Nat) : Nat :=
  Nat.findGreatest (fun a => ReflTransGen A a t) n

open Classical in
theorem eldest_le (t : Nat) : eldest A n t ≤ n := Nat.findGreatest_le n

open Classical in
theorem le_eldest (h : t ≤ n) : t ≤ eldest A n t := Nat.le_findGreatest h .refl

open Classical in
/-- Whoever waits for `t` waits for whomever `t` waits for. -/
theorem eldest_mono (h : A t u) : eldest A n t ≤ eldest A n u :=
  Nat.findGreatest_mono_left (fun _ ha => ReflTransGen.tail ha h) n

open Classical in
theorem eldest_lt {b : Nat} (hb : 0 < b) (h : ∀ a, ReflTransGen A a t → a < b) :
    eldest A n t < b := by
  by_cases hz : eldest A n t = 0
  · rw [hz]
    exact hb
  · exact h _ (Nat.findGreatest_of_ne_zero (P := fun a => ReflTransGen A a t) rfl hz)

end

end FlinkPractices.Lib
