import FlinkPractices.Lib.AnyOrder

/-!
# The end of a bounded input

A source without watermarks: the elements are processed in their order, and no timer fires before
the input is over.  The final watermark then fires the timers that are left, of whichever key and in
whichever order, until none is.

* `Firings` — a run in which timers fire and nothing else happens
* `Drained` — no timer is left
* `Executes xs s` — `xs` is processed and then its timers, and `s` is left

Principal result: `exists_executes` (every input is processed, and its timers come to an end).

It needs that a timer that fires registers no others, which the operator of `Lib.AnyOrder` takes of
every process function.  The proof is by one key at a time: the timers of one key fire one after the
other, and give another key none (`exists_drained_key`); only the finitely many keys of the input
have any (`exists_drained`).

There are as many ways to drain the timers as there are orders of the keys; what all of them have in
common is for the user to say, of any `s` with `Executes xs s`.
-/

set_option autoImplicit false

namespace FlinkPractices.Lib.TimedProcess

variable {κ ι ο σ : Type*} [DecidableEq κ] (F : TimedProcess κ ι ο σ)

/-- Timers fire, and nothing else happens. -/
def Firings (hs : List (Happening κ ι)) : Prop := ∀ h ∈ hs, ∃ k t, h = .timer k t

/-- No timer is left. -/
def Drained (s : Unordered κ ι ο σ) : Prop := ∀ k, (s.contexts k).timers.times = []

/-- `xs` is processed, and then its timers: `s` is left. -/
def Executes (xs : List ι) (s : Unordered κ ι ο σ) : Prop :=
  ∃ ends, Firings ends ∧ run F.step F.start (xs.map .element ++ ends) = some s ∧ Drained s

variable {F}

/-- Elements are processed, and concern their keys alone. -/
theorem run_elements (xs : List ι) (s : Unordered κ ι ο σ) :
    ∃ s', run F.step s (xs.map .element) = some s' ∧
      ∀ k, k ∉ xs.map F.key → s'.contexts k = s.contexts k := by
  induction xs generalizing s with
  | nil => exact ⟨s, rfl, fun _ _ => rfl⟩
  | cons x xs ih =>
    have hx := step_of_react (F := F) (s := s) (h := .element x) rfl
    obtain ⟨s', hrun, hother⟩ := ih
      ⟨Function.update s.contexts (F.key x) (F.processElement x (s.contexts (F.key x))).1,
        s.log ++ [⟨.element x, (F.processElement x (s.contexts (F.key x))).2⟩]⟩
    refine ⟨s', (run_cons_of_step hx _).trans hrun, fun k hk => ?_⟩
    rw [List.map_cons, List.mem_cons, not_or] at hk
    exact (hother k hk.2).trans (Function.update_of_ne hk.1 _ _)

/-- The timers of one key fire one after the other; another key gets none by it. -/
theorem exists_drained_key (k : κ) (s : Unordered κ ι ο σ) :
    ∃ ends s', Firings ends ∧ run F.step s ends = some s' ∧ (s'.contexts k).timers.times = [] ∧
      ∀ j, j ≠ k → s'.contexts j = s.contexts j := by
  generalize hts : (s.contexts k).timers.times = ts
  induction ts generalizing s with
  | nil => exact ⟨[], s, by simp [Firings], rfl, hts, fun _ _ => rfl⟩
  | cons t ts ih =>
    have ht : t ∈ (s.contexts k).timers := by
      show t ∈ (s.contexts k).timers.times
      rw [hts]
      exact List.mem_cons_self
    have hr : F.react (s.contexts k) (.timer k t) =
        some (⟨(F.onTimer t (s.contexts k).state).1, (s.contexts k).timers.delete t⟩,
          (F.onTimer t (s.contexts k).state).2) := if_pos ht
    have hs := step_of_react (F := F) (s := s) (h := .timer k t) hr
    have hrest : ((s.contexts k).timers.delete t).times = ts := by
      have hsorted := (s.contexts k).timers.sorted
      rw [hts] at hsorted
      show (s.contexts k).timers.times.filter _ = ts
      rw [hts, List.filter_cons_of_neg (by simp)]
      apply List.filter_eq_self.2
      intro u hu
      have hlt := (List.pairwise_cons.1 hsorted).1 u hu
      simp only [decide_eq_true_eq]
      omega
    generalize hs₁ : (⟨Function.update s.contexts (F.keyOf (.timer k t)) _, _⟩ :
      Unordered κ ι ο σ) = s₁ at hs
    have hk : s₁.contexts k = ⟨(F.onTimer t (s.contexts k).state).1,
        (s.contexts k).timers.delete t⟩ := by
      rw [← hs₁]
      exact Function.update_self ..
    have hother : ∀ j, j ≠ k → s₁.contexts j = s.contexts j := by
      intro j hj
      rw [← hs₁]
      exact Function.update_of_ne hj _ _
    obtain ⟨ends, s', hends, hrun, hempty, hframe⟩ := ih s₁ (by rw [hk]; exact hrest)
    refine ⟨.timer k t :: ends, s', ?_, (run_cons_of_step hs _).trans hrun, hempty, ?_⟩
    · intro h hh
      rcases List.mem_cons.1 hh with rfl | hh
      · exact ⟨k, t, rfl⟩
      · exact hends h hh
    · intro j hj
      exact (hframe j hj).trans (hother j hj)

/-- The timers of finitely many keys. -/
theorem exists_drained (ks : List κ) (s : Unordered κ ι ο σ)
    (hs : ∀ k, k ∉ ks → (s.contexts k).timers.times = []) :
    ∃ ends s', Firings ends ∧ run F.step s ends = some s' ∧ Drained s' := by
  induction ks generalizing s with
  | nil => exact ⟨[], s, by simp [Firings], rfl, fun k => hs k List.not_mem_nil⟩
  | cons k ks ih =>
    obtain ⟨ends₁, s₁, he₁, hr₁, hk, hframe⟩ := exists_drained_key k s
    have hs₁ : ∀ j, j ∉ ks → (s₁.contexts j).timers.times = [] := by
      intro j hj
      by_cases hjk : j = k
      · subst hjk
        exact hk
      · rw [hframe j hjk]
        exact hs j (by simp [hj, hjk])
    obtain ⟨ends₂, s₂, he₂, hr₂, hd⟩ := ih s₁ hs₁
    refine ⟨ends₁ ++ ends₂, s₂, fun h hh => ?_, run_append_some hr₁ hr₂, hd⟩
    rcases List.mem_append.1 hh with hh | hh
    · exact he₁ h hh
    · exact he₂ h hh

/-- **Every input is processed to its end.** -/
theorem exists_executes (xs : List ι) : ∃ s, Executes F xs s := by
  obtain ⟨s₁, hr₁, hother⟩ := run_elements (F := F) xs F.start
  obtain ⟨ends, s, hends, hr₂, hd⟩ := exists_drained (xs.map F.key) s₁ fun k hk => by
    rw [hother k hk]
    rfl
  exact ⟨s, ends, hends, run_append_some hr₁ hr₂, hd⟩

end FlinkPractices.Lib.TimedProcess
