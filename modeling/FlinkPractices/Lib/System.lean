import Mathlib.Data.Option.Basic
import Mathlib.Logic.Relation

/-!
# Labelled systems: runs, invariants and exact step conditions

A system is a partial step function `step : σ → ι → Option σ` (a label names the task that
moves and what its environment answers, so a label has at most one successor).

* `run` — the state after a list of labels; `Reachable` — the end of some run.
* `Guarded G` — every step of the run meets the condition `G` on its label and on the state
  *before* it; `Always P` — every state the run passes through has `P`.

Principal results:

* `run_invariant`, `run_guarded_invariant` — the induction over a run, done once
* `run_collects` — the same with what the labels carry
* `run_countdown` — steps of one kind run out
* `run_guarded_simulation`, `run_simulation` — a run matched by a run of another system
* `always_of_guarded` — a condition under which a property holds throughout a run
* `always_iff_guarded` — the condition is exact, provided each step keeps the property iff it meets
  the condition

Nothing is assumed of the system, and no step is ever taken apart here: a result about all runs of a
program is one of these rules and a lemma about one step.
-/

set_option autoImplicit false

namespace FlinkPractices.Lib

variable {σ ι : Type*} (step : σ → ι → Option σ)

/-- The state after the labels `ls`; `none` if one of them is not enabled. -/
def run : σ → List ι → Option σ
  | s, [] => some s
  | s, l :: ls =>
    match step s l with
    | some s' => run s' ls
    | none => none

/-- Every step of the run meets `G` (a condition on the label and on the state before it). -/
def Guarded (G : σ → ι → Prop) : σ → List ι → Prop
  | _, [] => True
  | s, l :: ls => G s l ∧ ∀ s', step s l = some s' → Guarded G s' ls

/-- Every state of the run has `P`, the first and the last one included. -/
def Always (P : σ → Prop) : σ → List ι → Prop
  | s, [] => P s
  | s, l :: ls => P s ∧ ∀ s', step s l = some s' → Always P s' ls

/-- States at the end of some run from `s₀`. -/
def Reachable (s₀ s : σ) : Prop := ∃ ls, run step s₀ ls = some s

variable {step}

@[simp] theorem run_nil (s : σ) : run step s [] = some s := rfl

theorem run_cons_some {s s'' : σ} {l : ι} {ls : List ι} (h : run step s (l :: ls) = some s'') :
    ∃ s', step s l = some s' ∧ run step s' ls = some s'' := by
  simp only [run] at h
  split at h
  · rename_i s' hs; exact ⟨s', hs, h⟩
  · cases h

theorem run_cons_of_step {s s' : σ} {l : ι} (h : step s l = some s') (ls : List ι) :
    run step s (l :: ls) = run step s' ls := by
  simp only [run, h]

theorem run_append (s : σ) : ∀ ls ms : List ι,
    run step s (ls ++ ms) = (run step s ls).bind (fun s' => run step s' ms) := by
  intro ls
  induction ls generalizing s with
  | nil => intro ms; rfl
  | cons l ls ih =>
    intro ms
    cases h : step s l with
    | none => simp [run, h]
    | some s' => simp only [List.cons_append, run_cons_of_step h, ih]

theorem run_append_some {s s' s'' : σ} {ls ms : List ι} (h₁ : run step s ls = some s')
    (h₂ : run step s' ms = some s'') : run step s (ls ++ ms) = some s'' := by
  rw [run_append, h₁]; exact h₂

/-- **Invariant rule.**  What every step keeps, every run keeps. -/
theorem run_invariant {P : σ → Prop} (hP : ∀ s l s', P s → step s l = some s' → P s') :
    ∀ {ls : List ι} {s s' : σ}, P s → run step s ls = some s' → P s'
  | [], _, _, h, hr => by cases hr; exact h
  | _ :: _, _, _, h, hr => by
    obtain ⟨s₁, hs, hr⟩ := run_cons_some hr
    exact run_invariant hP (hP _ _ _ h hs) hr

theorem reachable_invariant {P : σ → Prop} (hP : ∀ s l s', P s → step s l = some s' → P s')
    {s₀ s : σ} (h₀ : P s₀) (h : Reachable step s₀ s) : P s := by
  obtain ⟨ls, hls⟩ := h
  exact run_invariant hP h₀ hls

/-- **Invariant rule under a step condition.** -/
theorem run_guarded_invariant {P : σ → Prop} {G : σ → ι → Prop}
    (hP : ∀ s l s', P s → G s l → step s l = some s' → P s') :
    ∀ {ls : List ι} {s s' : σ}, P s → Guarded step G s ls → run step s ls = some s' → P s'
  | [], _, _, h, _, hr => by cases hr; exact h
  | _ :: _, _, _, h, hg, hr => by
    obtain ⟨s₁, hs, hr⟩ := run_cons_some hr
    exact run_guarded_invariant hP (hP _ _ _ h hg.1 hs) (hg.2 _ hs) hr

theorem Guarded.cons {G : σ → ι → Prop} {s s' : σ} {l : ι} {ls : List ι} (hg : G s l)
    (hs : step s l = some s') (ht : Guarded step G s' ls) : Guarded step G s (l :: ls) :=
  ⟨hg, fun _ h => by rw [hs] at h; cases h; exact ht⟩

theorem Guarded.append {G : σ → ι → Prop} {s' : σ} {ms : List ι} :
    ∀ {ls : List ι} {s : σ}, Guarded step G s ls → run step s ls = some s' →
      Guarded step G s' ms → Guarded step G s (ls ++ ms)
  | [], _, _, hr, hm => by cases hr; exact hm
  | _ :: _, _, hg, hr, hm => by
    obtain ⟨s₁, hs, hr⟩ := run_cons_some hr
    exact .cons hg.1 hs ((hg.2 s₁ hs).append hr hm)

theorem Guarded.and {G H : σ → ι → Prop} :
    ∀ {ls : List ι} {s : σ}, Guarded step G s ls → Guarded step H s ls →
      Guarded step (fun s l => G s l ∧ H s l) s ls
  | [], _, _, _ => trivial
  | _ :: _, _, hg, hh => ⟨⟨hg.1, hh.1⟩, fun s' hs => Guarded.and (hg.2 s' hs) (hh.2 s' hs)⟩

theorem Always.head {P : σ → Prop} {s : σ} : ∀ {ls : List ι}, Always step P s ls → P s
  | [], h => h
  | _ :: _, h => h.1

/-- The last state of a run that always has `P` has `P`. -/
theorem Always.last {P : σ → Prop} : ∀ {ls : List ι} {s s' : σ}, Always step P s ls →
    run step s ls = some s' → P s'
  | [], _, _, h, hr => by cases hr; exact h
  | _ :: _, _, _, h, hr => by
    obtain ⟨s₁, hs, hr⟩ := run_cons_some hr
    exact Always.last (h.2 _ hs) hr

theorem Always.mono {P Q : σ → Prop} (h : ∀ s, P s → Q s) :
    ∀ {ls : List ι} {s : σ}, Always step P s ls → Always step Q s ls
  | [], _, hp => h _ hp
  | _ :: _, _, hp => ⟨h _ hp.1, fun s' hs => Always.mono h (hp.2 s' hs)⟩

/-- What the last state of a run has, and no step creates, the whole run has. -/
theorem always_of_last {P : σ → Prop} (hP : ∀ s l s', step s l = some s' → P s' → P s) :
    ∀ {ls : List ι} {s s' : σ}, run step s ls = some s' → P s' → Always step P s ls
  | [], _, _, hr, h => by cases hr; exact h
  | _ :: _, _, _, hr, h => by
    obtain ⟨s₁, hs, hr⟩ := run_cons_some hr
    have ha := always_of_last hP hr h
    refine ⟨hP _ _ _ hs ha.head, fun s₂ hs₂ => ?_⟩
    rw [hs] at hs₂; cases hs₂
    exact ha

/-- A property kept by every step that meets the condition holds throughout a guarded run. -/
theorem always_of_guarded {P : σ → Prop} {G : σ → ι → Prop}
    (hP : ∀ s l s', P s → G s l → step s l = some s' → P s') :
    ∀ {ls : List ι} {s : σ}, P s → Guarded step G s ls → Always step P s ls
  | [], _, h, _ => h
  | _ :: _, _, h, hg => ⟨h, fun s' hs => always_of_guarded hP (hP _ _ _ h hg.1 hs) (hg.2 s' hs)⟩

theorem Guarded.of_forall {G : σ → ι → Prop} (h : ∀ s l, G s l) :
    ∀ {ls : List ι} {s : σ}, Guarded step G s ls
  | [], _ => trivial
  | _ :: _, _ => ⟨h _ _, fun _ _ => Guarded.of_forall h⟩

/-- A condition that an invariant implies. -/
theorem Guarded.of_invariant {I : σ → Prop} {G : σ → ι → Prop}
    (hI : ∀ s l s', I s → step s l = some s' → I s') (hG : ∀ s l, I s → G s l) :
    ∀ {ls : List ι} {s : σ}, I s → Guarded step G s ls
  | [], _, _ => trivial
  | _ :: _, _, h => ⟨hG _ _ h, fun s' hs => Guarded.of_invariant hI hG (hI _ _ s' h hs)⟩

/-- A condition on the labels alone. -/
theorem Guarded.of_mem {H : ι → Prop} : ∀ {ls : List ι} {s : σ}, (∀ l ∈ ls, H l) →
    Guarded step (fun _ l => H l) s ls
  | [], _, _ => trivial
  | l :: _, _, h => ⟨h l List.mem_cons_self,
      fun _ _ => Guarded.of_mem fun m hm => h m (List.mem_cons_of_mem l hm)⟩

/-- **Invariant rule for a condition on the labels.** -/
theorem run_mem_invariant {P : σ → Prop} {H : ι → Prop}
    (hP : ∀ s l s', P s → H l → step s l = some s' → P s') {ls : List ι} {s s' : σ} (h : P s)
    (hl : ∀ l ∈ ls, H l) (hr : run step s ls = some s') : P s' :=
  run_guarded_invariant hP h (.of_mem hl) hr

/-- **Invariant rule with what the labels carry**, collected in their order. -/
theorem run_collects {α : Type*} {g : ι → Option α} {P : σ → List α → Prop} {G : σ → ι → Prop}
    (hP : ∀ s l s' xs, P s xs → G s l → step s l = some s' → P s' (xs ++ (g l).toList)) :
    ∀ {ls : List ι} {s s' : σ} {xs : List α}, P s xs → Guarded step G s ls →
      run step s ls = some s' → P s' (xs ++ ls.filterMap g)
  | [], s, s', xs, h, _, hr => by
    cases hr
    rwa [List.filterMap_nil, List.append_nil]
  | l :: ls, s, s', xs, h, hg, hr => by
    obtain ⟨s₁, hs, hr⟩ := run_cons_some hr
    have htail := run_collects hP (hP _ _ _ _ h hg.1 hs) (hg.2 s₁ hs) hr
    have hcons : (l :: ls).filterMap g = (g l).toList ++ ls.filterMap g := by
      cases hl : g l <;> simp [hl]
    rwa [hcons, ← List.append_assoc]

/-- **Countdown rule.**  If no step raises a rank, and the steps of one kind lower it, a run takes no
more steps of that kind than the rank goes down.  `I` is an invariant, and `P` is what is assumed of
the run throughout. -/
theorem run_countdown {I P : σ → Prop} {mine : ι → Bool} {rank : σ → Nat}
    (hI : ∀ s l s', I s → step s l = some s' → I s')
    (hrank : ∀ s l s', I s → P s → P s' → step s l = some s' →
      rank s' + (if mine l = true then 1 else 0) ≤ rank s) :
    ∀ {ls : List ι} {s s' : σ}, I s → Always step P s ls → run step s ls = some s' →
      ls.countP mine + rank s' ≤ rank s
  | [], _, _, _, _, hr => by
    cases hr
    exact Nat.le_of_eq (Nat.zero_add _)
  | l :: ls, s, s', hi, hp, hr => by
    obtain ⟨s₁, hs, hr⟩ := run_cons_some hr
    have htail := run_countdown hI hrank (hI _ _ _ hi hs) (hp.2 s₁ hs) hr
    have hhead := hrank s l s₁ hi hp.head (hp.2 s₁ hs).head hs
    rw [List.countP_cons]
    omega

/-! ## Simulation -/

section Simulation

variable {τ κ : Type*} {step' : τ → κ → Option τ} {R : σ → τ → Prop}

/-- **Simulation rule under step conditions.**  If every step that meets `G` is matched by steps
that meet `G'`, then so is every run. -/
theorem run_guarded_simulation {G : σ → ι → Prop} {G' : τ → κ → Prop}
    (hR : ∀ s t l s', R s t → G s l → step s l = some s' →
      ∃ ks t', run step' t ks = some t' ∧ Guarded step' G' t ks ∧ R s' t') :
    ∀ {ls : List ι} {s s' : σ} {t : τ}, R s t → Guarded step G s ls → run step s ls = some s' →
      ∃ ks t', run step' t ks = some t' ∧ Guarded step' G' t ks ∧ R s' t'
  | [], _, _, t, h, _, hr => by
    cases hr
    exact ⟨[], t, rfl, trivial, h⟩
  | _ :: _, _, _, _, h, hg, hr => by
    obtain ⟨s₁, hs, hr⟩ := run_cons_some hr
    obtain ⟨ks, t₁, hrun, hk, h₁⟩ := hR _ _ _ _ h hg.1 hs
    obtain ⟨ks', t', hrun', hk', h'⟩ := run_guarded_simulation hR h₁ (hg.2 s₁ hs) hr
    exact ⟨ks ++ ks', t', run_append_some hrun hrun', hk.append hrun hk', h'⟩

/-- **Simulation rule.** -/
theorem run_simulation
    (hR : ∀ s t l s', R s t → step s l = some s' → ∃ ks t', run step' t ks = some t' ∧ R s' t')
    {ls : List ι} {s s' : σ} {t : τ} (h : R s t) (hr : run step s ls = some s') :
    ∃ ks t', run step' t ks = some t' ∧ R s' t' := by
  have hguarded : ∀ s t l s', R s t → True → step s l = some s' →
      ∃ ks t', run step' t ks = some t' ∧ Guarded step' (fun _ _ => True) t ks ∧ R s' t' := by
    intro s t l s' h _ hs
    obtain ⟨ks, t', hrun, h'⟩ := hR s t l s' h hs
    exact ⟨ks, t', hrun, .of_forall fun _ _ => trivial, h'⟩
  obtain ⟨ks, t', hrun, -, h'⟩ :=
    run_guarded_simulation (G := fun _ _ => True) hguarded h (.of_forall fun _ _ => trivial) hr
  exact ⟨ks, t', hrun, h'⟩

end Simulation

/-- Two conditions that agree under an invariant hold of the same runs. -/
theorem guarded_iff {I : σ → Prop} {H G G' : σ → ι → Prop}
    (hI : ∀ s l s', I s → H s l → step s l = some s' → I s')
    (hG : ∀ s l s', I s → H s l → step s l = some s' → (G s l ↔ G' s l)) :
    ∀ {ls : List ι} {s s' : σ}, I s → Guarded step H s ls → run step s ls = some s' →
      (Guarded step G s ls ↔ Guarded step G' s ls)
  | [], _, _, _, _, _ => Iff.rfl
  | _ :: _, _, _, hi, hh, hr => by
    obtain ⟨s₁, hs, hr⟩ := run_cons_some hr
    have tail := guarded_iff hI hG (hI _ _ _ hi hh.1 hs) (hh.2 _ hs) hr
    refine and_congr (hG _ _ _ hi hh.1 hs) (forall_congr' fun s₂ => imp_congr_right fun hs₂ => ?_)
    rw [hs] at hs₂; cases hs₂
    exact tail

/-- **Exactness rule.**  Suppose that, under an invariant that steps meeting `G` keep, a step
from a state with `P` leads to a state with `P` iff it meets `G`.  Then a run (whose labels are
all enabled) always has `P` iff all of its steps meet `G`.  `H` is what is assumed of the steps
throughout. -/
theorem always_iff_guarded {I P : σ → Prop} {H G : σ → ι → Prop}
    (hI : ∀ s l s', I s → H s l → G s l → step s l = some s' → I s')
    (hG : ∀ s l s', I s → H s l → P s → step s l = some s' → (P s' ↔ G s l)) :
    ∀ {ls : List ι} {s s' : σ}, I s → P s → Guarded step H s ls → run step s ls = some s' →
      (Always step P s ls ↔ Guarded step G s ls)
  | [], _, _, _, hp, _, _ => ⟨fun _ => trivial, fun _ => hp⟩
  | l :: ls, s, s', hi, hp, hh, hr => by
    obtain ⟨s₁, hs, hr⟩ := run_cons_some hr
    have hstep := hG s l s₁ hi hh.1 hp hs
    have tail : G s l → (Always step P s₁ ls ↔ Guarded step G s₁ ls) := fun hg =>
      always_iff_guarded hI hG (hI _ _ _ hi hh.1 hg hs) (hstep.2 hg) (hh.2 _ hs) hr
    constructor
    · intro h
      have hg : G s l := hstep.1 (h.2 s₁ hs).head
      refine ⟨hg, fun s₂ hs₂ => ?_⟩
      rw [hs] at hs₂; cases hs₂
      exact (tail hg).1 (h.2 s₁ hs)
    · intro h
      refine ⟨hp, fun s₂ hs₂ => ?_⟩
      rw [hs] at hs₂; cases hs₂
      exact (tail h.1).2 (h.2 s₁ hs)

end FlinkPractices.Lib
