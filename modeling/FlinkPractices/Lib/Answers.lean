import FlinkPractices.Lib.AnyOrder

/-!
# A keyed process function as answers to the past

`answers` says what a stream of happenings is answered when each answer is a function of what
happened to its key before: no state and no timers.  It is the specification of an operator whose
state is no more than a summary of the past.

* `past` — what happened to one key, oldest first
* `answers ans before hs` — the happenings `hs`, each with the answer `ans` to its key's past;
  `before` is what happened before them (`answers_append` cuts the stream in two)
* `Answered` — the invariant: the log of the operator is `answers`, and the context of every key is
  what `J` tells of its past

Principal result: `run_answers`.  Where what is left of a key's past is told by its context (`J`),
and the answers are read off it, every run of the operator is `answers` of what happened.  To use it
one proves a single step of a single key: from `J` of the past to the answer, and to `J` of the past
with one happening more.

The operator is that of `Lib.AnyOrder`, so nothing is assumed of the order of elements and timers.
-/

set_option autoImplicit false

namespace FlinkPractices.Lib.TimedProcess

variable {κ ι ο σ : Type*} [DecidableEq κ] (F : TimedProcess κ ι ο σ)

/-- What happened to one key. -/
def past (k : κ) (hs : List (Happening κ ι)) : List (Happening κ ι) :=
  hs.filter (fun h => F.keyOf h = k)

variable (answer : List (Happening κ ι) → Happening κ ι → List ο)

/-- The happenings after `before`, each with the answer to its key's past. -/
def answers (before : List (Happening κ ι)) :
    List (Happening κ ι) → List (Entry (Happening κ ι) ο)
  | [] => []
  | h :: hs => ⟨h, answer (F.past (F.keyOf h) before) h⟩ :: answers (before ++ [h]) hs

variable {F answer}

theorem answers_append (before hs hs' : List (Happening κ ι)) :
    F.answers answer before (hs ++ hs') =
      F.answers answer before hs ++ F.answers answer (before ++ hs) hs' := by
  induction hs generalizing before with
  | nil => simp [answers]
  | cons h hs ih =>
    rw [List.cons_append, answers, answers, ih, List.cons_append, List.append_assoc]
    rfl

/-- The operator after `before`: its answers so far, and of each key the context that tells its
past. -/
structure Answered (F : TimedProcess κ ι ο σ)
    (answer : List (Happening κ ι) → Happening κ ι → List ο)
    (J : List (Happening κ ι) → Context σ → Prop) (before : List (Happening κ ι))
    (s : Unordered κ ι ο σ) : Prop where
  log : s.log = F.answers answer [] before
  context : ∀ k, J (F.past k before) (s.contexts k)

variable {J : List (Happening κ ι) → Context σ → Prop}

theorem past_concat (k : κ) (before : List (Happening κ ι)) (h : Happening κ ι) :
    F.past k (before ++ [h]) =
      if F.keyOf h = k then F.past k before ++ [h] else F.past k before := by
  unfold past
  rw [List.filter_append]
  split <;> simp [*]

theorem Answered.step
    (hJ : ∀ es c h c' output, F.react c h = some (c', output) → J es c →
      output = answer es h ∧ J (es ++ [h]) c')
    {before : List (Happening κ ι)} {s s' : Unordered κ ι ο σ} {h : Happening κ ι}
    (hi : Answered F answer J before s) (hs : F.step s h = some s') :
    Answered F answer J (before ++ [h]) s' := by
  obtain ⟨c, output, hr, rfl⟩ := step_some hs
  obtain ⟨rfl, hc⟩ := hJ _ _ _ _ _ hr (hi.context (F.keyOf h))
  constructor
  · show s.log ++ _ = _
    rw [hi.log, answers_append]
    rfl
  · intro k
    show J _ (Function.update s.contexts (F.keyOf h) c k)
    rw [past_concat]
    by_cases hk : F.keyOf h = k
    · subst hk
      rw [if_pos rfl, Function.update_self]
      exact hc
    · rw [if_neg hk, Function.update_of_ne (Ne.symm hk)]
      exact hi.context k

/-- **A run answers the past of each key.** -/
theorem run_answers (h₀ : J [] ⟨F.init, .empty⟩)
    (hJ : ∀ es c h c' output, F.react c h = some (c', output) → J es c →
      output = answer es h ∧ J (es ++ [h]) c')
    {hs : List (Happening κ ι)} {s : Unordered κ ι ο σ} (h : run F.step F.start hs = some s) :
    Answered F answer J hs s := by
  suffices hrun : ∀ before s₀, Answered F answer J before s₀ → run F.step s₀ hs = some s →
      Answered F answer J (before ++ hs) s from hrun [] F.start ⟨rfl, fun _ => h₀⟩ h
  clear h
  induction hs with
  | nil =>
    intro before s₀ hi h
    cases h
    rw [List.append_nil]
    exact hi
  | cons x hs ih =>
    intro before s₀ hi h
    obtain ⟨s₁, hs₁, h⟩ := run_cons_some h
    have hrest := ih (before ++ [x]) s₁ (hi.step hJ hs₁) h
    rwa [List.append_assoc] at hrest

end FlinkPractices.Lib.TimedProcess
