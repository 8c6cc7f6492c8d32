import FlinkPractices.Lib.KeyedProcess

/-!
# Keyed process functions in any order

The operator of `KeyedProcess` without its clock: elements come in any order of their times, and a
registered timer fires at any moment, once.  `on_timer` may emit, too; what happened and what was
emitted is logged, oldest first.

* `Happening` — an element, or a timer of one key; `react` is what it does to the context of its key
* `Unordered`, `step` — the contexts of all keys, and the log

Two rules:

* `run_keyed` — what holds of one key alone, and is kept by what happens to this key, holds of every
  key of every run.  The assertion `J` speaks of the key's own history and context; that other keys
  leave it alone is the frame rule `keyed_step`.
* `run_timed` — for each key, a run of `KeyedProcess.step`, with its watermarks, is a run in some
  order: of a watermark, the timers that are due fire one after the other (`run_timers`).

So a property of the runs in any order is one of the runs with watermarks, key by key.  The orders
of different keys need not fit together, and `Mirrors` speaks of one key at a time for that reason.
-/

set_option autoImplicit false

namespace FlinkPractices.Lib

structure TimedProcess (κ ι ο σ : Type*) where
  key : ι → κ
  init : σ
  processElement : ι → Context σ → Context σ × List ο
  onTimer : Int → σ → σ × List ο

/-- An element of its key is processed, or a timer of the key `k` fires. -/
inductive Happening (κ ι : Type*) where
  | element (x : ι)
  | timer (k : κ) (t : Int)

/-- The keys, and what happened, oldest first. -/
structure Unordered (κ ι ο σ : Type*) where
  contexts : κ → Context σ
  log : List (Entry (Happening κ ι) ο)

namespace TimedProcess

variable {κ ι ο σ : Type*} [DecidableEq κ] (F : TimedProcess κ ι ο σ)

def start : Unordered κ ι ο σ := ⟨fun _ => ⟨F.init, .empty⟩, []⟩

def keyOf : Happening κ ι → κ
  | .element x => F.key x
  | .timer k _ => k

/-- What happens to the key; only a registered timer fires, and it is registered no longer. -/
def react (c : Context σ) : Happening κ ι → Option (Context σ × List ο)
  | .element x => some (F.processElement x c)
  | .timer _ t =>
    if t ∈ c.timers then
      let (s, output) := F.onTimer t c.state
      some (⟨s, c.timers.delete t⟩, output)
    else none

def step (s : Unordered κ ι ο σ) (h : Happening κ ι) : Option (Unordered κ ι ο σ) :=
  (F.react (s.contexts (F.keyOf h)) h).map fun r =>
    ⟨Function.update s.contexts (F.keyOf h) r.1, s.log ++ [⟨h, r.2⟩]⟩

/-- What happened to one key, oldest first. -/
def history (k : κ) (log : List (Entry (Happening κ ι) ο)) : List (Entry (Happening κ ι) ο) :=
  log.filter (fun e => F.keyOf e.element = k)

variable {F}

theorem step_some {s s' : Unordered κ ι ο σ} {h : Happening κ ι} (hs : F.step s h = some s') :
    ∃ c output, F.react (s.contexts (F.keyOf h)) h = some (c, output) ∧
      s' = ⟨Function.update s.contexts (F.keyOf h) c, s.log ++ [⟨h, output⟩]⟩ := by
  obtain ⟨r, hr, rfl⟩ := Option.map_eq_some_iff.1 hs
  exact ⟨r.1, r.2, hr, rfl⟩

theorem step_of_react {s : Unordered κ ι ο σ} {h : Happening κ ι} {c : Context σ}
    {output : List ο} (hr : F.react (s.contexts (F.keyOf h)) h = some (c, output)) :
    F.step s h =
      some ⟨Function.update s.contexts (F.keyOf h) c, s.log ++ [⟨h, output⟩]⟩ := by
  unfold step
  rw [hr]
  rfl

theorem history_concat_self (log : List (Entry (Happening κ ι) ο)) (h : Happening κ ι)
    (output : List ο) :
    F.history (F.keyOf h) (log ++ [⟨h, output⟩]) = F.history (F.keyOf h) log ++ [⟨h, output⟩] := by
  simp [history]

theorem history_concat_other {k : κ} {h : Happening κ ι} (hk : F.keyOf h ≠ k)
    (log : List (Entry (Happening κ ι) ο)) (output : List ο) :
    F.history k (log ++ [⟨h, output⟩]) = F.history k log := by
  simp [history, hk]

/-! ## One key at a time -/

/-- **Frame rule.**  What happens to another key keeps `J k`. -/
theorem keyed_step {J : κ → List (Entry (Happening κ ι) ο) → Context σ → Prop}
    (hJ : ∀ k es c h c' output, F.keyOf h = k → F.react c h = some (c', output) → J k es c →
      J k (es ++ [⟨h, output⟩]) c')
    {s s' : Unordered κ ι ο σ} {h : Happening κ ι} (hs : F.step s h = some s')
    (hi : ∀ k, J k (F.history k s.log) (s.contexts k)) (k : κ) :
    J k (F.history k s'.log) (s'.contexts k) := by
  obtain ⟨c, output, hr, rfl⟩ := step_some hs
  by_cases hk : F.keyOf h = k
  · subst hk
    show J _ (F.history _ (_ ++ [_])) (Function.update s.contexts _ _ _)
    rw [history_concat_self, Function.update_self]
    exact hJ _ _ _ _ _ _ rfl hr (hi _)
  · show J _ (F.history _ (_ ++ [_])) (Function.update s.contexts _ _ _)
    rw [history_concat_other hk, Function.update_of_ne (Ne.symm hk)]
    exact hi k

/-- **Frame rule for runs.** -/
theorem run_keyed {J : κ → List (Entry (Happening κ ι) ο) → Context σ → Prop}
    (h₀ : ∀ k, J k [] ⟨F.init, .empty⟩)
    (hJ : ∀ k es c h c' output, F.keyOf h = k → F.react c h = some (c', output) → J k es c →
      J k (es ++ [⟨h, output⟩]) c')
    {hs : List (Happening κ ι)} {s : Unordered κ ι ο σ} (h : run F.step F.start hs = some s)
    (k : κ) : J k (F.history k s.log) (s.contexts k) := by
  have hstart : ∀ k, J k (F.history k F.start.log) (F.start.contexts k) := h₀
  exact run_invariant
    (P := fun s : Unordered κ ι ο σ => ∀ k, J k (F.history k s.log) (s.contexts k))
    (fun _ _ _ hi hs => keyed_step hJ hs hi) hstart h k

/-! ## Watermarks -/

/-- The elements of the log, and what they emitted. -/
def elements (log : List (Entry (Happening κ ι) ο)) : List (Entry ι ο) :=
  log.filterMap fun e =>
    match e.element with
    | .element x => some ⟨x, e.output⟩
    | .timer _ _ => none

omit [DecidableEq κ] in
theorem elements_append (log log' : List (Entry (Happening κ ι) ο)) :
    elements (log ++ log') = elements log ++ elements log' :=
  List.filterMap_append ..

end TimedProcess

/-- A process function whose timers emit nothing. -/
def KeyedProcess.timed {κ ι ο σ : Type*} (G : KeyedProcess κ ι ο σ) : TimedProcess κ ι ο σ where
  key := G.key
  init := G.init
  processElement := G.processElement
  onTimer t s := (G.onTimer t s, [])

namespace TimedProcess

variable {κ ι ο σ : Type*} [DecidableEq κ] {G : KeyedProcess κ ι ο σ}

/-- Timers of one key fire one after the other. -/
theorem run_timers {k : κ} {ts : List Int} {u : Unordered κ ι ο σ}
    (hts : ∀ t ∈ ts, t ∈ (u.contexts k).timers) (hn : ts.Nodup) :
    ∃ u', run G.timed.step u (ts.map (.timer k)) = some u' ∧
      u'.contexts k = ⟨ts.foldl (fun s t => G.onTimer t s) (u.contexts k).state,
        ts.foldl Timers.delete (u.contexts k).timers⟩ ∧
      elements (G.timed.history k u'.log) = elements (G.timed.history k u.log) := by
  induction ts generalizing u with
  | nil => exact ⟨u, rfl, rfl, rfl⟩
  | cons t ts ih =>
    obtain ⟨hnt, hn⟩ := List.nodup_cons.1 hn
    have hr : G.timed.react (u.contexts k) (.timer k t) =
        some (⟨G.onTimer t (u.contexts k).state, (u.contexts k).timers.delete t⟩, []) :=
      if_pos (hts t List.mem_cons_self)
    have hs := step_of_react (F := G.timed) (s := u) (h := .timer k t) hr
    generalize hu₁ : (⟨Function.update u.contexts (G.timed.keyOf (.timer k t)) _,
      u.log ++ [⟨.timer k t, []⟩]⟩ : Unordered κ ι ο σ) = u₁ at hs
    have hk : u₁.contexts k =
        ⟨G.onTimer t (u.contexts k).state, (u.contexts k).timers.delete t⟩ := by
      rw [← hu₁]
      exact Function.update_self ..
    have hlog : elements (G.timed.history k u₁.log) = elements (G.timed.history k u.log) := by
      rw [← hu₁]
      show elements (G.timed.history (G.timed.keyOf (.timer k t)) (u.log ++ [_])) = _
      rw [history_concat_self, elements_append]
      exact List.append_nil _
    have hrest : ∀ v ∈ ts, v ∈ (u₁.contexts k).timers := by
      intro v hv
      have hne : v ≠ t := by
        rintro rfl
        exact hnt hv
      rw [hk]
      exact Timers.mem_delete.2 ⟨hts v (List.mem_cons_of_mem t hv), hne⟩
    obtain ⟨u', hrun, hcontext, helements⟩ := ih hrest hn
    rw [hk] at hcontext
    exact ⟨u', (run_cons_of_step hs _).trans hrun, hcontext, helements.trans hlog⟩

/-- `u` has gone through what happened to the key `k` of `s`. -/
structure Mirrors (k : κ) (s : Operator κ ι ο σ) (u : Unordered κ ι ο σ) : Prop where
  context : u.contexts k = s.contexts k
  elements : elements (G.timed.history k u.log) = (G.history k s.log).reverse

theorem mirrors_start (k : κ) : Mirrors (G := G) k G.start G.timed.start := ⟨rfl, rfl⟩

/-- An element of the key is processed as it is. -/
theorem Mirrors.element {s : Operator κ ι ο σ} {u : Unordered κ ι ο σ} {x : ι}
    (h : Mirrors (G := G) (G.key x) s u) (w : Option Int) :
    ∃ u', run G.timed.step u [.element x] = some u' ∧ Mirrors (G := G) (G.key x)
      ⟨Function.update s.contexts (G.key x) (G.processElement x (s.contexts (G.key x))).1, w,
        ⟨x, (G.processElement x (s.contexts (G.key x))).2⟩ :: s.log⟩ u' := by
  have hs : G.timed.step u (.element x) =
      some ⟨Function.update u.contexts (G.key x) (G.processElement x (u.contexts (G.key x))).1,
        u.log ++ [⟨.element x, (G.processElement x (u.contexts (G.key x))).2⟩]⟩ := step_of_react rfl
  rw [h.context] at hs
  refine ⟨_, run_cons_of_step hs [], ⟨?_, ?_⟩⟩
  · show Function.update _ _ _ _ = Function.update _ _ _ _
    rw [Function.update_self, Function.update_self]
  · show TimedProcess.elements (G.timed.history (G.timed.keyOf (.element x)) (u.log ++ [_])) =
      (G.history (G.key x) (_ :: s.log)).reverse
    rw [history_concat_self, elements_append, KeyedProcess.history_cons_self, List.reverse_cons]
    exact congrArg (· ++ _) h.elements

/-- Of a watermark, the timers that are due fire one after the other. -/
theorem Mirrors.watermark {k : κ} {s : Operator κ ι ο σ} {u : Unordered κ ι ο σ}
    (h : Mirrors (G := G) k s u) (w : Int) :
    ∃ hs u', run G.timed.step u hs = some u' ∧
      Mirrors (G := G) k ⟨fun k => G.fire w (s.contexts k), some w, s.log⟩ u' := by
  have hdue : ∀ t ∈ (s.contexts k).timers.due w, t ∈ (u.contexts k).timers := by
    intro t ht
    rw [h.context]
    exact (Timers.mem_due.1 ht).1
  have hn : ((s.contexts k).timers.due w).Nodup :=
    ((s.contexts k).timers.sorted.imp fun hlt => Int.ne_of_lt hlt).filter _
  obtain ⟨u', hrun, hcontext, helements⟩ := run_timers hdue hn
  rw [h.context, Timers.foldl_delete_due] at hcontext
  exact ⟨_, u', hrun, ⟨hcontext, helements.trans h.elements⟩⟩

theorem Mirrors.step {k : κ} {s s' : Operator κ ι ο σ} {u : Unordered κ ι ο σ} {l : Event ι}
    (h : Mirrors (G := G) k s u) (hs : G.step s l = some s') :
    ∃ hs u', run G.timed.step u hs = some u' ∧ Mirrors (G := G) k s' u' := by
  cases l with
  | element x =>
    obtain ⟨-, rfl⟩ := KeyedProcess.step_element hs
    by_cases hk : G.key x = k
    · subst hk
      exact ⟨_, h.element s.watermark⟩
    · refine ⟨[], u, rfl, ⟨?_, ?_⟩⟩
      · exact h.context.trans (Function.update_of_ne (Ne.symm hk) _ _).symm
      · show _ = (G.history k (_ :: s.log)).reverse
        rw [KeyedProcess.history_cons_other hk]
        exact h.elements
  | watermark w =>
    obtain ⟨-, rfl⟩ := KeyedProcess.step_watermark hs
    exact h.watermark w

/-- **A run with watermarks is a run in some order**, for each key by itself. -/
theorem run_timed {ls : List (Event ι)} {s : Operator κ ι ο σ}
    (h : run G.step G.start ls = some s) (k : κ) :
    ∃ hs u, run G.timed.step G.timed.start hs = some u ∧ Mirrors (G := G) k s u :=
  run_simulation (R := Mirrors k) (fun _ _ _ _ hm hs => hm.step hs) (mirrors_start k) h

end TimedProcess

end FlinkPractices.Lib
