import FlinkPractices.Fraud.Completeness
import FlinkPractices.Fraud.Soundness
import Mathlib.Data.List.Perm.Subperm

/-!
# What watermarks give the detector

A small transaction's minute is open until the watermark is past it (`MinuteOpen`).  Two things can
be said of the detector that hold whatever the schedule of the watermarks is.

*State is bounded.*  `held_of_run` — an account keeps state and timers for its open minutes only, at
most one timer for each, and nothing once all are over.

*Alerts are accurate up to the lag.*  `accurate_of_lag` — where the watermark lags by at most `d`
milliseconds, the small transaction of every alert lies at most a minute and `d` before it; if the
small transactions of every account are further apart than that (`Spaced`), no large one within a
minute goes unnoticed.

## Proof

* `Kept` — the timers of an account are those of its open minutes, and its flag is of one of them;
  kept by transactions (`kept_element`) and watermarks (`kept_fire`)
* `OwnTimer` — of a spaced account, the flag has no timer but its own, so that none is stale
* `Accurate` — what a run with that lag keeps (`step_accurate`), with `Fraud.Completeness` and
  `Fraud.Soundness` used for one step

The lag is that of the stream, not of the clock: a transaction may be at most `d` ahead of what the
watermark would let pass.
-/

set_option autoImplicit false

namespace FlinkPractices.Fraud

open Lib FraudDetector

/-- A small transaction whose minute the watermark has not passed. -/
def MinuteOpen (watermark : Option Int) (e : Entry Transaction Alert) : Prop :=
  e.element.amount ≤ smallAmount ∧ ∀ w ∈ watermark, w < e.element.timestamp + oneMinute

instance (watermark : Option Int) (e : Entry Transaction Alert) :
    Decidable (MinuteOpen watermark e) :=
  inferInstanceAs (Decidable (_ ∧ _))

/-- The timers of an account are those of its open minutes, and its flag is of one of them. -/
structure Kept (watermark : Option Int) (es : List (Entry Transaction Alert)) (c : Context State) :
    Prop where
  timers : ∀ t ∈ c.timers, ∃ e ∈ es, MinuteOpen watermark e ∧ t = e.element.timestamp + oneMinute
  state : c.state = .init ∨ ∃ t ∈ c.timers, c.state = ⟨some true, some t⟩

theorem kept_start (watermark : Option Int) : Kept watermark [] ⟨.init, .empty⟩ :=
  ⟨fun t ht => absurd ht (Timers.mem_empty t), .inl rfl⟩

/-- A transaction more, and timers that were there. -/
theorem Kept.cons {w : Option Int} {es : List (Entry Transaction Alert)} {c c' : Context State}
    (h : Kept w es c) (e : Entry Transaction Alert) (ht : ∀ t ∈ c'.timers, t ∈ c.timers)
    (hs : c'.state = .init ∨ ∃ t ∈ c'.timers, c'.state = ⟨some true, some t⟩) :
    Kept w (e :: es) c' := by
  refine ⟨fun t hm => ?_, hs⟩
  obtain ⟨f, hf, hopen, he⟩ := h.timers t (ht t hm)
  exact ⟨f, List.mem_cons_of_mem e hf, hopen, he⟩

theorem mem_cleanUp {c : Context State} {t : Int} (h : t ∈ (cleanUp c).timers) : t ∈ c.timers := by
  unfold cleanUp at h
  cases hs : c.state.timerState with
  | none =>
    rw [hs] at h
    exact h
  | some timer =>
    rw [hs] at h
    exact (Timers.mem_delete.1 h).1

theorem kept_element {w : Option Int} {es : List (Entry Transaction Alert)} {c : Context State}
    {t : Transaction} (hin : detector.InTime w es t) (h : Kept w es c) :
    Kept w (⟨t, (processElement t c).2⟩ :: es) (processElement t c).1 := by
  rcases processElement_cases t c with ⟨-, -, hp⟩ | ⟨hs, hp⟩ | ⟨-, -, hp⟩
  · rw [hp]
    exact h.cons _ (fun _ => mem_cleanUp) (.inl rfl)
  · rw [hp]
    refine ⟨fun u hu => ?_, .inr ⟨_, Timers.mem_register.2 (.inl rfl), rfl⟩⟩
    rcases Timers.mem_register.1 hu with rfl | hu
    · refine ⟨⟨t, []⟩, List.mem_cons_self, ⟨hs, fun v hv => ?_⟩, rfl⟩
      have hlt : v < t.timestamp := hin.1 v hv
      show v < t.timestamp + oneMinute
      unfold oneMinute
      omega
    · obtain ⟨f, hf, hopen, he⟩ := h.timers u hu
      exact ⟨f, List.mem_cons_of_mem _ hf, hopen, he⟩
  · rw [hp]
    by_cases hf : c.state.lastWasSmall = true
    · rw [if_pos hf]
      exact h.cons _ (fun _ hu => hu) h.state
    · rw [if_neg hf]
      exact h.cons _ (fun _ => mem_cleanUp) (.inl rfl)

theorem kept_fire {v : Option Int} {es : List (Entry Transaction Alert)} {c : Context State}
    {w : Int} (h : Kept v es c) : Kept (some w) es (detector.fire w c) := by
  constructor
  · intro t ht
    obtain ⟨hm, hlt⟩ := Timers.mem_pending.1 ht
    obtain ⟨e, he, hopen, rfl⟩ := h.timers t hm
    refine ⟨e, he, ⟨hopen.1, fun u hu => ?_⟩, rfl⟩
    cases hu
    exact hlt
  · by_cases hd : ∃ t ∈ c.timers, t ≤ w
    · obtain ⟨t, ht, hw⟩ := hd
      exact .inl (fire_lastWasSmall ht hw)
    · have hlt : ∀ t ∈ c.timers, w < t := fun t ht => by
        by_contra hw
        exact hd ⟨t, ht, by omega⟩
      rw [KeyedProcess.fire_of_none_due (F := detector) hlt]
      rcases h.state with hs | ⟨t, ht, hs⟩
      · exact .inl hs
      · exact .inr ⟨t, Timers.mem_pending.2 ⟨ht, hlt t ht⟩, hs⟩

/-- Every account of every run. -/
theorem run_kept {ls : List (Event Transaction)} {s : Operator Int Transaction Alert State}
    (h : run detector.step detector.start ls = some s) (a : Int) :
    Kept s.watermark (history a s.log) (s.contexts a) :=
  KeyedProcess.run_keyed (J := fun _ w es c => Kept w es c) (fun _ => kept_start none)
    (fun _ _ _ _ _ _ hin hJ => kept_element hin hJ) (fun _ _ _ _ _ _ hJ => kept_fire hJ) h a

/-! ## State that is held -/

/-- What an account holds, of its transactions (newest first) and the watermark. -/
structure Held (watermark : Option Int) (es : List (Entry Transaction Alert)) (c : Context State) :
    Prop where
  timers : ∀ t ∈ c.timers, ∃ e ∈ es, MinuteOpen watermark e ∧ t = e.element.timestamp + oneMinute
  state : c.state = .init ∨
    ∃ e ∈ es, MinuteOpen watermark e ∧ c.state = ⟨some true, some (e.element.timestamp + oneMinute)⟩
  bounded : c.timers.times.length ≤ es.countP (MinuteOpen watermark ·)
  past : (∀ e ∈ es, ¬MinuteOpen watermark e) → c = ⟨.init, .empty⟩

theorem Kept.bounded {w : Option Int} {es : List (Entry Transaction Alert)} {c : Context State}
    (h : Kept w es c) : c.timers.times.length ≤ es.countP (MinuteOpen w ·) := by
  have hn : c.timers.times.Nodup := c.timers.sorted.imp fun hlt => Int.ne_of_lt hlt
  have hsub : c.timers.times ⊆
      (es.filter (MinuteOpen w ·)).map fun e => e.element.timestamp + oneMinute := by
    intro t ht
    obtain ⟨e, he, hopen, rfl⟩ := h.timers t ht
    exact List.mem_map.2 ⟨e, List.mem_filter.2 ⟨he, decide_eq_true hopen⟩, rfl⟩
  have hle := (List.subperm_of_subset hn hsub).length_le
  rwa [List.length_map, ← List.countP_eq_length_filter] at hle

theorem Kept.held {w : Option Int} {es : List (Entry Transaction Alert)} {c : Context State}
    (h : Kept w es c) : Held w es c where
  timers := h.timers
  state := by
    rcases h.state with hs | ⟨t, ht, hs⟩
    · exact .inl hs
    · obtain ⟨e, he, hopen, rfl⟩ := h.timers t ht
      exact .inr ⟨e, he, hopen, hs⟩
  bounded := h.bounded
  past hpast := by
    have hnone : ∀ t, t ∉ c.timers := fun t ht => by
      obtain ⟨e, he, hopen, -⟩ := h.timers t ht
      exact hpast e he hopen
    rcases h.state with hs | ⟨t, ht, -⟩
    · obtain ⟨state, times, hsorted⟩ := c
      have htimes : times = [] := List.eq_nil_iff_forall_not_mem.2 hnone
      subst htimes
      change state = .init at hs
      subst hs
      rfl
    · exact absurd ht (hnone t)

/-- **What an account holds** after every run: timers of open minutes only, at most one for each,
a flag of one of them; and nothing once the watermark is past them. -/
theorem held_of_run {ls : List (Event Transaction)} {s : Operator Int Transaction Alert State}
    (h : run detector.step detector.start ls = some s) (a : Int) :
    Held s.watermark (history a s.log) (s.contexts a) :=
  (run_kept h a).held

/-- `held_of_run` of the two small transactions, of which one minute is over. -/
theorem held_twoSmall : ∃ s, run detector.step detector.start twoSmall = some s ∧
    Held s.watermark (history 3 s.log) (s.contexts 3) := by
  obtain ⟨s, hr, -⟩ := twoSmall_log
  exact ⟨s, hr, held_of_run hr 3⟩

/-! ## A watermark that lags -/

/-- But for the first of its account, a transaction is at most `d` milliseconds ahead of what the
watermark would let pass. -/
def Lag (d : Int) (s : Operator Int Transaction Alert State) : Event Transaction → Prop
  | .element t => history t.accountId s.log = [] ∨ ∃ w ∈ s.watermark, t.timestamp ≤ w + 1 + d
  | .watermark _ => True

/-- An alert of `e` has a large amount, and a small transaction of the account at most `n`
milliseconds before it. -/
def JustifiedWithin (n : Int) (before : List (Entry Transaction Alert))
    (e : Entry Transaction Alert) : Prop :=
  e.output ≠ [] → largeAmount ≤ e.element.amount ∧
    ∃ s ∈ before, s.element.accountId = e.element.accountId ∧ s.element.amount ≤ smallAmount ∧
      e.element.timestamp - s.element.timestamp ≤ n

/-- So it is with every alert of the log (newest first). -/
def SoundWithin (n : Int) (log : List (Entry Transaction Alert)) : Prop :=
  ∀ e before, e :: before <:+ log → JustifiedWithin n before e

/-- Small transactions of an account at different times are more than a minute and `d` apart. -/
def Spaced (d : Int) (es : List (Entry Transaction Alert)) : Prop :=
  ∀ e ∈ es, ∀ f ∈ es, e.element.amount ≤ smallAmount → f.element.amount ≤ smallAmount →
    e.element.timestamp < f.element.timestamp →
    e.element.timestamp + oneMinute + d < f.element.timestamp

theorem soundWithin_cons {n : Int} {e : Entry Transaction Alert}
    {log : List (Entry Transaction Alert)} (he : JustifiedWithin n log e) (hl : SoundWithin n log) :
    SoundWithin n (e :: log) := by
  intro f before hf
  rcases List.suffix_cons_iff.1 hf with hf | hf
  · cases hf
    exact he
  · exact hl f before hf

theorem Spaced.subset {d : Int} {es fs : List (Entry Transaction Alert)} (h : Spaced d fs)
    (hs : es ⊆ fs) : Spaced d es :=
  fun e he f hf => h e (hs he) f (hs hf)

theorem Spaced.of_cons {d : Int} {e : Entry Transaction Alert} {es : List (Entry Transaction Alert)}
    (h : Spaced d (e :: es)) : Spaced d es :=
  h.subset (List.subset_cons_self e es)

/-- The flag's timer is not yet behind the watermark, so the small transaction is not long gone. -/
theorem justified_of_lag {d : Int} {s : Operator Int Transaction Alert State} {t : Transaction}
    (hf : Flagged s.watermark (history t.accountId s.log) (s.contexts t.accountId))
    (hlag : Lag d s (.element t)) :
    JustifiedWithin (60000 + d) s.log ⟨t, (processElement t (s.contexts t.accountId)).2⟩ := by
  intro ho
  obtain ⟨hw, hl⟩ := output_ne_nil_iff.1 ho
  obtain ⟨e, he⟩ := hf hw
  obtain ⟨hm, ha⟩ := KeyedProcess.mem_history.1 he.recent.mem
  refine ⟨hl, e, hm, ha, he.small, ?_⟩
  rcases hlag with hnil | ⟨w, hwm, hle⟩
  · have hmem := he.recent.mem
    rw [hnil] at hmem
    cases hmem
  · have hpending := he.pending w hwm
    unfold oneMinute at hpending
    show t.timestamp - e.element.timestamp ≤ 60000 + d
    omega

/-- Of a spaced account, the flag has no timer but its own. -/
def OwnTimer (d : Int) (es : List (Entry Transaction Alert)) (c : Context State) : Prop :=
  Spaced d es → c.state.lastWasSmall = true → ∀ t ∈ c.timers, c.state.timerState = some t

theorem ownTimer_element {d : Int} {w : Option Int} {es : List (Entry Transaction Alert)}
    {c : Context State} {t : Transaction} (hin : detector.InTime w es t)
    (hlag : es = [] ∨ ∃ v ∈ w, t.timestamp ≤ v + 1 + d) (hk : Kept w es c)
    (h : OwnTimer d es c) :
    OwnTimer d (⟨t, (processElement t c).2⟩ :: es) (processElement t c).1 := by
  intro hsp hflag u hu
  rcases processElement_cases t c with ⟨-, -, hp⟩ | ⟨hs, hp⟩ | ⟨-, -, hp⟩
  · rw [hp] at hflag
    cases hflag
  · rw [hp] at hu hsp ⊢
    show some (t.timestamp + oneMinute) = some u
    rcases Timers.mem_register.1 hu with rfl | hu
    · rfl
    · -- an older timer that the watermark has not reached: by the lag its transaction is as new
      obtain ⟨e, he, ⟨hes, hopen⟩, rfl⟩ := hk.timers u hu
      have hle : e.element.timestamp ≤ t.timestamp := hin.2 e he
      have hapart := hsp e (List.mem_cons_of_mem _ he) _ List.mem_cons_self hes hs
      rcases hlag with rfl | ⟨v, hv, hlag⟩
      · cases he
      · have hpending := hopen v hv
        congr 1
        by_contra hne
        have := hapart (show e.element.timestamp < t.timestamp by omega)
        change e.element.timestamp + oneMinute + d < t.timestamp at this
        omega
  · rw [hp] at hflag hu ⊢
    by_cases hc : c.state.lastWasSmall = true
    · simp only [if_pos hc] at hu ⊢
      exact h hsp.of_cons hc u hu
    · simp only [if_neg hc] at hflag
      cases hflag

theorem ownTimer_fire {d : Int} {es : List (Entry Transaction Alert)} {c : Context State} {w : Int}
    (h : OwnTimer d es c) : OwnTimer d es (detector.fire w c) := by
  intro hsp hflag t ht
  have hlt : ∀ u ∈ c.timers, w < u := by
    intro u hu
    by_contra hw
    rw [fire_lastWasSmall hu (by omega)] at hflag
    cases hflag
  have hs := KeyedProcess.fire_of_none_due (F := detector) hlt
  rw [hs] at hflag ⊢
  exact h hsp hflag t (Timers.mem_pending.1 ht).1

/-- What a run with that lag keeps. -/
structure Accurate (d : Int) (s : Operator Int Transaction Alert State) : Prop where
  flagged : ∀ a, Flagged s.watermark (history a s.log) (s.contexts a)
  kept : ∀ a, Kept s.watermark (history a s.log) (s.contexts a)
  own : ∀ a, OwnTimer d (history a s.log) (s.contexts a)
  sound : SoundWithin (60000 + d) s.log
  vigilant : (∀ a, Spaced d (history a s.log)) → Vigilant s

theorem accurate_start (d : Int) : Accurate d detector.start where
  flagged _ hf := by cases hf
  kept _ := kept_start none
  own _ _ hf := by cases hf
  sound _ _ h := absurd h.length_le (by simp [KeyedProcess.start])
  vigilant _ := by
    refine vigilant_iff.2 ⟨fun e before he => ?_, ?_⟩
    · exact absurd he.length_le (by simp [KeyedProcess.start])
    · rintro a ⟨e, he, -⟩
      exact absurd he (not_recent_nil e)

theorem spaced_history_cons {d : Int} {e : Entry Transaction Alert}
    {log : List (Entry Transaction Alert)} {a : Int} (h : Spaced d (history a (e :: log))) :
    Spaced d (history a log) := by
  by_cases ha : e.element.accountId = a
  · subst ha
    have hcons : history e.element.accountId (e :: log) = e :: history e.element.accountId log :=
      List.filter_cons_of_pos (decide_eq_true rfl)
    rw [hcons] at h
    exact h.of_cons
  · have hcons : history a (e :: log) = history a log :=
      KeyedProcess.history_cons_other (F := detector) ha log
    rwa [hcons] at h

theorem step_accurate {d : Int} {s s' : Operator Int Transaction Alert State}
    {l : Event Transaction} (hi : Accurate d s) (hlag : Lag d s l)
    (h : detector.step s l = some s') : Accurate d s' := by
  have hflagged := step_flagged h hi.flagged
  have hkept : ∀ a, Kept s'.watermark (history a s'.log) (s'.contexts a) :=
    KeyedProcess.keyed_step (J := fun _ w es c => Kept w es c)
      (fun _ _ _ _ _ _ hin hJ => kept_element hin hJ) (fun _ _ _ _ _ _ hJ => kept_fire hJ) h hi.kept
  cases l with
  | element t =>
    obtain ⟨hin, rfl⟩ := KeyedProcess.step_element h
    refine ⟨hflagged, hkept, fun a => ?_, ?_, fun hsp => ?_⟩
    · by_cases ha : detector.key t = a
      · subst ha
        show OwnTimer d (detector.history (detector.key t) (⟨t, _⟩ :: s.log))
          (Function.update s.contexts (detector.key t) _ (detector.key t))
        rw [KeyedProcess.history_cons_self (F := detector), Function.update_self]
        exact ownTimer_element hin hlag (hi.kept _) (hi.own _)
      · show OwnTimer d (detector.history a (⟨t, _⟩ :: s.log))
          (Function.update s.contexts (detector.key t) _ a)
        rw [KeyedProcess.history_cons_other (by exact ha), Function.update_of_ne (Ne.symm ha)]
        exact hi.own a
    · exact soundWithin_cons (justified_of_lag (hi.flagged _) hlag) hi.sound
    · have hv := hi.vigilant fun a => spaced_history_cons (hsp a)
      exact (step_vigilant hi.flagged hv h).2 trivial
  | watermark w =>
    obtain ⟨-, rfl⟩ := KeyedProcess.step_watermark h
    refine ⟨hflagged, hkept, fun a => ownTimer_fire (hi.own a), hi.sound, fun hsp => ?_⟩
    apply (step_vigilant hi.flagged (hi.vigilant hsp) h).2
    rintro a timer hflag ht ⟨u, hu, huw⟩
    have hu := hi.own a (hsp a) hflag u hu
    rw [ht] at hu
    cases hu
    exact .inl huw

/-- **How accurate the alerts are.**  Where the watermark lags by at most `d`: every alert has its
small transaction at most a minute and `d` before it; and where the small transactions of each
account are further apart, every large one that comes within a minute raises an alert, unless one
has been raised since. -/
theorem accurate_of_lag {d : Int} {ls : List (Event Transaction)}
    {s : Operator Int Transaction Alert State}
    (hlag : Guarded detector.step (Lag d) detector.start ls)
    (h : run detector.step detector.start ls = some s) :
    SoundWithin (60000 + d) s.log ∧ ((∀ a, Spaced d (history a s.log)) → Complete s.log) := by
  have hi : Accurate d s := run_guarded_invariant (fun _ _ _ hi hg hs => step_accurate hi hg hs)
    (accurate_start d) hlag h
  exact ⟨hi.sound, fun hsp => (hi.vigilant hsp).1⟩

/-- Twice a small amount, a watermark, and a large amount five seconds after it, more than a minute
apart. -/
def fiveSeconds : List (Event Transaction) :=
  [.element ⟨7, 0, smallAmount⟩, .watermark 25000, .element ⟨7, 30000, largeAmount⟩,
    .watermark 65000, .element ⟨7, 70000, smallAmount⟩, .watermark 95000,
    .element ⟨7, 100000, largeAmount⟩]

theorem fiveSeconds_isSome : (run detector.step detector.start fiveSeconds).isSome = true := by
  decide +kernel

def fiveSecondsEnd : Operator Int Transaction Alert State := Option.get _ fiveSeconds_isSome

theorem fiveSeconds_lag : Guarded detector.step (Lag 5000) detector.start fiveSeconds := by
  refine ⟨.inl rfl, fun s₁ h₁ => ⟨trivial, fun s₂ h₂ => ⟨.inr ⟨25000, ?_, by decide⟩, ?_⟩⟩⟩
  · obtain ⟨-, rfl⟩ := KeyedProcess.step_watermark h₂
    rfl
  · intro s₃ h₃
    refine ⟨trivial, fun s₄ h₄ => ⟨.inr ⟨65000, ?_, by decide⟩, fun s₅ h₅ => ⟨trivial, ?_⟩⟩⟩
    · obtain ⟨-, rfl⟩ := KeyedProcess.step_watermark h₄
      rfl
    · intro s₆ h₆
      refine ⟨.inr ⟨95000, ?_, by decide⟩, fun _ _ => trivial⟩
      obtain ⟨-, rfl⟩ := KeyedProcess.step_watermark h₆
      rfl

theorem fiveSeconds_spaced (a : Int) : Spaced 5000 (history a fiveSecondsEnd.log) := by
  have hall : Spaced 5000 fiveSecondsEnd.log := by
    unfold Spaced
    decide +kernel
  exact hall.subset fun e he => (KeyedProcess.mem_history.1 he).1

/-- `accurate_of_lag` of that run: both large amounts raise an alert. -/
theorem accurate_fiveSeconds :
    fiveSecondsEnd.log.map (fun e => e.output.length) = [1, 0, 1, 0] ∧
    SoundWithin (60000 + 5000) fiveSecondsEnd.log ∧ Complete fiveSecondsEnd.log := by
  obtain ⟨hsound, hcomplete⟩ :=
    accurate_of_lag fiveSeconds_lag (Option.some_get fiveSeconds_isSome).symm
  exact ⟨by decide +kernel, hsound, hcomplete fiveSeconds_spaced⟩

end FlinkPractices.Fraud
