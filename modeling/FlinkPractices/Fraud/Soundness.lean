import FlinkPractices.Fraud.Detector

/-!
# Soundness of the alerts

`Sound`: every alert belongs to a large transaction with a small one of the same account at most a
minute before it.  The detector compares no times: it keeps the minute by a timer alone, and while
the watermark lags, the flag outlives it.

`InWindow` excludes exactly the transactions that come too late, on the state before the step: a
large amount while the flag is set and `timer_state` is already behind it.

Principal result: `sound_iff` (the alerts of a run are sound iff no large transaction is processed
while the flag is set and `timer_state` is already behind it).

## Proof

* `justified_iff` — by the invariant `Flagged` the flag belongs to the latest small transaction, of
  which `timer_state` is one minute later; so one alert is justified iff it is in the window
* `step_sound` — a step keeps the alerts sound iff it stays within it, since an alert that has been
  raised stays in the log (`sound_of_step`)

`lagging_not_sound` is an alert 70 seconds after the small amount.  A job without watermarks lags
for ever; `Fraud.Job` says what it prints.
-/

set_option autoImplicit false

namespace FlinkPractices.Fraud

open Lib FraudDetector

/-- An alert of `e` has a large amount, and a small transaction among `before` it. -/
def Justified (before : List (Entry Transaction Alert)) (e : Entry Transaction Alert) : Prop :=
  e.output ≠ [] → largeAmount ≤ e.element.amount ∧
    ∃ s ∈ before, s.element.accountId = e.element.accountId ∧ s.element.amount ≤ smallAmount ∧
      e.element.timestamp - s.element.timestamp ≤ 60000

/-- Every alert of the log (newest first) is justified by what came before it. -/
def Sound (log : List (Entry Transaction Alert)) : Prop :=
  ∀ e before, e :: before <:+ log → Justified before e

/-- No large transaction arrives while the flag is set and the minute of `timer_state` is over. -/
def InWindow (s : Operator Int Transaction Alert State) : Event Transaction → Prop
  | .element t => (s.contexts t.accountId).state.lastWasSmall = true → largeAmount ≤ t.amount →
      ∀ timer, (s.contexts t.accountId).state.timerState = some timer → t.timestamp ≤ timer
  | .watermark _ => True

theorem sound_nil : Sound [] := fun _ _ h => by
  have := h.length_le
  simp at this

theorem sound_cons {e : Entry Transaction Alert} {log : List (Entry Transaction Alert)} :
    Sound (e :: log) ↔ Justified log e ∧ Sound log := by
  constructor
  · intro h
    exact ⟨h e log (List.suffix_refl _), fun f before hf =>
      h f before (hf.trans (List.suffix_cons e log))⟩
  · rintro ⟨he, hl⟩ f before hf
    rcases List.suffix_cons_iff.1 hf with hf | hf
    · cases hf
      exact he
    · exact hl f before hf

/-- The alert of a transaction is justified iff it arrives within the minute of `timer_state`. -/
theorem justified_iff {s : Operator Int Transaction Alert State} {t : Transaction}
    (hf : Flagged s.watermark (history t.accountId s.log) (s.contexts t.accountId)) :
    Justified s.log ⟨t, (processElement t (s.contexts t.accountId)).2⟩ ↔
      InWindow s (.element t) := by
  unfold Justified
  rw [output_ne_nil_iff]
  constructor
  · intro h hw hl timer ht
    obtain ⟨-, f, hm, ha, hs, hd⟩ := h ⟨hw, hl⟩
    obtain ⟨e, he⟩ := hf hw
    have hle := he.latest f (KeyedProcess.mem_history.2 ⟨hm, ha⟩) hs
    rw [he.timer] at ht
    cases ht
    unfold oneMinute
    simp only at hd
    omega
  · rintro h ⟨hw, hl⟩
    obtain ⟨e, he⟩ := hf hw
    obtain ⟨hm, ha⟩ := KeyedProcess.mem_history.1 he.recent.mem
    have hle := h hw hl _ he.timer
    refine ⟨hl, e, hm, ha, he.small, ?_⟩
    unfold oneMinute at hle
    simp only
    omega

/-- A step keeps the alerts sound iff it stays within the minute. -/
theorem step_sound {s s' : Operator Int Transaction Alert State} {l : Event Transaction}
    (hf : ∀ a, Flagged s.watermark (history a s.log) (s.contexts a)) (hs : Sound s.log)
    (h : detector.step s l = some s') : Sound s'.log ↔ InWindow s l := by
  cases l with
  | element t =>
    obtain ⟨-, rfl⟩ := KeyedProcess.step_element h
    rw [← justified_iff (hf t.accountId)]
    exact sound_cons.trans (and_iff_left hs)
  | watermark w =>
    obtain ⟨-, rfl⟩ := KeyedProcess.step_watermark h
    exact iff_of_true hs trivial

/-- A log that is sound was sound before. -/
theorem sound_of_step {s s' : Operator Int Transaction Alert State} {l : Event Transaction}
    (h : detector.step s l = some s') (hs : Sound s'.log) : Sound s.log := by
  cases l with
  | element t =>
    obtain ⟨-, rfl⟩ := KeyedProcess.step_element h
    exact (sound_cons.1 hs).2
  | watermark w =>
    obtain ⟨-, rfl⟩ := KeyedProcess.step_watermark h
    exact hs

/-- **When the alerts are sound.**  Over every sequence of transactions in the order of each
account, and every watermark schedule: every alert is justified iff no large transaction is
processed while the flag is set and `timer_state` lies before it. -/
theorem sound_iff {ls : List (Event Transaction)} {s : Operator Int Transaction Alert State}
    (h : run detector.step detector.start ls = some s) :
    Sound s.log ↔ Guarded detector.step InWindow detector.start ls := by
  have hiff := always_iff_guarded
    (I := fun s => ∀ a, Flagged s.watermark (history a s.log) (s.contexts a))
    (P := fun s => Sound s.log) (H := fun _ _ => True)
    (fun _ _ _ hi _ _ hs => step_flagged hs hi) (fun _ _ _ hi _ hp hs => step_sound hi hp hs)
    (fun _ hf => by cases hf) sound_nil (Guarded.of_forall fun _ _ => trivial) h
  rw [← hiff]
  exact ⟨always_of_last (fun _ _ _ hs => sound_of_step hs) h, fun ha => ha.last h⟩

/-! ## A watermark that lags -/

/-- A small amount, and a large one 70 seconds later. -/
def lagging : List (Event Transaction) :=
  [.element ⟨2, 0, smallAmount⟩, .element ⟨2, 70000, largeAmount⟩]

theorem lagging_log : ∃ s, run detector.step detector.start lagging = some s ∧
    s.log = [⟨⟨2, 70000, largeAmount⟩, [alertOf ⟨2, 70000, largeAmount⟩]⟩,
      ⟨⟨2, 0, smallAmount⟩, []⟩] := by
  obtain ⟨s₁, h₁, hf, hw, hl⟩ : ∃ s₁,
      detector.step detector.start (.element ⟨2, 0, smallAmount⟩) = some s₁ ∧
      (s₁.contexts 2).state.lastWasSmall = true ∧ s₁.watermark = none ∧
      s₁.log = [⟨⟨2, 0, smallAmount⟩, []⟩] :=
    ⟨_, step_small (by decide) smallAmount_le, rfl, rfl, rfl⟩
  have hin : detector.InTime s₁.watermark (history 2 s₁.log) ⟨2, 70000, largeAmount⟩ := by
    rw [hw, hl]
    decide
  have h₂ := step_large (t := ⟨2, 70000, largeAmount⟩) hin hf largeAmount_le
  refine ⟨_, (run_cons_of_step h₁ _).trans (run_cons_of_step h₂ []), ?_⟩
  rw [hl]

/-- **A lagging watermark raises an alert 70 seconds after the small transaction.** -/
theorem lagging_not_sound : ∃ s, run detector.step detector.start lagging = some s ∧
    ¬Sound s.log := by
  obtain ⟨s, hr, hl⟩ := lagging_log
  refine ⟨s, hr, fun h => ?_⟩
  rw [hl] at h
  obtain ⟨-, f, hf, -, -, hd⟩ := (sound_cons.1 h).1 (List.cons_ne_nil _ _)
  rcases List.mem_singleton.1 hf with rfl
  exact absurd hd (by decide)

/-- `sound_iff` of that run. -/
theorem sound_iff_lagging : ∃ s, run detector.step detector.start lagging = some s ∧
    (Sound s.log ↔ Guarded detector.step InWindow detector.start lagging) := by
  obtain ⟨s, hr, -⟩ := lagging_log
  exact ⟨s, hr, sound_iff hr⟩

end FlinkPractices.Fraud
