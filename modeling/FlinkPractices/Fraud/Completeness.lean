import FlinkPractices.Fraud.Detector

/-!
# Completeness of the alerts

`Complete`: a large transaction at most a minute after a small one of its account raises an alert,
unless one was raised in between.  That is what the module docstring of `fraud_detector.py` says the
detector is for.

Several small transactions register several timers, of which `timer_state` is the last; the first to
fire clears the flag of all of them, and the later small transactions go unnoticed.  `NoneStale`
excludes exactly these watermarks, on the state before the step.

Principal result: `complete_iff` (over a run no further transaction can go unnoticed iff no
watermark fires an older timer of an account while its flag is set and the minute of the latest
small transaction is still open).

## Proof

* `Vigilant` — the log is complete, and would be with whichever transaction came next; the result
  is about this, since a timer does its harm before the transaction that is missed arrives
* `vigilant_iff` — the detector is vigilant iff the flag is set as long as a minute is open (`Open`)
* `open_element`, `open_fire` — what a transaction and a watermark do to open minutes and flags
* `step_vigilant` — so a step keeps the detector vigilant iff it fires no stale timer

`twoSmall_not_complete` is the run of two small amounts, a watermark and a large amount.
-/

set_option autoImplicit false

namespace FlinkPractices.Fraud

open Lib FraudDetector

/-- `e` raises an alert if its amount is large and there was a small transaction of the account,
at most a minute ago and with no alert of the account since. -/
def Noticed (before : List (Entry Transaction Alert)) (e : Entry Transaction Alert) : Prop :=
  largeAmount ≤ e.element.amount →
    (∃ s, Recent (history e.element.accountId before) s ∧ s.element.amount ≤ smallAmount ∧
      e.element.timestamp - s.element.timestamp ≤ 60000) →
    e.output ≠ []

/-- So it is with every transaction of the log (newest first). -/
def Complete (log : List (Entry Transaction Alert)) : Prop :=
  ∀ e before, e :: before <:+ log → Noticed before e

/-- The log is complete, and is so with whichever transaction comes next. -/
def Vigilant (s : Operator Int Transaction Alert State) : Prop :=
  Complete s.log ∧ ∀ t s', detector.step s (.element t) = some s' → Complete s'.log

/-- A watermark `w` that fires a timer of an account whose flag is set: it has reached
`timer_state`, or `timer_state` already lies before a transaction of the account. -/
def NoneStale (s : Operator Int Transaction Alert State) : Event Transaction → Prop
  | .element _ => True
  | .watermark w => ∀ account timer, (s.contexts account).state.lastWasSmall = true →
      (s.contexts account).state.timerState = some timer →
      (∃ t ∈ (s.contexts account).timers, t ≤ w) →
      timer ≤ w ∨ ∃ e ∈ history account s.log, timer < e.element.timestamp

/-- Some transaction of the account could still come within a minute of a small one that is
recent. -/
def Open (watermark : Option Int) (es : List (Entry Transaction Alert)) : Prop :=
  ∃ s, Recent es s ∧ s.element.amount ≤ smallAmount ∧
    (∀ w ∈ watermark, w < s.element.timestamp + oneMinute) ∧
    ∀ e ∈ es, e.element.timestamp ≤ s.element.timestamp + oneMinute

theorem complete_cons {e : Entry Transaction Alert} {log : List (Entry Transaction Alert)} :
    Complete (e :: log) ↔ Noticed log e ∧ Complete log := by
  constructor
  · intro h
    exact ⟨h e log (List.suffix_refl _), fun f before hf =>
      h f before (hf.trans (List.suffix_cons e log))⟩
  · rintro ⟨he, hl⟩ f before hf
    rcases List.suffix_cons_iff.1 hf with hf | hf
    · cases hf
      exact he
    · exact hl f before hf

/-- **What vigilance is**: the flag is set as long as a minute is open. -/
theorem vigilant_iff {s : Operator Int Transaction Alert State} :
    Vigilant s ↔ Complete s.log ∧
      ∀ a, Open s.watermark (history a s.log) → (s.contexts a).state.lastWasSmall = true := by
  constructor
  · rintro ⟨hc, hnext⟩
    refine ⟨hc, ?_⟩
    rintro a ⟨e, he, hsm, hw, hes⟩
    have hin : detector.InTime s.watermark (history a s.log)
        ⟨a, e.element.timestamp + oneMinute, largeAmount⟩ := ⟨hw, hes⟩
    have hn := (complete_cons.1 (hnext _ _ (KeyedProcess.step_of_inTime hin))).1
    have hd : e.element.timestamp + oneMinute - e.element.timestamp ≤ 60000 := by
      unfold oneMinute
      omega
    exact (output_ne_nil_iff.1 (hn largeAmount_le ⟨e, he, hsm, hd⟩)).1
  · rintro ⟨hc, hopen⟩
    refine ⟨hc, fun t s' hs => ?_⟩
    obtain ⟨hin, rfl⟩ := KeyedProcess.step_element hs
    refine complete_cons.2 ⟨?_, hc⟩
    rintro hl ⟨e, he, hsm, hd⟩
    have hd : t.timestamp ≤ e.element.timestamp + oneMinute := by
      unfold oneMinute
      simp only at hd
      omega
    refine output_ne_nil_iff.2 ⟨hopen t.accountId ⟨e, he, hsm, ?_, ?_⟩, hl⟩
    · intro w hw
      exact Int.lt_of_lt_of_le (hin.1 w hw) hd
    · intro f hf
      exact Int.le_trans (hin.2 f hf) hd

/-! ## One step -/

/-- A transaction opens a minute only by setting the flag, and closes it only by an alert. -/
theorem open_element {w : Option Int} {es : List (Entry Transaction Alert)} {c : Context State}
    {t : Transaction} (h : Open w es → c.state.lastWasSmall = true)
    (ho : Open w (⟨t, (processElement t c).2⟩ :: es)) :
    (processElement t c).1.state.lastWasSmall = true := by
  rcases processElement_cases t c with ⟨-, hl, hp⟩ | ⟨-, hp⟩ | ⟨hs, -, hp⟩
  · rw [hp] at ho
    obtain ⟨e, he, hsm, -, -⟩ := ho
    rcases recent_cons.1 he with rfl | ⟨ha, -⟩
    · exact absurd hl (not_large_of_small hsm)
    · exact absurd ha (List.cons_ne_nil _ _)
  · rw [hp]
    rfl
  · rw [hp] at ho ⊢
    obtain ⟨e, he, hsm, hw, hes⟩ := ho
    rcases recent_cons.1 he with rfl | ⟨-, he⟩
    · exact absurd hsm hs
    · have hc := h ⟨e, he, hsm, hw, fun f hf => hes f (List.mem_cons_of_mem _ hf)⟩
      rw [if_pos hc]
      exact hc

/-- A watermark leaves a minute open without its flag iff it fires a timer that is stale. -/
theorem open_fire {v : Option Int} {es : List (Entry Transaction Alert)} {c : Context State}
    {w : Int} (hv : ∀ u ∈ v, u ≤ w) (hf : Flagged v es c)
    (h : Open v es → c.state.lastWasSmall = true) :
    (Open (some w) es → (detector.fire w c).state.lastWasSmall = true) ↔
      ∀ timer, c.state.lastWasSmall = true → c.state.timerState = some timer →
        (∃ t ∈ c.timers, t ≤ w) → timer ≤ w ∨ ∃ e ∈ es, timer < e.element.timestamp := by
  have hback : Open (some w) es → Open v es := by
    rintro ⟨e, he, hsm, hw, hes⟩
    exact ⟨e, he, hsm, fun u hu => Int.lt_of_le_of_lt (hv u hu) (hw w rfl), hes⟩
  constructor
  · rintro hset timer hc ht ⟨t, htm, htw⟩
    obtain ⟨e, he⟩ := hf hc
    rw [he.timer] at ht
    cases ht
    by_contra hno
    have hopen : Open (some w) es := by
      refine ⟨e, he.recent, he.small, ?_, fun f hfm => ?_⟩
      · rintro u ⟨⟩
        by_contra hle
        exact hno (.inl (by omega))
      · by_contra hlt
        exact hno (.inr ⟨f, hfm, by omega⟩)
    have hlost := hset hopen
    rw [fire_lastWasSmall htm htw] at hlost
    cases hlost
  · intro hfresh ho
    have hc := h (hback ho)
    by_cases hd : ∃ t ∈ c.timers, t ≤ w
    · obtain ⟨e, he⟩ := hf hc
      obtain ⟨f, hfr, hsm, hw, hes⟩ := ho
      have hle := he.latest f hfr.mem hsm
      rcases hfresh _ hc he.timer hd with hlt | ⟨g, hg, hlt⟩
      · have := hw w rfl
        omega
      · have := hes g hg
        omega
    · have hlt : ∀ t ∈ c.timers, w < t := fun t ht => by
        by_contra hw
        exact hd ⟨t, ht, by omega⟩
      rw [KeyedProcess.fire_of_none_due hlt]
      exact hc

/-- A step keeps the detector vigilant iff it fires no stale timer. -/
theorem step_vigilant {s s' : Operator Int Transaction Alert State} {l : Event Transaction}
    (hf : ∀ a, Flagged s.watermark (history a s.log) (s.contexts a)) (hs : Vigilant s)
    (h : detector.step s l = some s') : Vigilant s' ↔ NoneStale s l := by
  obtain ⟨hc, hopen⟩ := vigilant_iff.1 hs
  rw [vigilant_iff]
  cases l with
  | element t =>
    refine iff_of_true ⟨hs.2 t s' h, ?_⟩ trivial
    exact KeyedProcess.keyed_element
      (J := fun _ w es c => (Open w es → c.state.lastWasSmall = true))
      (fun _ _ _ _ _ _ _ hJ => open_element hJ) h hopen
  | watermark w =>
    obtain ⟨hv, rfl⟩ := KeyedProcess.step_watermark h
    constructor
    · rintro ⟨-, hset⟩ a timer
      exact (open_fire hv (hf a) (hopen a)).1 (hset a) timer
    · intro hfresh
      exact ⟨hc, fun a => (open_fire hv (hf a) (hopen a)).2 (hfresh a)⟩

/-- **When the alerts are complete.**  Over every sequence of transactions in the order of each
account, and every watermark schedule: no transaction of the run, and none that could come next at
any point of it, goes unnoticed iff no watermark fires a stale timer. -/
theorem complete_iff {ls : List (Event Transaction)} {s : Operator Int Transaction Alert State}
    (h : run detector.step detector.start ls = some s) :
    Always detector.step Vigilant detector.start ls ↔
      Guarded detector.step NoneStale detector.start ls := by
  have h₀ : Vigilant detector.start := by
    refine vigilant_iff.2 ⟨fun e before he => ?_, ?_⟩
    · exact absurd he.length_le (by simp [KeyedProcess.start])
    · rintro a ⟨e, he, -⟩
      exact absurd he (not_recent_nil e)
  exact always_iff_guarded
    (I := fun s => ∀ a, Flagged s.watermark (history a s.log) (s.contexts a)) (H := fun _ _ => True)
    (fun _ _ _ hi _ _ hs => step_flagged hs hi) (fun _ _ _ hi _ hp hs => step_vigilant hi hp hs)
    (fun _ hf => by cases hf) h₀ (Guarded.of_forall fun _ _ => trivial) h

/-! ## Two small transactions -/

/-- Small amounts at 0 and 30 seconds, a watermark at 60 seconds, and a large amount at 70. -/
def twoSmall : List (Event Transaction) :=
  [.element ⟨3, 0, smallAmount⟩, .element ⟨3, 30000, smallAmount⟩, .watermark 60000,
    .element ⟨3, 70000, largeAmount⟩]

theorem twoSmall_log : ∃ s, run detector.step detector.start twoSmall = some s ∧
    s.log = [⟨⟨3, 70000, largeAmount⟩, []⟩, ⟨⟨3, 30000, smallAmount⟩, []⟩,
      ⟨⟨3, 0, smallAmount⟩, []⟩] := by
  obtain ⟨s₁, h₁, hm, hw₁, hl₁⟩ : ∃ s₁,
      detector.step detector.start (.element ⟨3, 0, smallAmount⟩) = some s₁ ∧
      60000 ∈ (s₁.contexts 3).timers ∧ s₁.watermark = none ∧
      s₁.log = [⟨⟨3, 0, smallAmount⟩, []⟩] :=
    ⟨_, step_small (by decide) smallAmount_le, Timers.mem_register.2 (.inl rfl), rfl, rfl⟩
  have hin₂ : detector.InTime s₁.watermark (history 3 s₁.log) ⟨3, 30000, smallAmount⟩ := by
    rw [hw₁, hl₁]
    decide
  obtain ⟨s₂, h₂, hm, hw₂, hl₂⟩ : ∃ s₂,
      detector.step s₁ (.element ⟨3, 30000, smallAmount⟩) = some s₂ ∧
      60000 ∈ (s₂.contexts 3).timers ∧ s₂.watermark = none ∧
      s₂.log = [⟨⟨3, 30000, smallAmount⟩, []⟩, ⟨⟨3, 0, smallAmount⟩, []⟩] :=
    ⟨_, step_small hin₂ smallAmount_le, Timers.mem_register.2 (.inr hm), hw₁, by rw [hl₁]⟩
  have h₃ := KeyedProcess.step_of_le (F := detector) (s := s₂) (w := 60000)
    (by rw [hw₂]; exact fun _ hv => by cases hv)
  have hf : (detector.fire 60000 (s₂.contexts 3)).state = .init := fire_lastWasSmall hm (by decide)
  have hin₄ : detector.InTime (some 60000) (history 3 s₂.log) ⟨3, 70000, largeAmount⟩ := by
    rw [hl₂]
    decide
  have h₄ := KeyedProcess.step_of_inTime (s := ⟨fun k => detector.fire 60000 (s₂.contexts k),
    some 60000, s₂.log⟩) hin₄
  have hr := (run_cons_of_step h₁ _).trans ((run_cons_of_step h₂ _).trans
    ((run_cons_of_step h₃ _).trans (run_cons_of_step h₄ [])))
  refine ⟨_, hr, ?_⟩
  have hout : (processElement ⟨3, 70000, largeAmount⟩
      (detector.fire 60000 (s₂.contexts 3))).2 = [] := by
    by_contra hne
    have hc := (output_ne_nil_iff.1 hne).1
    rw [hf] at hc
    cases hc
  show (_ :: s₂.log) = _
  rw [hl₂]
  exact congrArg (fun out => Entry.mk _ out :: _) hout

/-- **A large amount 40 seconds after a small one raises no alert**: the timer of an earlier small
one has cleared the flag. -/
theorem twoSmall_not_complete : ∃ s, run detector.step detector.start twoSmall = some s ∧
    ¬Complete s.log := by
  obtain ⟨s, hr, hl⟩ := twoSmall_log
  refine ⟨s, hr, fun h => ?_⟩
  rw [hl] at h
  have hr : Recent (history 3 [⟨⟨3, 30000, smallAmount⟩, []⟩, ⟨⟨3, 0, smallAmount⟩, []⟩])
      ⟨⟨3, 30000, smallAmount⟩, []⟩ := ⟨[], _, rfl, by simp⟩
  exact (complete_cons.1 h).1 largeAmount_le ⟨_, hr, smallAmount_le, by decide⟩ rfl

/-- `complete_iff` of that run. -/
theorem complete_iff_twoSmall : ∃ s, run detector.step detector.start twoSmall = some s ∧
    (Always detector.step Vigilant detector.start twoSmall ↔
      Guarded detector.step NoneStale detector.start twoSmall) := by
  obtain ⟨s, hr, -⟩ := twoSmall_log
  exact ⟨s, hr, complete_iff hr⟩

end FlinkPractices.Fraud
