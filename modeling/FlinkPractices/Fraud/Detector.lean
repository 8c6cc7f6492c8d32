import FlinkPractices.Lib.Double
import FlinkPractices.Lib.KeyedProcess

/-!
# The fraud detector (`fraud_detection/fraud_detector.py`, `entities.py`)

`FraudDetector` as a keyed process function over accounts: `flag_state` and `timer_state` of an
account, `None` when cleared, and its event-time timers.  A small transaction sets the flag and
registers a timer one minute later; a large one raises an alert while the flag is set; any timer of
the account clears both states.

* `processElement`, `onTimer`, `cleanUp` — the three methods, with the texts of the alerts
* `detector` — keyed by account, as in `create_fraud_detection_job`; runs with watermarks are those
  of `Lib.KeyedProcess`

Amounts are doubles, compared as Python compares them, so `nan` is neither small nor large.

Principal results:

* `output_ne_nil_iff` — a transaction raises an alert iff the flag is set and its amount is large,
* `processElement_cases` — what a transaction leaves, which the other modules use in place of the
  definition,
* `step_flagged` — every step keeps the invariant `Flagged` of every account: a flag that is set was
  set by the latest small transaction, of which `timer_state` is one minute later and registered.
-/

set_option autoImplicit false

namespace FlinkPractices.Fraud

open Lib

structure Transaction where
  accountId : Int
  timestamp : Int
  amount : Double
  deriving DecidableEq, Repr

structure Alert where
  accountId : Int
  message : String
  deriving DecidableEq, Repr

/-- `1.00` -/
def smallUnits : Binary64 := .one

/-- `500.00` -/
def largeUnits : Binary64 := ⟨1031 * 2 ^ 52 + 61 * 2 ^ 46, by decide, by decide⟩

/-- `SMALL_AMOUNT`. -/
def smallAmount : Double := .finite smallUnits

/-- `LARGE_AMOUNT`. -/
def largeAmount : Double := .finite largeUnits

/-- `ONE_MINUTE`, in milliseconds. -/
def oneMinute : Int := 60 * 1000

example : Binary64.ofInt 500 = some largeUnits := by decide

namespace FraudDetector

/-- The keyed state of an account; `none` is a state without a value. -/
structure State where
  flagState : Option Bool
  timerState : Option Int
  deriving DecidableEq, Repr

/-- Both states cleared. -/
def State.init : State := ⟨none, none⟩

/-- `_clean_up()`: only the timer of `timer_state` is deleted. -/
def cleanUp (c : Context State) : Context State :=
  ⟨.init,
    match c.state.timerState with
    | some timer => c.timers.delete timer
    | none => c.timers⟩

/-- `last_transaction_was_small is not None and last_transaction_was_small` -/
def State.lastWasSmall (s : State) : Bool :=
  match s.flagState with
  | some b => b
  | none => false

def alertOf (t : Transaction) : Alert where
  accountId := t.accountId
  message := "소액 거래 후 1분 내 고액 거래 감지: $" ++ t.amount.toFixed2 ++ " (계정: " ++
    toString t.accountId ++ ")"

/-- `process_element()`, read to its end: the context afterwards and the alerts it yields. -/
def processElement (t : Transaction) (c : Context State) : Context State × List Alert :=
  if c.state.lastWasSmall = true ∧ largeAmount ≤ t.amount then (cleanUp c, [alertOf t])
  else if t.amount ≤ smallAmount then
    let timerTime := t.timestamp + oneMinute
    (⟨⟨some true, some timerTime⟩, c.timers.register timerTime⟩, [])
  else if c.state.lastWasSmall = true then (c, [])
  else (cleanUp c, [])

/-- `on_timer()`: both states are cleared, whichever timer it is; the alerts it returns. -/
def onTimer (_timestamp : Int) (_s : State) : State × List Alert := (.init, [])

end FraudDetector

open FraudDetector

/-- The detector keyed by account, as in `create_fraud_detection_job`. -/
def detector : KeyedProcess Int Transaction Alert State where
  key := Transaction.accountId
  timestamp := Transaction.timestamp
  init := .init
  processElement := processElement
  onTimer timestamp s := (onTimer timestamp s).1

/-- The transactions of one account, newest first. -/
abbrev history (account : Int) (log : List (Entry Transaction Alert)) :
    List (Entry Transaction Alert) :=
  detector.history account log

/-! ## What a transaction and a timer do -/

/-- No amount is both small and large. -/
theorem not_large_of_small {a : Double} (h : a ≤ smallAmount) : ¬largeAmount ≤ a :=
  Double.not_le_of_lt (by decide +kernel) h

/-- A timer emits nothing. -/
theorem onTimer_output (timestamp : Int) (s : State) : (onTimer timestamp s).2 = [] := rfl

/-- An alert is raised iff the flag is set and the amount is large. -/
theorem output_ne_nil_iff {t : Transaction} {c : Context State} :
    (processElement t c).2 ≠ [] ↔ c.state.lastWasSmall = true ∧ largeAmount ≤ t.amount := by
  unfold processElement
  split
  · rename_i h
    exact iff_of_true (List.cons_ne_nil _ _) h
  · rename_i h
    refine iff_of_false ?_ h
    split
    · exact fun hn => hn rfl
    · split <;> exact fun hn => hn rfl

/-- What a transaction leaves: no flag after an alert, the flag with its timer after a small
transaction, and otherwise the flag as it was. -/
theorem processElement_cases (t : Transaction) (c : Context State) :
    (c.state.lastWasSmall = true ∧ largeAmount ≤ t.amount ∧
      processElement t c = (cleanUp c, [alertOf t])) ∨
    (t.amount ≤ smallAmount ∧ processElement t c =
      (⟨⟨some true, some (t.timestamp + oneMinute)⟩,
        c.timers.register (t.timestamp + oneMinute)⟩, [])) ∨
    (¬t.amount ≤ smallAmount ∧ (c.state.lastWasSmall = true → ¬largeAmount ≤ t.amount) ∧
      processElement t c = (if c.state.lastWasSmall = true then c else cleanUp c, [])) := by
  unfold processElement
  by_cases hl : c.state.lastWasSmall = true ∧ largeAmount ≤ t.amount
  · left
    exact ⟨hl.1, hl.2, if_pos hl⟩
  · right
    rw [if_neg hl]
    by_cases hs : t.amount ≤ smallAmount
    · left
      exact ⟨hs, if_pos hs⟩
    · right
      refine ⟨hs, fun hf ha => hl ⟨hf, ha⟩, ?_⟩
      rw [if_neg hs]
      split <;> rfl

theorem processElement_small {t : Transaction} (h : t.amount ≤ smallAmount) (c : Context State) :
    processElement t c = (⟨⟨some true, some (t.timestamp + oneMinute)⟩,
      c.timers.register (t.timestamp + oneMinute)⟩, []) := by
  rcases processElement_cases t c with ⟨-, hl, -⟩ | ⟨-, hp⟩ | ⟨hs, -, -⟩
  · exact absurd hl (not_large_of_small h)
  · exact hp
  · exact absurd h hs

theorem smallAmount_le : smallAmount ≤ smallAmount := Double.finite_le.2 (Int.le_refl _)

theorem largeAmount_le : largeAmount ≤ largeAmount := Double.finite_le.2 (Int.le_refl _)

/-- A watermark that reaches a timer of the account clears the flag. -/
theorem fire_lastWasSmall {w t : Int} {c : Context State} (ht : t ∈ c.timers) (hw : t ≤ w) :
    (detector.fire w c).state = .init := by
  have hd : t ∈ c.timers.due w := Timers.mem_due.2 ⟨ht, hw⟩
  show (c.timers.due w).foldl (fun _ _ => State.init) c.state = .init
  generalize c.timers.due w = us at hd
  obtain ⟨us, vs, rfl⟩ := List.append_of_mem hd
  rw [List.foldl_append, List.foldl_cons]
  induction vs with
  | nil => rfl
  | cons v vs ih => exact ih (List.mem_append_right us List.mem_cons_self)

/-! ## The invariant of an account -/

/-- `e` is one of `es` (newest first), and no alert has been raised since. -/
def Recent (es : List (Entry Transaction Alert)) (e : Entry Transaction Alert) : Prop :=
  ∃ since before, es = since ++ e :: before ∧ ∀ b ∈ since, b.output = []

theorem not_recent_nil (e : Entry Transaction Alert) : ¬Recent [] e := by
  rintro ⟨since, before, h, -⟩
  exact List.append_ne_nil_of_right_ne_nil since (List.cons_ne_nil e before) h.symm

theorem Recent.mem {es : List (Entry Transaction Alert)} {e : Entry Transaction Alert}
    (h : Recent es e) : e ∈ es := by
  obtain ⟨since, before, rfl, -⟩ := h
  exact List.mem_append_right since List.mem_cons_self

/-- What is recent after one more transaction. -/
theorem recent_cons {es : List (Entry Transaction Alert)} {e f : Entry Transaction Alert} :
    Recent (f :: es) e ↔ e = f ∨ f.output = [] ∧ Recent es e := by
  constructor
  · rintro ⟨since, before, h, hs⟩
    rcases List.cons_eq_append_iff.1 h with ⟨rfl, h⟩ | ⟨since, rfl, rfl⟩
    · left
      exact (List.cons.inj h).1.symm
    · right
      exact ⟨hs f List.mem_cons_self, since, before, rfl,
        fun b hb => hs b (List.mem_cons_of_mem f hb)⟩
  · rintro (rfl | ⟨hf, since, before, rfl, hs⟩)
    · exact ⟨[], es, rfl, by simp⟩
    · refine ⟨f :: since, before, rfl, fun b hb => ?_⟩
      rcases List.mem_cons.1 hb with rfl | hb
      · exact hf
      · exact hs b hb

/-- A flag that is set belongs to the latest small transaction of the account: no alert was raised
since, `timer_state` is one minute after it, that timer is registered, and the watermark has not
reached it. -/
structure SetBy (watermark : Option Int) (es : List (Entry Transaction Alert)) (c : Context State)
    (e : Entry Transaction Alert) : Prop where
  recent : Recent es e
  small : e.element.amount ≤ smallAmount
  latest : ∀ f ∈ es, f.element.amount ≤ smallAmount →
    f.element.timestamp ≤ e.element.timestamp
  timer : c.state.timerState = some (e.element.timestamp + oneMinute)
  registered : e.element.timestamp + oneMinute ∈ c.timers
  pending : ∀ w ∈ watermark, w < e.element.timestamp + oneMinute

def Flagged (watermark : Option Int) (es : List (Entry Transaction Alert)) (c : Context State) :
    Prop :=
  c.state.lastWasSmall = true → ∃ e, SetBy watermark es c e

theorem flagged_element {w : Option Int} {es : List (Entry Transaction Alert)} {c : Context State}
    {t : Transaction} (hin : detector.InTime w es t) (h : Flagged w es c) :
    Flagged w (⟨t, (processElement t c).2⟩ :: es) (processElement t c).1 := by
  rcases processElement_cases t c with ⟨-, -, hp⟩ | ⟨hs, hp⟩ | ⟨hs, -, hp⟩
  · rw [hp]
    intro hf
    cases hf
  · rw [hp]
    refine fun _ => ⟨⟨t, []⟩, recent_cons.2 (.inl rfl), hs, ?_, rfl,
      Timers.mem_register.2 (.inl rfl), fun v hv => ?_⟩
    · intro f hf _
      rcases List.mem_cons.1 hf with rfl | hf
      · exact Int.le_refl _
      · exact hin.2 f hf
    · have hv : v < t.timestamp := hin.1 v hv
      show v < t.timestamp + oneMinute
      unfold oneMinute
      omega
  · rw [hp]
    by_cases hc : c.state.lastWasSmall = true
    · rw [if_pos hc]
      intro _
      obtain ⟨e, he⟩ := h hc
      refine ⟨e, { he with recent := recent_cons.2 (.inr ⟨rfl, he.recent⟩), latest := ?_ }⟩
      intro f hf hsm
      rcases List.mem_cons.1 hf with rfl | hf
      · exact absurd hsm hs
      · exact he.latest f hf hsm
    · rw [if_neg hc]
      intro hf
      cases hf

theorem flagged_fire {v : Option Int} {es : List (Entry Transaction Alert)} {c : Context State}
    {w : Int} (h : Flagged v es c) : Flagged (some w) es (detector.fire w c) := by
  by_cases hd : ∃ t ∈ c.timers, t ≤ w
  · obtain ⟨t, ht, hw⟩ := hd
    intro hf
    rw [fire_lastWasSmall ht hw] at hf
    cases hf
  · have hlt : ∀ t ∈ c.timers, w < t := fun t ht => by
      by_contra hw
      exact hd ⟨t, ht, by omega⟩
    have hs := KeyedProcess.fire_of_none_due (F := detector) hlt
    intro hf
    rw [hs] at hf
    obtain ⟨e, he⟩ := h hf
    refine ⟨e, { he with timer := ?_, registered := ?_, pending := ?_ }⟩
    · rw [hs]
      exact he.timer
    · exact Timers.mem_pending.2 ⟨he.registered, hlt _ he.registered⟩
    · intro u hu
      cases hu
      exact hlt _ he.registered

/-- A small transaction in time sets the flag of its account. -/
theorem step_small {s : Operator Int Transaction Alert State} {t : Transaction}
    (hin : detector.InTime s.watermark (history t.accountId s.log) t)
    (h : t.amount ≤ smallAmount) :
    detector.step s (.element t) = some
      ⟨Function.update s.contexts t.accountId ⟨⟨some true, some (t.timestamp + oneMinute)⟩,
        (s.contexts t.accountId).timers.register (t.timestamp + oneMinute)⟩,
        s.watermark, ⟨t, []⟩ :: s.log⟩ := by
  have hs := KeyedProcess.step_of_inTime hin
  have hp : detector.processElement t (s.contexts (detector.key t)) = _ :=
    processElement_small h (s.contexts t.accountId)
  rw [hp] at hs
  exact hs

/-- A large transaction in time raises an alert while the flag is set. -/
theorem step_large {s : Operator Int Transaction Alert State} {t : Transaction}
    (hin : detector.InTime s.watermark (history t.accountId s.log) t)
    (hw : (s.contexts t.accountId).state.lastWasSmall = true) (h : largeAmount ≤ t.amount) :
    detector.step s (.element t) = some
      ⟨Function.update s.contexts t.accountId (cleanUp (s.contexts t.accountId)),
        s.watermark, ⟨t, [alertOf t]⟩ :: s.log⟩ := by
  have hs := KeyedProcess.step_of_inTime hin
  have hp : detector.processElement t (s.contexts (detector.key t)) = _ := if_pos ⟨hw, h⟩
  rw [hp] at hs
  exact hs

/-- Every account of every step keeps its invariant. -/
theorem step_flagged {s s' : Operator Int Transaction Alert State} {l : Event Transaction}
    (h : detector.step s l = some s')
    (hs : ∀ a, Flagged s.watermark (history a s.log) (s.contexts a)) (a : Int) :
    Flagged s'.watermark (history a s'.log) (s'.contexts a) :=
  KeyedProcess.keyed_step (J := fun _ w es c => Flagged w es c)
    (fun _ _ _ _ _ _ hin hJ => flagged_element hin hJ) (fun _ _ _ _ _ _ hJ => flagged_fire hJ)
    h hs a

end FlinkPractices.Fraud
