import FlinkPractices.Fraud.Alerts
import FlinkPractices.Lib.Answers

/-!
# Which transactions raise an alert

The detector keeps a flag and a timer for each account.  `alerts` says the same of an account's past
alone: a large transaction raises an alert iff, of the small and the large transactions of its
account and the timers that fired, a small transaction is the latest.  Amounts that are neither,
`nan` among them, change nothing.

This is the detector without its state: a function from what has happened to what is emitted.  It is
not what the detector is documented to do (that is `Complete` and `Sound`), but what it does, in
every run, whatever the order of timestamps and whenever timers fire.

* `flagAfter`, `lastSmall` — what one happening makes of the flag, and what the past has made of it
* `alerts` — what is raised next
* `react_exact` — one step: if the flag is what the past says, what is emitted is `alerts` of the
  past, and the flag is again what the longer past says
* `run_exact` — so of every account of every run

Principal result: `exact_of_run`, by the rule of `Lib.Answers` for a process that answers each
happening by its key's past alone.
-/

set_option autoImplicit false

namespace FlinkPractices.Fraud

open Lib FraudDetector

/-- What has happened to an account, oldest first. -/
abbrev Past := List (Happening Int Transaction)

/-- What the flag of the account holds after it, unless it is left as it was. -/
def flagAfter : Happening Int Transaction → Option Bool
  | .element t =>
    if t.amount ≤ smallAmount then some true
    else if largeAmount ≤ t.amount then some false
    else none
  | .timer _ _ => some false

/-- Whether a small transaction was the latest to change the flag. -/
def lastSmall (past : Past) : Bool := (past.filterMap flagAfter).getLast?.getD false

/-- What is raised after that past. -/
def alerts (past : Past) : Happening Int Transaction → List Alert
  | .element t => if lastSmall past = true ∧ largeAmount ≤ t.amount then [alertOf t] else []
  | .timer _ _ => []

/-! ## The flag and the past -/

theorem lastSmall_concat (past : Past) (h : Happening Int Transaction) :
    lastSmall (past ++ [h]) = (flagAfter h).getD (lastSmall past) := by
  unfold lastSmall
  rw [List.filterMap_append]
  cases hf : flagAfter h <;> simp [hf]

theorem flagAfter_small {t : Transaction} (h : t.amount ≤ smallAmount) :
    flagAfter (.element t) = some true := if_pos h

theorem flagAfter_large {t : Transaction} (h : largeAmount ≤ t.amount) :
    flagAfter (.element t) = some false := by
  have hs : ¬t.amount ≤ smallAmount := fun hs => not_large_of_small hs h
  simp [flagAfter, hs, h]

theorem flagAfter_neither {t : Transaction} (hs : ¬t.amount ≤ smallAmount)
    (hl : ¬largeAmount ≤ t.amount) : flagAfter (.element t) = none := by
  simp [flagAfter, hs, hl]

theorem alerts_of_large {past : Past} {t : Transaction} (hp : lastSmall past = true)
    (hl : largeAmount ≤ t.amount) : alerts past (.element t) = [alertOf t] := if_pos ⟨hp, hl⟩

theorem alerts_eq_nil {past : Past} {t : Transaction}
    (h : ¬(lastSmall past = true ∧ largeAmount ≤ t.amount)) : alerts past (.element t) = [] :=
  if_neg h

theorem lastWasSmall_cleanUp (c : Context State) : (cleanUp c).state.lastWasSmall = false := rfl

/-- **The flag is what the past says**, and what is raised is what the past says. -/
theorem react_exact (past : Past) (c : Context State) (h : Happening Int Transaction)
    (c' : Context State) (output : List Alert) (hr : fraudDetector.react c h = some (c', output))
    (hi : c.state.lastWasSmall = lastSmall past) :
    output = alerts past h ∧ c'.state.lastWasSmall = lastSmall (past ++ [h]) := by
  rw [lastSmall_concat]
  cases h with
  | element t =>
    have hp : processElement t c = (c', output) := Option.some.inj hr
    rcases processElement_cases t c with ⟨hf, hl, he⟩ | ⟨hs, he⟩ | ⟨hs, hnl, he⟩
    · rw [he] at hp
      cases hp
      rw [flagAfter_large hl, alerts_of_large (hi.symm.trans hf) hl]
      exact ⟨rfl, rfl⟩
    · rw [he] at hp
      cases hp
      rw [flagAfter_small hs, alerts_eq_nil fun h => not_large_of_small hs h.2]
      exact ⟨rfl, rfl⟩
    · rw [he] at hp
      cases hp
      rw [hi] at hnl
      refine ⟨(alerts_eq_nil fun h => hnl h.1 h.2).symm, ?_⟩
      by_cases hf : c.state.lastWasSmall = true
      · rw [if_pos hf, flagAfter_neither hs (hnl (hi.symm.trans hf))]
        exact hi
      · rw [if_neg hf, lastWasSmall_cleanUp]
        rw [hi, Bool.not_eq_true] at hf
        by_cases hl : largeAmount ≤ t.amount
        · rw [flagAfter_large hl]
          rfl
        · rw [flagAfter_neither hs hl, hf]
          rfl
  | timer a t =>
    by_cases ht : t ∈ c.timers
    · have hc : (⟨.init, c.timers.delete t⟩, []) = (c', output) :=
        Option.some.inj ((if_pos ht).symm.trans hr)
      cases hc
      exact ⟨rfl, rfl⟩
    · exact absurd ((if_neg ht).symm.trans hr) (by simp)

/-- Every account of every run. -/
theorem run_exact {hs : List (Happening Int Transaction)}
    {s : Unordered Int Transaction Alert State}
    (h : run fraudDetector.step fraudDetector.start hs = some s) :
    TimedProcess.Answered fraudDetector alerts
      (fun past c => c.state.lastWasSmall = lastSmall past) hs s :=
  TimedProcess.run_answers rfl react_exact h

/-- **What a run raises is a function of what happened**: in any order of the timestamps and
whenever timers fire, each happening is answered by its account's past alone. -/
theorem exact_of_run {hs : List (Happening Int Transaction)}
    {s : Unordered Int Transaction Alert State}
    (h : run fraudDetector.step fraudDetector.start hs = some s) :
    s.log = fraudDetector.answers alerts [] hs :=
  (run_exact h).log

/-- `exact_of_run` of the run out of order. -/
theorem exact_of_run_outOfOrder :
    outOfOrderEnd.log = fraudDetector.answers alerts [] outOfOrder :=
  exact_of_run (Option.some_get outOfOrder_isSome).symm

end FlinkPractices.Fraud
