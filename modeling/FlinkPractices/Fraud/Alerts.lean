import FlinkPractices.Fraud.Detector
import FlinkPractices.Lib.AnyOrder
import FlinkPractices.Lib.Credit

/-!
# One alert for one small transaction

The detector on transactions in any order of their timestamps, with any registered timer firing at
any moment (`fraudDetector`).  Nothing is assumed of watermarks or of clocks; what remains is a flag
for each account that is used as a credit: a small transaction grants it, an alert spends it, and a
timer, whichever it is, lets it lapse.

`OncePerSmall` is what one account has to show for its alerts:

* each is one alert of a large transaction of the account,
* a small transaction lies before the first of them and between any two, and
* in every stretch of its steps from the beginning there are at most as many alerts as small
  transactions.

## Proof

* `kind`, `react_credit` — every step of the account grants, spends or lets lapse, and changes the
  flag as its kind says; the rest is `Lib.Credit`, which knows nothing of transactions
* `Credited` — the flag of an account is the credit that is left of its steps (`run_credited`)

Principal results: `oncePerSmall_of_run`, and `alerts_le_small`, the same count for runs with
watermarks.
-/

set_option autoImplicit false

namespace FlinkPractices.Fraud

open Lib FraudDetector

/-- The detector keyed by account, without a clock. -/
def fraudDetector : TimedProcess Int Transaction Alert State where
  key := Transaction.accountId
  init := .init
  processElement := processElement
  onTimer := onTimer

theorem detector_timed : detector.timed = fraudDetector := rfl

/-- What an account processed, and what it emitted. -/
abbrev Step := Entry (Happening Int Transaction) Alert

/-- A transaction of at most `1.00`. -/
def isSmall (e : Step) : Bool :=
  match e.element with
  | .element t => t.amount ≤ smallAmount
  | .timer _ _ => false

/-- What is emitted is one alert, of a transaction of the account of at least `500.00`. -/
def FromLarge (account : Int) (e : Step) : Prop :=
  e.output ≠ [] → ∃ t, e.element = .element t ∧ t.accountId = account ∧ largeAmount ≤ t.amount ∧
    e.output = [alertOf t]

/-- One small transaction justifies at most one alert; `es`: what an account processed, oldest
first. -/
structure OncePerSmall (account : Int) (es : List Step) : Prop where
  large : ∀ e ∈ es, FromLarge account e
  first : ∀ before e after, es = before ++ e :: after → e.output ≠ [] → ∃ q ∈ before, isSmall q
  between : ∀ before e mid f after, es = before ++ e :: (mid ++ f :: after) → e.output ≠ [] →
    f.output ≠ [] → ∃ q ∈ mid, isSmall q
  count : ∀ es', es' <+: es → (es'.flatMap Entry.output).length ≤ es'.countP isSmall

/-! ## The flag as a credit -/

/-- What a step of an account does to the flag. -/
def kind (e : Step) : Credit :=
  match e.element, e.output with
  | .timer _ _, _ => .lapse
  | .element _, _ :: _ => .spend
  | .element t, [] => if t.amount ≤ smallAmount then .grant else .idle

theorem kind_eq_spend {a : Int} {e : Step} (h : FromLarge a e) :
    kind e = .spend ↔ e.output ≠ [] := by
  obtain ⟨element, output⟩ := e
  cases output with
  | nil =>
    refine iff_of_false ?_ (fun hn => hn rfl)
    cases element with
    | element t =>
      show ¬(if t.amount ≤ smallAmount then Credit.grant else .idle) = .spend
      split <;> decide
    | timer a t =>
      intro hk
      cases hk
  | cons alert alerts =>
    obtain ⟨t, rfl, -⟩ := h (List.cons_ne_nil _ _)
    exact iff_of_true rfl (List.cons_ne_nil _ _)

theorem kind_eq_grant {a : Int} {e : Step} (h : FromLarge a e) :
    kind e = .grant ↔ isSmall e = true := by
  obtain ⟨element, output⟩ := e
  cases output with
  | nil =>
    cases element with
    | element t =>
      show (if t.amount ≤ smallAmount then Credit.grant else .idle) = .grant ↔
        decide (t.amount ≤ smallAmount) = true
      split <;> simp_all
    | timer a t => simp [kind, isSmall]
  | cons alert alerts =>
    obtain ⟨t, rfl, -, hl, -⟩ := h (List.cons_ne_nil _ _)
    refine iff_of_false (fun hk => ?_) (fun hs => ?_)
    · cases hk
    · exact not_large_of_small (of_decide_eq_true hs) hl

/-- A step changes the flag as its kind says, and raises alerts for large transactions only. -/
theorem react_credit {c c' : Context State} {h : Happening Int Transaction} {output : List Alert}
    (hr : fraudDetector.react c h = some (c', output)) :
    Credit.step c.state.lastWasSmall (kind ⟨h, output⟩) = some c'.state.lastWasSmall ∧
      FromLarge (fraudDetector.keyOf h) ⟨h, output⟩ := by
  cases h with
  | element t =>
    have hp : processElement t c = (c', output) := Option.some.inj hr
    rcases processElement_cases t c with ⟨hf, hl, he⟩ | ⟨hs, he⟩ | ⟨hs, -, he⟩
    · rw [he] at hp
      cases hp
      rw [hf]
      exact ⟨rfl, fun _ => ⟨t, rfl, rfl, hl, rfl⟩⟩
    · rw [he] at hp
      cases hp
      have hk : kind ⟨.element t, []⟩ = .grant := if_pos hs
      rw [hk]
      exact ⟨by cases c.state.lastWasSmall <;> rfl, fun hn => absurd rfl hn⟩
    · rw [he] at hp
      cases hp
      have hk : kind ⟨.element t, []⟩ = .idle := if_neg hs
      rw [hk]
      refine ⟨?_, fun hn => absurd rfl hn⟩
      cases hf : c.state.lastWasSmall with
      | true =>
        rw [if_pos rfl, hf]
        rfl
      | false => rfl
  | timer a t =>
    have hc : (⟨.init, c.timers.delete t⟩, []) = (c', output) := by
      by_cases ht : t ∈ c.timers
      · exact Option.some.inj ((if_pos ht).symm.trans hr)
      · exact absurd ((if_neg ht).symm.trans hr) (by simp)
    cases hc
    exact ⟨by cases c.state.lastWasSmall <;> rfl, fun hn => absurd (onTimer_output t c.state) hn⟩

/-- The flag of an account is the credit that is left of its steps. -/
structure Credited (account : Int) (es : List Step) (c : Context State) : Prop where
  trace : Credit.trace kind false es = some c.state.lastWasSmall
  large : ∀ e ∈ es, FromLarge account e

theorem Credited.concat {a : Int} {es : List Step} {c c' : Context State}
    {h : Happening Int Transaction} {output : List Alert} (hi : Credited a es c)
    (ha : fraudDetector.keyOf h = a) (hr : fraudDetector.react c h = some (c', output)) :
    Credited a (es ++ [⟨h, output⟩]) c' := by
  obtain ⟨hstep, hlarge⟩ := react_credit hr
  rw [ha] at hlarge
  refine ⟨Credit.trace_concat hi.trace hstep, ?_⟩
  intro e he
  rcases List.mem_append.1 he with he | he
  · exact hi.large e he
  · rw [List.mem_singleton.1 he]
    exact hlarge

/-- Every account of every run. -/
theorem run_credited {hs : List (Happening Int Transaction)}
    {s : Unordered Int Transaction Alert State}
    (h : run fraudDetector.step fraudDetector.start hs = some s) (a : Int) :
    Credited a (fraudDetector.history a s.log) (s.contexts a) :=
  TimedProcess.run_keyed (J := Credited) (fun _ => ⟨rfl, fun _ he => by cases he⟩)
    (fun _ _ _ _ _ _ ha hr hi => hi.concat ha hr) h a

/-! ## Counting -/

theorem length_output {a : Int} {e : Step} (h : FromLarge a e) :
    e.output.length = if kind e = .spend then 1 else 0 := by
  by_cases ho : e.output = []
  · rw [if_neg (fun hk => (kind_eq_spend h).1 hk ho), ho]
    rfl
  · obtain ⟨t, -, -, -, he⟩ := h ho
    rw [if_pos ((kind_eq_spend h).2 ho), he]
    rfl

/-- The alerts of an account are its spendings. -/
theorem length_alerts {a : Int} {es : List Step} (h : ∀ e ∈ es, FromLarge a e) :
    (es.flatMap Entry.output).length = es.countP fun e => kind e = .spend := by
  induction es with
  | nil => rfl
  | cons e es ih =>
    have htail := ih fun q hq => h q (List.mem_cons_of_mem e hq)
    rw [List.flatMap_cons, List.length_append, length_output (h e List.mem_cons_self), htail,
      List.countP_cons, Nat.add_comm]
    simp only [decide_eq_true_eq]

theorem countP_small {a : Int} {es : List Step} (h : ∀ e ∈ es, FromLarge a e) :
    (es.countP fun e => kind e = .grant) = es.countP isSmall :=
  List.countP_congr fun e he => decide_eq_true_iff.trans (kind_eq_grant (h e he))

theorem Credited.oncePerSmall {a : Int} {es : List Step} {c : Context State}
    (h : Credited a es c) : OncePerSmall a es where
  large := h.large
  first before e after hes he := by
    have hl := h.large
    have ht := h.trace
    rw [hes] at hl ht
    have hk := (kind_eq_spend (hl e (by simp))).2 he
    obtain ⟨q, hq, hg⟩ := Credit.granted_before ht hk
    exact ⟨q, hq, (kind_eq_grant (hl q (List.mem_append_left _ hq))).1 hg⟩
  between before e mid f after hes he hf := by
    have hl := h.large
    have ht := h.trace
    rw [hes] at hl ht
    have hke := (kind_eq_spend (hl e (by simp))).2 he
    have hkf := (kind_eq_spend (hl f (by simp))).2 hf
    obtain ⟨q, hq, hg⟩ := Credit.granted_between ht hke hkf
    exact ⟨q, hq, (kind_eq_grant (hl q (by simp [hq]))).1 hg⟩
  count es' hes := by
    obtain ⟨rest, rfl⟩ := hes
    have hl : ∀ e ∈ es', FromLarge a e := fun e he => h.large e (List.mem_append_left rest he)
    obtain ⟨b, ht, -⟩ := Credit.trace_append h.trace
    have hle := Credit.countP_spend_le ht
    rw [length_alerts hl, ← countP_small hl]
    exact Nat.le_of_add_right_le hle

/-- **One small transaction justifies at most one alert**, in any order of the timestamps and
whenever the timers fire. -/
theorem oncePerSmall_of_run {hs : List (Happening Int Transaction)}
    {s : Unordered Int Transaction Alert State}
    (h : run fraudDetector.step fraudDetector.start hs = some s) (a : Int) :
    OncePerSmall a (fraudDetector.history a s.log) :=
  (run_credited h a).oncePerSmall

/-! ## A run out of order -/

/-- Small amounts at 60 and at 0 seconds and a large one; the timer of the first fires, and another
large amount follows. -/
def outOfOrder : List (Happening Int Transaction) :=
  [.element ⟨5, 60000, smallAmount⟩, .element ⟨5, 0, smallAmount⟩, .element ⟨5, 30000, largeAmount⟩,
    .timer 5 120000, .element ⟨5, 40000, largeAmount⟩]

theorem outOfOrder_isSome :
    (run fraudDetector.step fraudDetector.start outOfOrder).isSome = true := by
  decide +kernel

def outOfOrderEnd : Unordered Int Transaction Alert State := Option.get _ outOfOrder_isSome

/-- One alert, of the first large amount. -/
example : (fraudDetector.history 5 outOfOrderEnd.log).map (fun e => e.output.length) =
    [0, 0, 1, 0, 0] := by
  decide +kernel

/-- `oncePerSmall_of_run` of that run. -/
theorem oncePerSmall_outOfOrder : OncePerSmall 5 (fraudDetector.history 5 outOfOrderEnd.log) :=
  oncePerSmall_of_run (Option.some_get outOfOrder_isSome).symm 5

/-! ## Watermarks -/

theorem flatMap_elements {a : Int} {es : List Step} (h : ∀ e ∈ es, FromLarge a e) :
    (TimedProcess.elements es).flatMap Entry.output = es.flatMap Entry.output := by
  induction es with
  | nil => rfl
  | cons e es ih =>
    have htail := ih fun q hq => h q (List.mem_cons_of_mem e hq)
    obtain ⟨element, output⟩ := e
    cases element with
    | element t => exact congrArg (output ++ ·) htail
    | timer b t =>
      have ho : output = [] := by
        by_contra hne
        obtain ⟨u, hu, -⟩ := h _ List.mem_cons_self hne
        cases hu
      subst ho
      exact htail

theorem countP_elements (es : List Step) :
    ((TimedProcess.elements es).countP fun e => e.element.amount ≤ smallAmount) =
      es.countP isSmall := by
  induction es with
  | nil => rfl
  | cons e es ih =>
    obtain ⟨element, output⟩ := e
    cases element with
    | element t =>
      rw [List.countP_cons, ← ih]
      exact List.countP_cons
    | timer b t =>
      rw [List.countP_cons, ← ih]
      rfl

/-- **At most as many alerts as small transactions**, for every account and every watermark
schedule. -/
theorem alerts_le_small {ls : List (Event Transaction)} {s : Operator Int Transaction Alert State}
    (h : run detector.step detector.start ls = some s) (a : Int) :
    ((history a s.log).flatMap Entry.output).length ≤
      (history a s.log).countP fun e => e.element.amount ≤ smallAmount := by
  obtain ⟨hs, u, hu, hm⟩ := TimedProcess.run_timed h a
  have hc := run_credited hu a
  have hcount := hc.oncePerSmall.count _ (List.prefix_refl _)
  rw [← flatMap_elements hc.large, ← countP_elements, ← detector_timed, hm.elements,
    List.countP_reverse] at hcount
  rwa [((List.reverse_perm (history a s.log)).flatMap_right Entry.output).length_eq] at hcount

end FlinkPractices.Fraud
