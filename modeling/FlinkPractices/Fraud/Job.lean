import FlinkPractices.Fraud.Exact
import FlinkPractices.Lib.EndOfInput

/-!
# The fraud detection job (`fraud_detection/job.py`)

The source is a collection of tuples without watermarks, keyed by account after it has been mapped
to transactions; alerts are printed as lines.  No timer fires before the collection is over; then
the final watermark fires the ones that are left, in whichever order of the accounts.

* `transactionMap`, `tupleToTransactionMap`, `alertMap` — the three map functions
* `Job` — `create_fraud_detection_job()` on a collection of transactions, executed to its end, by
  `Lib.EndOfInput`
* `lines` — what it should print: for each large transaction whose account's latest small or large
  one was small, the line of its alert

Principal result: `job_exact`.  The job comes to an end and leaves no state; its lines are `lines`.
The minute between the two transactions plays no part, nor do timestamps, since nothing ever fires
in time: a collection with other timestamps is printed in the same lines (`lines_untimed`).

The collection of the repository, `createSampleTransactions`, is evaluated at the end: the lines of
the accounts 3, 4 and 3 that its guide announces.
-/

set_option autoImplicit false

namespace FlinkPractices.Fraud

open Lib FraudDetector

/-- `TransactionMapFunction.map()`, and the tuples of `create_fraud_detection_job()`. -/
def transactionMap (value : Transaction) : Int × Int × Double :=
  (value.accountId, value.timestamp, value.amount)

/-- `TupleToTransactionMapFunction.map()`. -/
def tupleToTransactionMap (value : Int × Int × Double) : Transaction where
  accountId := value.1
  timestamp := value.2.1
  amount := value.2.2

/-- `AlertMapFunction.map()`. -/
def alertMap (value : Alert) : String := "🚨 FRAUD ALERT: " ++ value.message

/-- `create_fraud_detection_job()` on a collection of transactions, executed to its end. -/
def Job (transactions : List Transaction) (s : Unordered Int Transaction Alert State) : Prop :=
  fraudDetector.Executes ((transactions.map transactionMap).map tupleToTransactionMap) s

/-- The lines that have been printed. -/
def printed (s : Unordered Int Transaction Alert State) : List String :=
  (s.log.flatMap Entry.output).map alertMap

/-- The transactions of one account, as its past. -/
def pastOf (account : Int) (before : List Transaction) : Past :=
  (before.filter (fun t => t.accountId = account)).map .element

/-- The lines of the transactions after `before`. -/
def lines (before : List Transaction) : List Transaction → List String
  | [] => []
  | t :: ts =>
    (alerts (pastOf t.accountId before) (.element t)).map alertMap ++ lines (before ++ [t]) ts

/-! ## The lines -/

theorem tupleToTransactionMap_transactionMap (t : Transaction) :
    tupleToTransactionMap (transactionMap t) = t := rfl

theorem map_tuples (ts : List Transaction) :
    (ts.map transactionMap).map tupleToTransactionMap = ts := by
  induction ts with
  | nil => rfl
  | cons t ts ih =>
    rw [List.map_cons, List.map_cons, tupleToTransactionMap_transactionMap, ih]

theorem past_elements (a : Int) (before : List Transaction) :
    fraudDetector.past a (before.map .element) = pastOf a before := by
  unfold TimedProcess.past pastOf
  rw [List.filter_map]
  rfl

/-- Timers print nothing. -/
theorem answers_firings {ends : List (Happening Int Transaction)}
    (h : TimedProcess.Firings ends) (before : Past) :
    (fraudDetector.answers alerts before ends).flatMap Entry.output = [] := by
  induction ends generalizing before with
  | nil => rfl
  | cons x ends ih =>
    obtain ⟨a, t, rfl⟩ := h x List.mem_cons_self
    exact ih (fun y hy => h y (List.mem_cons_of_mem _ hy)) _

theorem answers_elements (before ts : List Transaction) :
    ((fraudDetector.answers alerts (before.map .element) (ts.map .element)).flatMap
      Entry.output).map alertMap = lines before ts := by
  induction ts generalizing before with
  | nil => rfl
  | cons t ts ih =>
    have htail := ih (before ++ [t])
    rw [List.map_append] at htail
    rw [List.map_cons, TimedProcess.answers, List.flatMap_cons, List.map_append]
    show (alerts (fraudDetector.past t.accountId (before.map .element)) (.element t)).map _ ++ _ = _
    rw [past_elements]
    exact congrArg (_ ++ ·) htail

theorem Job.printed {ts : List Transaction} {s : Unordered Int Transaction Alert State}
    (h : Job ts s) : printed s = lines [] ts := by
  obtain ⟨ends, hends, hrun, -⟩ := h
  rw [map_tuples] at hrun
  unfold Fraud.printed
  rw [(run_exact hrun).log, TimedProcess.answers_append, List.flatMap_append, answers_firings hends,
    List.append_nil]
  exact answers_elements [] ts

/-! ## What is left -/

/-- An account without state, or with its flag and a timer that will clear it. -/
def Armed (c : Context State) : Prop :=
  c.state = .init ∨ ∃ t ∈ c.timers, c.state = ⟨some true, some t⟩

theorem armed_react {c c' : Context State} {h : Happening Int Transaction} {output : List Alert}
    (hr : fraudDetector.react c h = some (c', output)) (hi : Armed c) : Armed c' := by
  cases h with
  | element t =>
    have hp : processElement t c = (c', output) := Option.some.inj hr
    rcases processElement_cases t c with ⟨-, -, he⟩ | ⟨-, he⟩ | ⟨-, -, he⟩
    · rw [he] at hp
      cases hp
      exact .inl rfl
    · rw [he] at hp
      cases hp
      exact .inr ⟨_, Timers.mem_register.2 (.inl rfl), rfl⟩
    · rw [he] at hp
      cases hp
      by_cases hf : c.state.lastWasSmall = true
      · rw [if_pos hf]
        exact hi
      · rw [if_neg hf]
        exact .inl rfl
  | timer a t =>
    by_cases ht : t ∈ c.timers
    · have hc : (⟨.init, c.timers.delete t⟩, []) = (c', output) :=
        Option.some.inj ((if_pos ht).symm.trans hr)
      cases hc
      exact .inl rfl
    · exact absurd ((if_neg ht).symm.trans hr) (by simp)

theorem run_armed {hs : List (Happening Int Transaction)}
    {s : Unordered Int Transaction Alert State}
    (h : run fraudDetector.step fraudDetector.start hs = some s) (a : Int) : Armed (s.contexts a) :=
  TimedProcess.run_keyed (J := fun _ _ c => Armed c) (fun _ => .inl rfl)
    (fun _ _ _ _ _ _ _ hr hi => armed_react hr hi) h a

theorem Job.cleared {ts : List Transaction} {s : Unordered Int Transaction Alert State}
    (h : Job ts s) (a : Int) : s.contexts a = ⟨.init, .empty⟩ := by
  obtain ⟨ends, -, hrun, hd⟩ := h
  have ha := run_armed hrun a
  have hempty := hd a
  generalize s.contexts a = c at ha hempty
  obtain ⟨state, times, hsorted⟩ := c
  change times = [] at hempty
  subst hempty
  rcases ha with ha | ⟨t, ht, -⟩
  · change state = .init at ha
    subst ha
    rfl
  · exact absurd ht List.not_mem_nil

/-! ## The timestamps -/

/-- What the job makes of a transaction. -/
def untimed (t : Transaction) : Int × Double := (t.accountId, t.amount)

theorem flagAfter_untimed {t u : Transaction} (h : untimed t = untimed u) :
    flagAfter (.element t) = flagAfter (.element u) := by
  obtain ⟨account, timestamp, amount⟩ := t
  cases h
  rfl

theorem alerts_untimed {past past' : Past} {t u : Transaction}
    (hp : lastSmall past = lastSmall past') (h : untimed t = untimed u) :
    alerts past (.element t) = alerts past' (.element u) := by
  obtain ⟨account, timestamp, amount⟩ := t
  cases h
  simp only [alerts, alertOf, hp]

theorem filterMap_untimed (a : Int) {ts us : List Transaction}
    (h : ts.map untimed = us.map untimed) :
    (pastOf a ts).filterMap flagAfter = (pastOf a us).filterMap flagAfter := by
  unfold pastOf
  induction ts generalizing us with
  | nil =>
    rw [List.map_nil, eq_comm, List.map_eq_nil_iff] at h
    rw [h]
  | cons t ts ih =>
    cases us with
    | nil => cases h
    | cons u us =>
      obtain ⟨htu, h⟩ := List.cons.inj h
      have hi : t.accountId = u.accountId := congrArg Prod.fst htu
      have htail := ih h
      rw [List.filter_cons, List.filter_cons, hi]
      split
      · rw [List.map_cons, List.map_cons, List.filterMap_cons, List.filterMap_cons,
          flagAfter_untimed htu, htail]
      · exact htail

theorem lines_untimed {before before' ts us : List Transaction}
    (hb : before.map untimed = before'.map untimed) (h : ts.map untimed = us.map untimed) :
    lines before ts = lines before' us := by
  induction ts generalizing before before' us with
  | nil =>
    rw [List.map_nil, eq_comm, List.map_eq_nil_iff] at h
    rw [h]
    rfl
  | cons t ts ih =>
    cases us with
    | nil => cases h
    | cons u us =>
      obtain ⟨htu, h⟩ := List.cons.inj h
      have hi : t.accountId = u.accountId := congrArg Prod.fst htu
      have hlast :
          lastSmall (pastOf t.accountId before) = lastSmall (pastOf u.accountId before') := by
        unfold lastSmall
        rw [hi, filterMap_untimed _ hb]
      have hnext : (before ++ [t]).map untimed = (before' ++ [u]).map untimed := by
        simp [hb, htu]
      unfold lines
      rw [ih hnext h, alerts_untimed hlast htu]

/-- **What the job does with every collection**: it comes to an end; when it does, no account has a
state or a timer left, and its lines are those of the large transactions whose account's latest
small or large one was small.  They are the same whatever the timestamps. -/
theorem job_exact (transactions : List Transaction) :
    (∃ s, Job transactions s) ∧ ∀ s, Job transactions s →
      printed s = lines [] transactions ∧ (∀ a, s.contexts a = ⟨.init, .empty⟩) ∧
        ∀ others s', others.map untimed = transactions.map untimed → Job others s' →
          printed s' = printed s := by
  refine ⟨TimedProcess.exists_executes _, fun s h => ⟨h.printed, h.cleared, ?_⟩⟩
  intro others s' ho h'
  rw [h.printed, h'.printed]
  exact lines_untimed rfl ho

/-! ## The sample -/

/-- `create_sample_transactions()`. -/
def createSampleTransactions : List Transaction :=
  let baseTime : Int := 1609459200000
  let half : Double := .finite ⟨0x3fe0000000000000, by decide, by decide⟩
  let threeQuarters : Double := .finite ⟨0x3fe8000000000000, by decide, by decide⟩
  let tenth : Double := .finite ⟨0x3fb999999999999a, by decide, by decide⟩
  let justSmall : Double := .finite ⟨0x3fefae147ae147ae, by decide, by decide⟩
  let sixHundred : Double := .finite ⟨0x4082c00000000000, by decide, by decide⟩
  let sevenHundred : Double := .finite ⟨0x4085e00000000000, by decide, by decide⟩
  let nearlyThousand : Double := .finite ⟨0x408f380000000000, by decide, by decide⟩
  [⟨1, baseTime, sixHundred⟩, ⟨1, baseTime + 30000, sevenHundred⟩,
    ⟨2, baseTime, half⟩, ⟨2, baseTime + 10000, threeQuarters⟩,
    ⟨3, baseTime, half⟩, ⟨3, baseTime + 30000, sixHundred⟩,
    ⟨4, baseTime, smallAmount⟩, ⟨4, baseTime + 30000, largeAmount⟩,
    ⟨5, baseTime, tenth⟩, ⟨5, baseTime + 10000, half⟩,
    ⟨3, baseTime + 120000, justSmall⟩, ⟨3, baseTime + 150000, nearlyThousand⟩]

/-- The lines of the sample: accounts 3, 4 and 3. -/
example : lines [] createSampleTransactions =
    ["🚨 FRAUD ALERT: 소액 거래 후 1분 내 고액 거래 감지: $600.00 (계정: 3)",
      "🚨 FRAUD ALERT: 소액 거래 후 1분 내 고액 거래 감지: $500.00 (계정: 4)",
      "🚨 FRAUD ALERT: 소액 거래 후 1분 내 고액 거래 감지: $999.00 (계정: 3)"] := by
  decide +kernel

end FlinkPractices.Fraud
