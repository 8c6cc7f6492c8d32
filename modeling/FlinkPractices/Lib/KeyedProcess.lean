import FlinkPractices.Lib.System
import Mathlib.Logic.Function.Basic

/-!
# Keyed process functions with event-time timers

An operator that runs a process function once per key, as a stream processor does: each key has its
own state and its own event-time timers, a timer is registered once however often it is asked for,
and a watermark fires the timers it has reached, each once and in time order.  `on_timer` is taken
to update the state only (it emits nothing and registers nothing).

* `Timers` — the timers of one key, in time order and each time once; both are fields, so `register`
  and `delete` prove them
* `Context` — what a process function sees of the current key
* `Operator` — the contexts of all keys, the watermark, and the log of the elements processed,
  newest first, each with what it emitted

An element is *in time* when it is later than the watermark and not earlier than the elements of
its key before it; `step` is defined on such elements, and on watermarks that do not go back.

Principal results: `keyed_element` and `keyed_step` (what holds of one key alone, and is kept by its
own elements and by watermarks, is kept by every step for every key), `run_keyed` (the same of
runs).  The assertion may speak of the watermark, the key's elements and its context; what happens
to other keys never has to be considered again.
-/

set_option autoImplicit false

namespace FlinkPractices.Lib

/-- The event-time timers of one key: in time order, each time once. -/
structure Timers where
  times : List Int
  sorted : times.Pairwise (· < ·)

namespace Timers

instance : Membership Int Timers := ⟨fun ts t => t ∈ ts.times⟩

instance (t : Int) (ts : Timers) : Decidable (t ∈ ts) :=
  inferInstanceAs (Decidable (t ∈ ts.times))

def empty : Timers := ⟨[], .nil⟩

/-- Insertion in order; a time that is there already is not added. -/
def insert (t : Int) : List Int → List Int
  | [] => [t]
  | u :: us => if t < u then t :: u :: us else if t = u then u :: us else u :: insert t us

theorem mem_insert {t v : Int} : ∀ {us : List Int}, v ∈ insert t us ↔ v = t ∨ v ∈ us
  | [] => by simp [insert]
  | u :: us => by
    unfold insert
    split
    · exact List.mem_cons
    · split
      · rename_i h
        subst h
        simp
      · rw [List.mem_cons, mem_insert, List.mem_cons]
        exact or_left_comm

theorem sorted_insert {t : Int} : ∀ {us : List Int}, us.Pairwise (· < ·) →
    (insert t us).Pairwise (· < ·)
  | [], _ => List.pairwise_singleton _ _
  | u :: us, h => by
    obtain ⟨hu, hus⟩ := List.pairwise_cons.1 h
    unfold insert
    split
    · rename_i ht
      refine List.pairwise_cons.2 ⟨fun v hv => ?_, h⟩
      rcases List.mem_cons.1 hv with rfl | hv
      · exact ht
      · exact Int.lt_trans ht (hu v hv)
    · split
      · exact h
      · refine List.pairwise_cons.2 ⟨fun v hv => ?_, sorted_insert hus⟩
        rcases mem_insert.1 hv with rfl | hv
        · omega
        · exact hu v hv

/-- `register_event_time_timer(t)`. -/
def register (ts : Timers) (t : Int) : Timers := ⟨insert t ts.times, sorted_insert ts.sorted⟩

/-- `delete_event_time_timer(t)`. -/
def delete (ts : Timers) (t : Int) : Timers :=
  ⟨ts.times.filter (fun u => u ≠ t), ts.sorted.filter _⟩

/-- What a watermark fires, in time order. -/
def due (ts : Timers) (w : Int) : List Int := ts.times.filter (fun t => t ≤ w)

/-- What it leaves. -/
def pending (ts : Timers) (w : Int) : Timers :=
  ⟨ts.times.filter (fun t => w < t), ts.sorted.filter _⟩

@[simp] theorem mem_empty (t : Int) : ¬t ∈ empty := List.not_mem_nil

@[simp] theorem mem_register {ts : Timers} {t u : Int} : u ∈ ts.register t ↔ u = t ∨ u ∈ ts :=
  mem_insert

@[simp] theorem mem_delete {ts : Timers} {t u : Int} : u ∈ ts.delete t ↔ u ∈ ts ∧ u ≠ t := by
  show u ∈ ts.times.filter _ ↔ _
  rw [List.mem_filter, decide_eq_true_eq]
  rfl

@[simp] theorem mem_due {ts : Timers} {w t : Int} : t ∈ ts.due w ↔ t ∈ ts ∧ t ≤ w := by
  unfold due
  rw [List.mem_filter, decide_eq_true_eq]
  rfl

@[simp] theorem mem_pending {ts : Timers} {w t : Int} : t ∈ ts.pending w ↔ t ∈ ts ∧ w < t := by
  show t ∈ ts.times.filter _ ↔ _
  rw [List.mem_filter, decide_eq_true_eq]
  rfl

theorem times_foldl_delete (us : List Int) (ts : Timers) :
    (us.foldl delete ts).times = ts.times.filter (fun t => t ∉ us) := by
  induction us generalizing ts with
  | nil => exact (List.filter_eq_self.2 fun _ _ => decide_eq_true List.not_mem_nil).symm
  | cons u us ih =>
    rw [List.foldl_cons, ih]
    show (ts.times.filter _).filter _ = _
    rw [List.filter_filter]
    apply List.filter_congr
    intro t _
    simp [Bool.and_comm]

/-- The timers that are due, deleted one by one. -/
theorem foldl_delete_due (ts : Timers) (w : Int) :
    (ts.due w).foldl delete ts = ts.pending w := by
  have htimes : ((ts.due w).foldl delete ts).times = (ts.pending w).times := by
    rw [times_foldl_delete]
    apply List.filter_congr
    intro t ht
    have hdue : t ∈ ts.due w ↔ t ≤ w := mem_due.trans (and_iff_right ht)
    simp [hdue]
  generalize (ts.due w).foldl delete ts = us at htimes
  cases us
  cases htimes
  rfl

end Timers

/-! ## The operator -/

/-- What a process function sees of the current key. -/
structure Context (σ : Type*) where
  state : σ
  timers : Timers

structure KeyedProcess (κ ι ο σ : Type*) where
  key : ι → κ
  timestamp : ι → Int
  init : σ
  processElement : ι → Context σ → Context σ × List ο
  onTimer : Int → σ → σ

/-- An element that has been processed, and what it emitted. -/
structure Entry (ι ο : Type*) where
  element : ι
  output : List ο

/-- The keys, the watermark (`none` before the first), and the elements processed, newest first. -/
structure Operator (κ ι ο σ : Type*) where
  contexts : κ → Context σ
  watermark : Option Int
  log : List (Entry ι ο)

inductive Event (ι : Type*) where
  | element (x : ι)
  | watermark (w : Int)

namespace KeyedProcess

variable {κ ι ο σ : Type*} [DecidableEq κ] (F : KeyedProcess κ ι ο σ)

def start : Operator κ ι ο σ := ⟨fun _ => ⟨F.init, .empty⟩, none, []⟩

/-- The elements of one key, newest first. -/
def history (k : κ) (log : List (Entry ι ο)) : List (Entry ι ο) :=
  log.filter (fun e => F.key e.element = k)

/-- Later than the watermark, and not earlier than `es`. -/
def InTime (w : Option Int) (es : List (Entry ι ο)) (x : ι) : Prop :=
  (∀ v ∈ w, v < F.timestamp x) ∧ ∀ e ∈ es, F.timestamp e.element ≤ F.timestamp x

instance (w : Option Int) (es : List (Entry ι ο)) (x : ι) : Decidable (F.InTime w es x) :=
  inferInstanceAs (Decidable (_ ∧ _))

/-- The timers that `w` has reached fire. -/
def fire (w : Int) (c : Context σ) : Context σ :=
  ⟨(c.timers.due w).foldl (fun s t => F.onTimer t s) c.state, c.timers.pending w⟩

def step (s : Operator κ ι ο σ) : Event ι → Option (Operator κ ι ο σ)
  | .element x =>
    if F.InTime s.watermark (F.history (F.key x) s.log) x then
      let (c, output) := F.processElement x (s.contexts (F.key x))
      some ⟨Function.update s.contexts (F.key x) c, s.watermark, ⟨x, output⟩ :: s.log⟩
    else none
  | .watermark w =>
    if ∀ v ∈ s.watermark, v ≤ w then
      some ⟨fun k => F.fire w (s.contexts k), some w, s.log⟩
    else none

variable {F}

theorem step_element {s s' : Operator κ ι ο σ} {x : ι} (h : F.step s (.element x) = some s') :
    F.InTime s.watermark (F.history (F.key x) s.log) x ∧
      s' = ⟨Function.update s.contexts (F.key x) (F.processElement x (s.contexts (F.key x))).1,
        s.watermark, ⟨x, (F.processElement x (s.contexts (F.key x))).2⟩ :: s.log⟩ := by
  simp only [step] at h
  split at h
  · rename_i hx
    exact ⟨hx, (Option.some.inj h).symm⟩
  · cases h

theorem step_watermark {s s' : Operator κ ι ο σ} {w : Int} (h : F.step s (.watermark w) = some s') :
    (∀ v ∈ s.watermark, v ≤ w) ∧ s' = ⟨fun k => F.fire w (s.contexts k), some w, s.log⟩ := by
  simp only [step] at h
  split at h
  · rename_i hw
    exact ⟨hw, (Option.some.inj h).symm⟩
  · cases h

/-- An element in time is processed. -/
theorem step_of_inTime {s : Operator κ ι ο σ} {x : ι}
    (h : F.InTime s.watermark (F.history (F.key x) s.log) x) :
    F.step s (.element x) = some
      ⟨Function.update s.contexts (F.key x) (F.processElement x (s.contexts (F.key x))).1,
        s.watermark, ⟨x, (F.processElement x (s.contexts (F.key x))).2⟩ :: s.log⟩ := by
  simp only [step, if_pos h]

/-- A watermark that does not go back is taken. -/
theorem step_of_le {s : Operator κ ι ο σ} {w : Int} (h : ∀ v ∈ s.watermark, v ≤ w) :
    F.step s (.watermark w) = some ⟨fun k => F.fire w (s.contexts k), some w, s.log⟩ := by
  simp only [step, if_pos h]

theorem history_cons_self (x : ι) (output : List ο) (log : List (Entry ι ο)) :
    F.history (F.key x) (⟨x, output⟩ :: log) = ⟨x, output⟩ :: F.history (F.key x) log :=
  List.filter_cons_of_pos (decide_eq_true rfl)

theorem history_cons_other {k : κ} {e : Entry ι ο} (h : F.key e.element ≠ k)
    (log : List (Entry ι ο)) : F.history k (e :: log) = F.history k log :=
  List.filter_cons_of_neg (by simpa using h)

theorem mem_history {k : κ} {log : List (Entry ι ο)} {e : Entry ι ο} :
    e ∈ F.history k log ↔ e ∈ log ∧ F.key e.element = k := by
  unfold history
  rw [List.mem_filter, decide_eq_true_eq]

omit [DecidableEq κ] in
/-- A watermark that reaches no timer of the key changes nothing of it. -/
theorem fire_of_none_due {w : Int} {c : Context σ} (h : ∀ t ∈ c.timers, w < t) :
    (F.fire w c).state = c.state := by
  have hd : c.timers.due w = [] := by
    refine List.eq_nil_iff_forall_not_mem.2 fun t ht => ?_
    obtain ⟨hm, hle⟩ := Timers.mem_due.1 ht
    exact absurd (h t hm) (by omega)
  unfold fire
  rw [hd]
  rfl

/-! ## One key at a time -/

/-- **Frame rule of an element.**  `J k w es c`: what is claimed of the key `k`, with the watermark
`w`, its elements `es` and its context `c`.  What elements of `k` in time keep, elements keep. -/
theorem keyed_element {J : κ → Option Int → List (Entry ι ο) → Context σ → Prop}
    (hx : ∀ k w es c x, F.key x = k → F.InTime w es x → J k w es c →
      J k w (⟨x, (F.processElement x c).2⟩ :: es) (F.processElement x c).1)
    {s s' : Operator κ ι ο σ} {x : ι} (h : F.step s (.element x) = some s')
    (hJ : ∀ k, J k s.watermark (F.history k s.log) (s.contexts k)) (k : κ) :
    J k s'.watermark (F.history k s'.log) (s'.contexts k) := by
  obtain ⟨hin, rfl⟩ := step_element h
  by_cases hk : F.key x = k
  · subst hk
    show J _ _ (F.history (F.key x) (⟨x, _⟩ :: _)) (Function.update s.contexts _ _ _)
    rw [history_cons_self, Function.update_self]
    exact hx _ _ _ _ _ rfl hin (hJ _)
  · show J _ _ (F.history k (_ :: _)) (Function.update s.contexts _ _ _)
    rw [history_cons_other hk, Function.update_of_ne (Ne.symm hk)]
    exact hJ k

/-- **Frame rule.**  What elements of `k` in time and watermarks keep, every step keeps. -/
theorem keyed_step {J : κ → Option Int → List (Entry ι ο) → Context σ → Prop}
    (hx : ∀ k w es c x, F.key x = k → F.InTime w es x → J k w es c →
      J k w (⟨x, (F.processElement x c).2⟩ :: es) (F.processElement x c).1)
    (hw : ∀ k v es c w, (∀ u ∈ v, u ≤ w) → J k v es c → J k (some w) es (F.fire w c))
    {s s' : Operator κ ι ο σ} {l : Event ι} (h : F.step s l = some s')
    (hJ : ∀ k, J k s.watermark (F.history k s.log) (s.contexts k)) (k : κ) :
    J k s'.watermark (F.history k s'.log) (s'.contexts k) := by
  cases l with
  | element x => exact keyed_element hx h hJ k
  | watermark w =>
    obtain ⟨hle, rfl⟩ := step_watermark h
    exact hw _ _ _ _ _ hle (hJ k)

/-- **Frame rule for runs.** -/
theorem run_keyed {J : κ → Option Int → List (Entry ι ο) → Context σ → Prop}
    (h₀ : ∀ k, J k none [] ⟨F.init, .empty⟩)
    (hx : ∀ k w es c x, F.key x = k → F.InTime w es x → J k w es c →
      J k w (⟨x, (F.processElement x c).2⟩ :: es) (F.processElement x c).1)
    (hw : ∀ k v es c w, (∀ u ∈ v, u ≤ w) → J k v es c → J k (some w) es (F.fire w c))
    {ls : List (Event ι)} {s : Operator κ ι ο σ} (h : run F.step F.start ls = some s) (k : κ) :
    J k s.watermark (F.history k s.log) (s.contexts k) :=
  run_invariant (P := fun s => ∀ k, J k s.watermark (F.history k s.log) (s.contexts k))
    (fun _ _ _ hJ hs => keyed_step hx hw hs hJ) h₀ h k

end KeyedProcess

end FlinkPractices.Lib
