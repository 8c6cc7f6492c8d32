import FlinkPractices.Connector.Tasks
import FlinkPractices.Kafka.Producer
import FlinkPractices.Service.Stop
import FlinkPractices.Service.WebSocket

/-!
# `stop()` cleans up

The run-level side of `Service.Stop`.  `Tidy` relates the history to where every task stands: a
task in its `n`-th `stop()` has done exactly the steps of the clean-up it has begun, the loop it
has waited for is done once it flushes, and no two tasks are in the same `stop()`.

Principal result: `cleansUp_iff` — in a run, every `stop()` that finds the service running has, when
it ends, waited for the loop or its timeout, flushed and disconnected, each once and in this order,
iff no step lets something escape that `stop()` does not handle.

## Proof

* `Tidy.begin`, `Tidy.go` — a `stop()` begins, and goes on from `i` to `j` steps of its clean-up;
  what the history gains is `Settled` of `Service.Stop`
* `Tidy.publish` — a loop that is not done publishes, which is the one event from outside that the
  history has
* `Sys.Tidy.step` — every step in which nothing escapes keeps the ledger in order
* `Sys.Tidy.escape` — and every other one leaves a clean-up undone

`failedLoop_not_cleansUp`: a loop that has ended with an exception of its own keeps `stop()` from
cleaning up, since only `TimeoutError` is handled where it waits.
-/

set_option autoImplicit false

namespace FlinkPractices.Service

open Lib
open Connector (TaskId)

variable {U : UpperTable} {P : ConnectorPort U} {Q : PublisherPort}
variable {outcome : TaskId → Option Outcome}

/-! ## The ledger

The history together with where every task stands: `some (n, i, w)` for a task that is in the
`n`-th `stop()`, has begun `i` steps of its clean-up and still waits for the loop `w`. -/

abbrev Place := Nat × Nat × Option TaskId

structure Tidy (h : List Event) (m : Nat) (outcome : TaskId → Option Outcome)
    (place : TaskId → Option Place) : Prop where
  numbered : ∀ e ∈ h, ∀ n, e.number = some n → n < m
  once : ∀ n b b', .stopping n b ∈ h → .stopping n b' ∈ h → b = b'
  acting : ∀ t n i w, place t = some (n, i, w) → i < 3 ∧ (i = 0 ∨ w = none) ∧
    ∃ b, .stopping n b ∈ h ∧ trace n b h = (cleanup n).take i ∧ (w = b ∨ LoopDone outcome b)
  apart : ∀ t u n i j w w', place t = some (n, i, w) → place u = some (n, j, w') → t = u
  finished : ∀ n b, .stopping n b ∈ h → .stopped n ∈ h →
    LoopDone outcome b ∧ trace n b h = cleanup n

/-- `stop()` ends with the last step of its clean-up. -/
theorem stopped_mem_take {n j : Nat} (h : .stopped n ∈ (cleanup n).take j) : 3 ≤ j := by
  rcases j with _ | _ | _ | j
  · cases h
  · simp [cleanup] at h
  · simp [cleanup] at h
  · omega

/-- The steps of a clean-up bear the number of their `stop()`, whatever its loop. -/
theorem cleanup_own {n : Nat} {e : Event} (b : Option TaskId) (he : e ∈ cleanup n) :
    e.number = some n ∧ e.isPublish = false ∧ e.concerns n b = true ∧ ∀ k c, e ≠ .stopping k c := by
  simp only [cleanup, List.mem_cons, List.not_mem_nil, or_false] at he
  rcases he with rfl | rfl | rfl <;> simp [Event.number, Event.isPublish, Event.concerns]

section

variable {h : List Event} {n i j : Nat}

theorem mem_cleanup_of_steps {e : Event} (he : e ∈ ((cleanup n).take j).drop i) : e ∈ cleanup n :=
  List.mem_of_mem_take (List.mem_of_mem_drop he)

/-- No step of a clean-up begins a `stop()`. -/
theorem stopping_of_steps {k : Nat} {c : Option TaskId}
    (hs : .stopping k c ∈ h ++ ((cleanup n).take j).drop i) : .stopping k c ∈ h := by
  rcases List.mem_append.1 hs with hs | hs
  · exact hs
  · exact absurd rfl ((cleanup_own none (mem_cleanup_of_steps hs)).2.2.2 k c)

/-- The steps from `i` to `j`, seen by the `stop()` that takes them. -/
theorem trace_steps_self {b : Option TaskId} (htr : trace n b h = (cleanup n).take i)
    (hij : i ≤ j) : trace n b (h ++ ((cleanup n).take j).drop i) = (cleanup n).take j := by
  have hown : ∀ e ∈ ((cleanup n).take j).drop i, _ :=
    fun e he => cleanup_own b (mem_cleanup_of_steps he)
  have hmin : (cleanup n).take i = ((cleanup n).take j).take i := by
    rw [List.take_take, Nat.min_eq_left hij]
  rw [trace_append h fun e he => (hown e he).2.1, htr,
    List.filter_eq_self.2 fun e he => (hown e he).2.2.1, hmin, List.take_append_drop]

/-- No other `stop()` sees them. -/
theorem trace_steps_other {k : Nat} {c : Option TaskId} (hk : k ≠ n) :
    trace k c (h ++ ((cleanup n).take j).drop i) = trace k c h :=
  trace_append_of_number h fun _ he =>
    ⟨n, (cleanup_own none (mem_cleanup_of_steps he)).1, Ne.symm hk⟩

end

namespace Tidy

variable {h : List Event} {m : Nat} {place : TaskId → Option Place}

theorem init : Tidy [] 0 outcome (fun _ => none) where
  numbered := nofun
  once := nofun
  acting := nofun
  apart := nofun
  finished := nofun

theorem mono {outcome' : TaskId → Option Outcome} (hi : Tidy h m outcome place)
    (ho : ∀ t o, outcome t = some o → outcome' t = some o) : Tidy h m outcome' place := by
  have hd : ∀ {b}, LoopDone outcome b → LoopDone outcome' b := by
    intro b hb c hc
    obtain ⟨o, hco⟩ := Option.isSome_iff_exists.1 (hb c hc)
    rw [ho c o hco]; rfl
  refine { hi with acting := fun t n i w hp => ?_, finished := fun n b hs he => ?_ }
  · obtain ⟨h₁, h₂, b, h₃, h₄, h₅⟩ := hi.acting t n i w hp
    exact ⟨h₁, h₂, b, h₃, h₄, h₅.imp_right hd⟩
  · exact ⟨hd (hi.finished n b hs he).1, (hi.finished n b hs he).2⟩

/-- A loop that is not done publishes. -/
theorem publish {c : TaskId} (hi : Tidy h m outcome place) (hc : outcome c = none) (k : Nat) :
    Tidy (h ++ List.replicate k (.publish c)) m outcome place := by
  have hmem : ∀ e, e.number ≠ none → e ∈ h ++ List.replicate k (.publish c) → e ∈ h := by
    intro e hn he
    rcases List.mem_append.1 he with he | he
    · exact he
    · rw [List.eq_of_mem_replicate he] at hn; exact absurd rfl hn
  have hdone : ∀ b, LoopDone outcome b → b ≠ some c := by
    intro b hb he
    have := hb c he
    rw [hc] at this; cases this
  constructor
  · intro e he n hn
    exact hi.numbered e (hmem e (by rw [hn]; nofun) he) n hn
  · intro n b b' hb hb'
    exact hi.once n b b' (hmem _ nofun hb) (hmem _ nofun hb')
  · intro t n i w hp
    obtain ⟨h₁, h₂, b, h₃, h₄, h₅⟩ := hi.acting t n i w hp
    refine ⟨h₁, h₂, b, List.mem_append_left _ h₃, ?_, h₅⟩
    rw [trace_append_publish, h₄]
    intro hb
    rcases h₂ with h₂ | h₂
    · rw [h₄, h₂]; rfl
    · rcases h₅ with h₅ | h₅
      · rw [← h₅, h₂] at hb; cases hb
      · exact absurd hb (hdone b h₅)
  · exact hi.apart
  · intro n b hb he
    obtain ⟨h₁, h₂⟩ := hi.finished n b (hmem _ nofun hb) (hmem _ nofun he)
    refine ⟨h₁, ?_⟩
    rw [trace_append_publish fun hb => absurd hb (hdone b h₁), h₂]

/-- A `stop()` begins. -/
theorem begin {t : TaskId} (hi : Tidy h m outcome place) (b : Option TaskId) :
    Tidy (h ++ [.stopping m b]) (m + 1) outcome (Function.update place t (some (m, 0, b))) := by
  have hlt : ∀ n b', .stopping n b' ∈ h → n < m := fun n b' hs => hi.numbered _ hs n rfl
  have hold : ∀ n b', n < m → trace n b' (h ++ [.stopping m b]) = trace n b' h := by
    intro n b' hn
    apply trace_append_of_number
    intro e he
    rw [List.mem_singleton.1 he]
    exact ⟨m, rfl, by omega⟩
  have hmem : ∀ n b', .stopping n b' ∈ h ++ [.stopping m b] →
      .stopping n b' ∈ h ∨ n = m ∧ b' = b := by
    intro n b' hs
    rcases List.mem_append.1 hs with hs | hs
    · exact .inl hs
    · cases List.mem_singleton.1 hs; exact .inr ⟨rfl, rfl⟩
  constructor
  · intro e he n hn
    rcases List.mem_append.1 he with he | he
    · have := hi.numbered e he n hn; omega
    · rw [List.mem_singleton.1 he] at hn; cases hn; omega
  · intro n b₁ b₂ h₁ h₂
    rcases hmem n b₁ h₁ with h₁ | h₁ <;> rcases hmem n b₂ h₂ with h₂ | h₂
    · exact hi.once n b₁ b₂ h₁ h₂
    · have := hlt n b₁ h₁; omega
    · have := hlt n b₂ h₂; omega
    · rw [h₁.2, h₂.2]
  · intro u n i w hp
    by_cases hu : u = t
    · subst hu
      rw [Function.update_self] at hp
      cases hp
      refine ⟨by omega, .inl rfl, b, by simp, ?_, .inl rfl⟩
      rw [List.take_zero, trace_append _ (by simp [Event.isPublish]), trace_eq_nil]
      · rfl
      · intro e he hn
        have := hi.numbered e he m hn; omega
    · rw [Function.update_of_ne hu] at hp
      obtain ⟨h₁, h₂, b', h₃, h₄, h₅⟩ := hi.acting u n i w hp
      refine ⟨h₁, h₂, b', List.mem_append_left _ h₃, ?_, h₅⟩
      rw [hold n b' (hlt n b' h₃), h₄]
  · have hnew : ∀ u i w, u ≠ t → place u ≠ some (m, i, w) := by
      intro u i w _ hp
      obtain ⟨-, -, b', h₃, -⟩ := hi.acting u m i w hp
      have := hlt m b' h₃; omega
    intro u v n i j w w' hu hv
    by_cases hut : u = t <;> by_cases hvt : v = t
    · rw [hut, hvt]
    · subst hut
      rw [Function.update_self] at hu
      rw [Function.update_of_ne hvt] at hv
      cases hu; exact absurd hv (hnew v j w' hvt)
    · subst hvt
      rw [Function.update_self] at hv
      rw [Function.update_of_ne hut] at hu
      cases hv; exact absurd hu (hnew u i w hut)
    · rw [Function.update_of_ne hut] at hu
      rw [Function.update_of_ne hvt] at hv
      exact hi.apart u v n i j w w' hu hv
  · intro n b' hs he
    have he : .stopped n ∈ h := by simpa using he
    have hn := hi.numbered _ he n rfl
    rcases hmem n b' hs with hs | hs
    · rw [hold n b' hn]; exact hi.finished n b' hs he
    · omega

/-- A `stop()` goes on: from `i` to `j` steps of the clean-up; with the last one it ends. -/
theorem go {t : TaskId} {n i j : Nat} {w w' : Option TaskId} {new : Option Place}
    (hi : Tidy h m outcome place) (ht : place t = some (n, i, w)) (hij : i ≤ j)
    (hw : w' = w ∨ w' = none ∧ LoopDone outcome w) (hw' : j = 0 ∨ w' = none)
    (hn : new = none ∧ j = 3 ∨ new = some (n, j, w') ∧ j < 3) :
    Tidy (h ++ ((cleanup n).take j).drop i) m outcome (Function.update place t new) := by
  obtain ⟨hi3, hiw, b, hb, htr, hwb⟩ := hi.acting t n i w ht
  have hmine := trace_steps_self htr hij
  have hloop : w' = b ∨ LoopDone outcome b := by
    rcases hwb with hwb | hwb
    · rcases hw with hw | hw
      · exact .inl (hw.trans hwb)
      · exact .inr (hwb ▸ hw.2)
    · exact .inr hwb
  constructor
  · intro e he k hk
    rcases List.mem_append.1 he with he | he
    · exact hi.numbered e he k hk
    · rw [(cleanup_own b (mem_cleanup_of_steps he)).1] at hk
      cases hk; exact hi.numbered _ hb n rfl
  · intro k c c' h₁ h₂
    exact hi.once k c c' (stopping_of_steps h₁) (stopping_of_steps h₂)
  · intro u k l x hp
    by_cases hu : u = t
    · subst hu
      rw [Function.update_self] at hp
      rcases hn with ⟨hn, -⟩ | ⟨hn, hj⟩
      · rw [hn] at hp; cases hp
      · rw [hn] at hp; cases hp
        exact ⟨hj, hw', b, List.mem_append_left _ hb, hmine, hloop⟩
    · rw [Function.update_of_ne hu] at hp
      obtain ⟨h₁, h₂, c, h₃, h₄, h₅⟩ := hi.acting u k l x hp
      have hk : k ≠ n := by
        rintro rfl
        exact hu (hi.apart u t k l i x w hp ht)
      exact ⟨h₁, h₂, c, List.mem_append_left _ h₃, by rw [trace_steps_other hk, h₄], h₅⟩
  · have hplace : ∀ u k l x, Function.update place t new u = some (k, l, x) →
        ∃ l' x', place u = some (k, l', x') := by
      intro u k l x hp
      by_cases hu : u = t
      · subst hu
        rw [Function.update_self] at hp
        rcases hn with ⟨hn, -⟩ | ⟨hn, -⟩
        · rw [hn] at hp; cases hp
        · rw [hn] at hp; cases hp; exact ⟨i, w, ht⟩
      · rw [Function.update_of_ne hu] at hp; exact ⟨l, x, hp⟩
    intro u v k l l' x x' hu hv
    obtain ⟨_, _, hu⟩ := hplace u k l x hu
    obtain ⟨_, _, hv⟩ := hplace v k l' x' hv
    exact hi.apart u v k _ _ _ _ hu hv
  · intro k c hs he
    replace hs := stopping_of_steps hs
    by_cases hk : k = n
    · subst hk
      have hbc : c = b := hi.once k c b hs hb
      subst hbc
      have hj : j = 3 := by
        rcases List.mem_append.1 he with he | he
        · have := (hi.finished k c hs he).2
          rw [htr] at this
          have hl := congrArg List.length this
          simp only [cleanup, List.length_take, List.length_cons, List.length_nil] at hl
          omega
        · rcases hn with ⟨-, hj⟩ | ⟨-, hj⟩
          · exact hj
          · have := stopped_mem_take (List.mem_of_mem_drop he); omega
      refine ⟨?_, by rw [hmine, hj]; rfl⟩
      rcases hloop with hl | hl
      · have : w' = none := hw'.resolve_left (by omega)
        rw [← hl, this]; exact .none _
      · exact hl
    · have he : .stopped k ∈ h := by
        rcases List.mem_append.1 he with he | he
        · exact he
        · cases (cleanup_own b (mem_cleanup_of_steps he)).1
          exact absurd rfl hk
      rw [trace_steps_other hk]; exact hi.finished k c hs he

end Tidy

/-! ## The runs -/

def Pc.place (pc : Pc P Q) : Option Place := pc.stage.map fun p => (p.1, p.2, pc.waitsFor)

def Sys.place (s : Sys P Q) (t : TaskId) : Option Place := (s.tasks t).call.bind Pc.place

/-- The ledger of a state of the system is in order. -/
def Sys.Tidy (s : Sys P Q) : Prop :=
  Service.Tidy s.service.history s.service.stops s.outcome s.place

theorem Sys.Tidy.cleansUp {s : Sys P Q} (h : s.Tidy) : s.CleansUp :=
  fun n b hs he => (h.finished n b hs he).2

theorem tidy_init (connector : P.State) (publisher : Q.State) (maxConsecutiveFailures clients : Nat) :
    (Sys.init connector publisher maxConsecutiveFailures clients).Tidy := by
  have hp : (Sys.init (P := P) connector publisher maxConsecutiveFailures clients).place =
      fun _ => none := by
    funext t
    simp only [Sys.place, Sys.init]
    split <;> rfl
  unfold Sys.Tidy
  rw [hp]; exact .init

theorem Pc.place_of_stage {pc : Pc P Q} {n i : Nat} (h : pc.stage = some (n, i)) :
    pc.place = some (n, i, pc.waitsFor) ∧ i < 3 ∧ (i = 0 ∨ pc.waitsFor = none) := by
  refine ⟨by rw [Pc.place, h]; rfl, ?_⟩
  cases pc <;> cases h <;> simp [Pc.waitsFor]

theorem Settled.place {s s' : Sys P Q} {t : TaskId} {r : IngestionService P Q × Act P Q}
    (h : Settled s s' t r) : s'.place = Function.update s.place t (r.2.pc.bind Pc.place) := by
  funext u
  by_cases hu : u = t
  · subst hu
    rw [Function.update_self, Sys.place, h.call]
  · rw [Function.update_of_ne hu, Sys.place, (h.others u hu).1]; rfl

/-- A segment that goes on with a `stop()` keeps the ledger in order. -/
theorem Goes.tidy {w : Option TaskId} {n i m : Nat} {h : List Event} {t : TaskId}
    {place : TaskId → Option Place} {r : IngestionService P Q × Act P Q}
    (hg : Goes outcome w n i m h r) (hi : Service.Tidy h m outcome place)
    (ht : place t = some (n, i, w)) :
    Service.Tidy r.1.history r.1.stops outcome
      (Function.update place t (r.2.pc.bind Pc.place)) := by
  obtain ⟨j, hij, hj, hh, ha⟩ := hg.history
  rw [hh, hg.stops]
  rcases ha with ⟨ha, hj⟩ | ⟨pc, ha, hp⟩
  · have hw : r.2.waitsFor = none := by rw [Act.waitsFor, ha]; rfl
    rw [ha]
    exact hi.go ht hij hg.waits (.inr hw) (.inl ⟨rfl, hj⟩)
  · have hw : r.2.waitsFor = pc.waitsFor := by rw [Act.waitsFor, ha]; rfl
    obtain ⟨h₁, h₂, h₃⟩ := Pc.place_of_stage hp
    rw [ha]
    exact hi.go ht hij hg.waits (hw ▸ h₃) (.inr ⟨by rw [hw]; exact h₁, h₂⟩)

theorem Settled.mono {s s' : Sys P Q} {t : TaskId} {r : IngestionService P Q × Act P Q}
    (h : Settled s s' t r) (ht : s.outcome t = none)
    (hi : Service.Tidy r.1.history r.1.stops s.outcome
      (Function.update s.place t (r.2.pc.bind Pc.place))) : s'.Tidy := by
  unfold Sys.Tidy
  rw [h.place, h.service]
  exact hi.mono fun u o hu => h.done ht hu

/-- A task that is in no `stop()`. -/
theorem Sys.Tidy.outside {s s' : Sys P Q} {t : TaskId} {r : IngestionService P Q × Act P Q}
    (hi : s.Tidy) (hp : s.place t = none) (ht : s.outcome t = none) (hs : Settled s s' t r)
    (hr : Loops t s.service.stops s.service.history r ∨
      Begins s.outcome s.service.stops s.service.history r) : s'.Tidy := by
  apply hs.mono ht
  rcases hr with hr | ⟨b, hr⟩
  · obtain ⟨k, hk⟩ := hr.history
    have hnone : r.2.pc.bind Pc.place = none := by
      cases hpc : r.2.pc with
      | none => rfl
      | some pc => simp [Pc.place, hr.outside pc hpc]
    rw [hk, hr.stops, hnone, ← hp, Function.update_eq_self]
    exact Service.Tidy.publish hi ht k
  · have hg := hr.tidy (t := t) (Service.Tidy.begin hi b) (Function.update_self ..)
    rwa [Function.update_idem] at hg

/-- A task that is in a `stop()`. -/
theorem Sys.Tidy.stopping {s s' : Sys P Q} {t : TaskId} {pc : Pc P Q} {n i : Nat}
    {r : IngestionService P Q × Act P Q} (hi : s.Tidy) (hc : (s.tasks t).call = some pc)
    (hp : pc.stage = some (n, i)) (ht : s.outcome t = none) (hs : Settled s s' t r)
    (hr : Goes s.outcome pc.waitsFor n i s.service.stops s.service.history r) : s'.Tidy := by
  refine hs.mono ht (hr.tidy hi ?_)
  rw [Sys.place, hc]
  exact (Pc.place_of_stage hp).1

/-- **A step in which nothing escapes keeps the ledger in order.** -/
theorem Sys.Tidy.step {s s' : Sys P Q} {l : Label P} (hi : s.Tidy) (hg : ¬s.Escapes l)
    (h : Service.step s l = some s') : s'.Tidy := by
  cases step_effect h with
  | first _ ht hc hs =>
    exact hi.outside (by rw [Sys.place, hc]; rfl) ht hs (call_begins ..)
  | @later t pc w r _ _ ht hc _ hr hs =>
    cases hp : pc.stage with
    | none =>
      refine hi.outside ?_ ht hs (segment_outside hp hr)
      rw [Sys.place, hc, Option.bind_some, Pc.place, hp]; rfl
    | some p =>
      have he : escapes s.outcome s.service pc w = false := by
        rw [Bool.eq_false_iff]
        exact fun he => hg ⟨pc, hc, he⟩
      have hgo := segment_stopping hp hr
      rw [he] at hgo
      exact hi.stopping hc hp ht hs hgo
  | quiet _ hs _ hc ho =>
    have hp : s'.place = s.place := by funext u; rw [Sys.place, hc]; rfl
    unfold Sys.Tidy
    rw [hs, hp]
    refine Service.Tidy.mono hi fun u o hu => ?_
    rcases ho u with ho | ho
    · rw [ho, hu]
    · rw [ho.2] at hu; cases hu

theorem escapes_stage {s : IngestionService P Q} {pc : Pc P Q} {w : Resume P}
    (h : escapes outcome s pc w = true) : ∃ n i, pc.stage = some (n, i) := by
  cases pc with
  | waiting k n b => exact ⟨n, 0, rfl⟩
  | timedOut k n b => exact ⟨n, 0, rfl⟩
  | aborting k n b => exact ⟨n, 0, rfl⟩
  | awaiting k n b => exact ⟨n, 0, rfl⟩
  | flushing k n pc => exact ⟨n, 1, rfl⟩
  | _ => cases h

/-- **A step in which something escapes leaves a clean-up undone.** -/
theorem Sys.Tidy.escape {s s' : Sys P Q} {l : Label P} (hi : s.Tidy) (hg : s.Escapes l)
    (h : Service.step s l = some s') : ¬s'.CleansUp := by
  cases step_effect h with
  | first => cases hg
  | quiet hl => cases l with
    | resume t w => exact absurd rfl (hl t w)
    | _ => cases hg
  | @later t pc w r _ _ ht hc _ hr hs =>
    obtain ⟨pc', hc', he⟩ := hg
    rw [hc] at hc'; cases hc'
    obtain ⟨n, i, hp⟩ := escapes_stage he
    have hb := segment_stopping hp hr
    rw [he] at hb
    obtain ⟨hi2, hb⟩ := hb
    have hplace : s.place t = some (n, i, pc.waitsFor) := by
      rw [Sys.place, hc]; exact (Pc.place_of_stage hp).1
    obtain ⟨-, -, b, hm, htr, -⟩ := hi.acting t n i _ hplace
    intro hcl
    have htrace := hcl n b
    rw [hs.service, hb.history] at htrace
    have := htrace (List.mem_append_left _ hm) (by simp)
    rw [trace_append _ (by simp [Event.isPublish]), htr] at this
    have hl := congrArg List.length this
    simp [cleanup, Event.concerns] at hl
    omega

/-- **When `stop()` always cleans up.**  In any run of any number of clients over any connector
and publisher, every `stop()` that finds the service running has, when it ends, flushed the
publisher once after the last `publish()` of the consumption loop and then disconnected the
connector once, iff no step of the run lets an exception escape from the wait for the loop or
from the flush. -/
theorem cleansUp_iff {connector : P.State} {publisher : Q.State}
    {maxConsecutiveFailures clients : Nat} {ls : List (Label P)} {s : Sys P Q}
    (h : run step (Sys.init connector publisher maxConsecutiveFailures clients) ls = some s) :
    Always step Sys.CleansUp
        (Sys.init (Q := Q) connector publisher maxConsecutiveFailures clients) ls ↔
      Guarded step (fun s l => ¬s.Escapes l)
        (Sys.init connector publisher maxConsecutiveFailures clients) ls := by
  refine always_iff_guarded (I := Sys.Tidy) (H := fun _ _ => True)
    (fun s l s' hi _ hg hs => hi.step hg hs) (fun s l s' hi _ _ hs => ?_)
    (tidy_init connector publisher maxConsecutiveFailures clients)
    (tidy_init connector publisher maxConsecutiveFailures clients).cleansUp
    (Guarded.of_forall fun _ _ => trivial) h
  constructor
  · intro hc hg
    exact hi.escape hg hs hc
  · intro hg
    exact (hi.step hg hs).cleansUp

/-! ## A loop that has failed -/

open Connector (concurrencyTestConnector testConfig) in
/-- The connector of the concurrency tests, with its frames as codes. -/
abbrev testConnector : ConnectorPort asciiTable :=
  webSocket concurrencyTestConnector testConfig fun code =>
    { exchange := "test_exchange", dataType := .trade, rawCode := code,
      receivedTimestamp := DateTime.epoch, eventTimestamp := DateTime.epoch,
      streamType := .realtime, rawData := [] }

/-- A new service with one client. -/
def testService : Sys testConnector (Kafka.publisher Kafka.acceptingProducer) :=
  Sys.init (Connector.Conn.init _ ()) Kafka.Adapter.init 10 1

/-- The service starts, its stream loses the connection and gives up; then it is stopped. -/
def failedLoop : List (Label testConnector) :=
  [.call 0 .start, .resume 0 (.wake .done), .resume 1 (.wake .done),
    .resume 1 (.wake (.raised .connectionClosed)), .resume 1 (.wake .done),
    .resume 1 (.wake .done), .resume 1 (.wake (.raised .osError)),
    .resume 1 (.wake .done), .resume 1 (.wake (.raised .osError)),
    .resume 1 (.wake .done), .resume 1 (.wake (.raised .osError)),
    .call 0 .stop, .resume 0 (.wake .done)]

theorem run_failedLoop : (run step testService failedLoop).map (fun s =>
      (s.service.history, s.outcome 1, (s.tasks 0).last)) =
    some ([.stopping 0 (some 1), .stopped 0],
      some (.raised (.connectionClosedError "Failed to reconnect after 3 attempts")),
      some (.raised (.connectionClosedError "Failed to reconnect after 3 attempts"))) := rfl

/-- **A failed loop keeps `stop()` from cleaning up**: it raises the loop's exception, having
neither flushed nor disconnected. -/
theorem failedLoop_not_cleansUp : ∃ s, run step testService failedLoop = some s ∧
    ¬s.CleansUp := by
  obtain ⟨s, hs, he⟩ := Option.map_eq_some_iff.1 run_failedLoop
  simp only [Prod.mk.injEq] at he
  refine ⟨s, hs, fun hc => ?_⟩
  have := hc 0 (some 1)
  rw [he.1] at this
  exact absurd (this (by decide) (by decide)) (by decide)

/-- The service is stopped while its loop receives; the next message ends the loop. -/
def stoppedLoop : List (Label testConnector) :=
  [.call 0 .start, .resume 0 (.wake .done), .resume 1 (.wake .done), .call 0 .stop,
    .resume 1 (.wake (.input "KRW-BTC")), .resume 0 (.wake .done), .resume 0 (.wake .done)]

/-- `cleansUp_iff` at that run. -/
theorem cleansUp_iff_stoppedLoop :
    Always step Sys.CleansUp testService stoppedLoop ↔
      Guarded step (fun s l => ¬s.Escapes l) testService stoppedLoop := by
  have hr : run step testService stoppedLoop =
      some ((run step testService stoppedLoop).get rfl) := (Option.some_get _).symm
  exact cleansUp_iff hr

end FlinkPractices.Service
