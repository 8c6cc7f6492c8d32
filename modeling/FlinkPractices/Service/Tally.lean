import FlinkPractices.Service.Ledger
import Mathlib.Data.List.Perm.Subperm

/-!
# How often `stop()` flushes and disconnects

Whatever happens to it, the `n`-th `stop()` flushes at most once and disconnects at most once; so in
a run there are no more of either than calls of `stop()` that have found the service running.

The two are proved as one.  A flush is the first step of the clean-up and a disconnection the second
(`Service.Stop`); `Once f m` is the invariant for one of them, the `p`-th step, whose number `f`
reads off (`Reads`):

* `Once.begins`, `Once.goes`, `Once.leave` — a `stop()` begins, goes on from its `i`-th step to its
  `j`-th, and is left, by whichever way
* `Once.length_le` — numbers that do not repeat and are below `m` are at most `m`
* `Sys.Tallied` — the flushes and the disconnections of the history

Principal result: `Sys.Tallied.step`, with `Once.length_le` for the count.  Unlike the ledger of
`Service.Ledger` the tally is kept by every step, whether an exception escapes in it or not.
-/

set_option autoImplicit false

namespace FlinkPractices.Service

open Lib Function
open Connector (TaskId)

variable {U : UpperTable} {P : ConnectorPort U} {Q : PublisherPort}
variable {outcome : TaskId → Option Outcome}

/-- The `stop()` that flushes. -/
def Event.flushOf : Event → Option Nat
  | .flush n => some n
  | _ => none

/-- The `stop()` that disconnects. -/
def Event.disconnectOf : Event → Option Nat
  | .disconnect n => some n
  | _ => none

/-- `f` reads off the number of the `p`-th step of a clean-up, and of no other event. -/
structure Reads (f : Event → Option Nat) (p : Nat) : Prop where
  publish : ∀ b, f (.publish b) = none
  stopping : ∀ n b, f (.stopping n b) = none
  stopped : ∀ n, f (.stopped n) = none
  cleanup : ∀ n i j, i ≤ j → j ≤ 3 → (((cleanup n).take j).drop i).filterMap f =
    if i ≤ p ∧ p < j then [n] else []

theorem reads_flush : Reads Event.flushOf 0 := by
  refine ⟨fun _ => rfl, fun _ _ => rfl, fun _ => rfl, fun n i j hij hj => ?_⟩
  rcases j with _ | _ | _ | _ | j <;> rcases i with _ | _ | _ | _ | i <;>
    first | omega | rfl

theorem reads_disconnect : Reads Event.disconnectOf 1 := by
  refine ⟨fun _ => rfl, fun _ _ => rfl, fun _ => rfl, fun n i j hij hj => ?_⟩
  rcases j with _ | _ | _ | _ | j <;> rcases i with _ | _ | _ | _ | i <;>
    first | omega | rfl

/-- Every one of the `m` calls of `stop()` has done the step that `f` reads at most once; `stage`
says which of them a task is in, and how many steps it has begun. -/
structure Once (f : Event → Option Nat) (p m : Nat) (h : List Event)
    (stage : TaskId → Option (Nat × Nat)) : Prop where
  nodup : (h.filterMap f).Nodup
  bound : ∀ n ∈ h.filterMap f, n < m
  pending : ∀ t n i, stage t = some (n, i) → n < m ∧ (i ≤ p → n ∉ h.filterMap f)
  apart : ∀ t u n i j, stage t = some (n, i) → stage u = some (n, j) → t = u

namespace Once

variable {f : Event → Option Nat} {p m : Nat} {h : List Event}
variable {stage : TaskId → Option (Nat × Nat)}

theorem init (f : Event → Option Nat) (p : Nat) : Once f p 0 [] (fun _ => none) :=
  ⟨List.nodup_nil, nofun, nofun, nofun⟩

theorem length_le (ho : Once f p m h stage) : (h.filterMap f).length ≤ m := by
  have hsub : h.filterMap f ⊆ List.range m := fun n hn => List.mem_range.2 (ho.bound n hn)
  simpa using (ho.nodup.subperm hsub).length_le

/-- A task leaves its `stop()`, or is in none; nothing is counted. -/
theorem leave (ho : Once f p m h stage) {es : List Event} (hes : es.filterMap f = [])
    (t : TaskId) : Once f p m (h ++ es) (update stage t none) := by
  have hf : (h ++ es).filterMap f = h.filterMap f := by
    rw [List.filterMap_append, hes, List.append_nil]
  have old : ∀ {u x}, update stage t none u = some x → stage u = some x := by
    intro u x hu
    by_cases hut : u = t
    · rw [hut, update_self] at hu
      cases hu
    · rwa [update_of_ne hut] at hu
  refine ⟨hf ▸ ho.nodup, hf ▸ ho.bound, fun u n i hu => ?_, fun u v n i j hu hv => ?_⟩
  · rw [hf]
    exact ho.pending u n i (old hu)
  · exact ho.apart u v n i j (old hu) (old hv)

/-- A `stop()` begins. -/
theorem begins (ho : Once f p m h stage) (hr : Reads f p) (b : Option TaskId) (t : TaskId) :
    Once f p (m + 1) (h ++ [.stopping m b]) (update stage t (some (m, 0))) := by
  have hf : (h ++ [Event.stopping m b]).filterMap f = h.filterMap f := by
    rw [List.filterMap_append, List.filterMap_cons_none (hr.stopping m b), List.filterMap_nil,
      List.append_nil]
  have fresh : ∀ {u i}, stage u ≠ some (m, i) := fun {u i} hu =>
    Nat.lt_irrefl m (ho.pending u m i hu).1
  refine ⟨hf ▸ ho.nodup, fun n hn => Nat.lt_succ_of_lt (ho.bound n (hf ▸ hn)),
    fun u n i hu => ?_, fun u v n i j hu hv => ?_⟩
  · rw [hf]
    by_cases hut : u = t
    · rw [hut, update_self] at hu
      cases hu
      exact ⟨Nat.lt_succ_self m, fun _ hm => Nat.lt_irrefl m (ho.bound m hm)⟩
    · rw [update_of_ne hut] at hu
      exact ⟨Nat.lt_succ_of_lt (ho.pending u n i hu).1, (ho.pending u n i hu).2⟩
  · by_cases hut : u = t <;> by_cases hvt : v = t
    · rw [hut, hvt]
    · rw [hut, update_self] at hu
      cases hu
      rw [update_of_ne hvt] at hv
      exact absurd hv fresh
    · rw [hvt, update_self] at hv
      cases hv
      rw [update_of_ne hut] at hu
      exact absurd hu fresh
    · rw [update_of_ne hut] at hu
      rw [update_of_ne hvt] at hv
      exact ho.apart u v n i j hu hv

/-- The `n`-th `stop()` goes on, from its `i`-th step to its `j`-th. -/
theorem goes (ho : Once f p m h stage) (hr : Reads f p) {t : TaskId} {n i j : Nat}
    (ht : stage t = some (n, i)) (hij : i ≤ j) (hj : j ≤ 3) {x : Option (Nat × Nat)}
    (hx : x = none ∨ x = some (n, j)) :
    Once f p m (h ++ ((cleanup n).take j).drop i) (update stage t x) := by
  have hf : (h ++ ((cleanup n).take j).drop i).filterMap f =
      h.filterMap f ++ if i ≤ p ∧ p < j then [n] else [] := by
    rw [List.filterMap_append, hr.cleanup n i j hij hj]
  obtain ⟨hnm, hnew⟩ := ho.pending t n i ht
  have old : ∀ {u y}, u ≠ t → update stage t x u = some y → stage u = some y := by
    intro u y hut hu
    rwa [update_of_ne hut] at hu
  have same : ∀ {y}, update stage t x t = some y → y = (n, j) := by
    intro y hy
    rw [update_self] at hy
    rcases hx with rfl | rfl
    · cases hy
    · exact (Option.some.inj hy).symm
  have other : ∀ {u y}, u ≠ t → update stage t x u = some y → y.1 ≠ n := by
    rintro u ⟨n', i'⟩ hut hu rfl
    exact hut (ho.apart u t n' i' i (old hut hu) ht)
  refine ⟨?_, fun k hk => ?_, fun u k i' hu => ?_, fun u v k i' j' hu hv => ?_⟩
  · rw [hf]
    split
    · rename_i hp
      exact List.nodup_append.2 ⟨ho.nodup, List.nodup_singleton n, fun a ha b hb hab =>
        hnew hp.1 (by rw [List.mem_singleton.1 hb] at hab; exact hab ▸ ha)⟩
    · rw [List.append_nil]
      exact ho.nodup
  · rw [hf, List.mem_append] at hk
    rcases hk with hk | hk
    · exact ho.bound k hk
    · split at hk
      · rw [List.mem_singleton.1 hk]
        exact hnm
      · cases hk
  · rw [hf, List.mem_append]
    by_cases hut : u = t
    · subst hut
      cases same hu
      refine ⟨hnm, fun hjp hm => ?_⟩
      rcases hm with hm | hm
      · exact hnew (hij.trans hjp) hm
      · rw [if_neg fun hp => Nat.lt_irrefl p (Nat.lt_of_lt_of_le hp.2 hjp)] at hm
        cases hm
    · have hne := other hut hu
      obtain ⟨hk, hkn⟩ := ho.pending u k i' (old hut hu)
      refine ⟨hk, fun hip hm => ?_⟩
      rcases hm with hm | hm
      · exact hkn hip hm
      · split at hm
        · exact hne (List.mem_singleton.1 hm)
        · cases hm
  · by_cases hut : u = t <;> by_cases hvt : v = t
    · rw [hut, hvt]
    · subst hut
      cases same hu
      exact absurd rfl (other hvt hv)
    · subst hvt
      cases same hv
      exact absurd rfl (other hut hu)
    · exact ho.apart u v k i' j' (old hut hu) (old hvt hv)

end Once

/-! ## Every run -/

def Sys.stage (s : Sys P Q) (t : TaskId) : Option (Nat × Nat) := (s.tasks t).call.bind Pc.stage

/-- The flushes and the disconnections of the history. -/
structure Sys.Tallied (s : Sys P Q) : Prop where
  flush : Once Event.flushOf 0 s.service.stops s.service.history s.stage
  disconnect : Once Event.disconnectOf 1 s.service.stops s.service.history s.stage

theorem Settled.stage {s s' : Sys P Q} {t : TaskId} {r : IngestionService P Q × Act P Q}
    (h : Settled s s' t r) : s'.stage = update s.stage t (r.2.pc.bind Pc.stage) := by
  funext u
  by_cases hu : u = t
  · subst hu
    rw [update_self, Sys.stage, h.call]
  · rw [update_of_ne hu, Sys.stage, (h.others u hu).1]
    rfl

section

variable {f : Event → Option Nat} {p m : Nat} {h : List Event}
variable {stage : TaskId → Option (Nat × Nat)} {t : TaskId}
variable {r : IngestionService P Q × Act P Q}

theorem Goes.once {w : Option TaskId} {n i : Nat} (hg : Goes outcome w n i m h r)
    (hr : Reads f p) (ho : Once f p m h stage) (ht : stage t = some (n, i)) :
    Once f p r.1.stops r.1.history (update stage t (r.2.pc.bind Pc.stage)) := by
  obtain ⟨j, hij, hj, hh, ha⟩ := hg.history
  rw [hh, hg.stops]
  apply ho.goes hr ht hij hj
  rcases ha with ⟨ha, -⟩ | ⟨pc, ha, hp⟩
  · exact .inl (by rw [ha]; rfl)
  · exact .inr (by rw [ha]; exact hp)

/-- A segment that begins no `stop()`, or begins one. -/
theorem once_outside (hr : Reads f p) (ho : Once f p m h stage)
    (hg : Loops t m h r ∨ Begins outcome m h r) :
    Once f p r.1.stops r.1.history (update stage t (r.2.pc.bind Pc.stage)) := by
  rcases hg with hl | ⟨b, hg⟩
  · obtain ⟨k, hk⟩ := hl.history
    have hnone : r.2.pc.bind Pc.stage = none := by
      cases hpc : r.2.pc with
      | none => rfl
      | some pc => exact hl.outside pc hpc
    rw [hk, hl.stops, hnone]
    refine ho.leave (List.filterMap_eq_nil_iff.2 fun e he => ?_) t
    rw [List.eq_of_mem_replicate he]
    exact hr.publish t
  · have hgo := hg.once hr (ho.begins hr b t) (update_self t _ _)
    rwa [update_idem] at hgo

/-- A segment of a `stop()`, which goes on or ends. -/
theorem once_stopping {w : Option TaskId} {n i : Nat} {s : IngestionService P Q} {escape : Bool}
    (hr : Reads f p) (ho : Once f p s.stops s.history stage) (ht : stage t = some (n, i))
    (hg : Continues outcome w n i s escape r) :
    Once f p r.1.stops r.1.history (update stage t (r.2.pc.bind Pc.stage)) := by
  cases escape with
  | true =>
    obtain ⟨-, hb⟩ := hg
    rw [hb.stops, hb.history, hb.ends]
    refine ho.leave ?_ t
    rw [List.filterMap_cons_none (hr.stopped n), List.filterMap_nil]
  | false => exact Goes.once hg hr ho ht

end

/-- **Every step keeps the tally**, whether an exception escapes in it or not. -/
theorem Sys.Tallied.step {s s' : Sys P Q} {l : Label P} (hi : s.Tallied)
    (h : Service.step s l = some s') : s'.Tallied := by
  cases step_effect h with
  | first _ _ _ hs =>
    have hc : ∀ t op, Loops t s.service.stops s.service.history (call s.outcome s.service t op) ∨
        Begins s.outcome s.service.stops s.service.history (call s.outcome s.service t op) :=
      call_begins s.service
    refine ⟨?_, ?_⟩ <;> rw [hs.stage, hs.service]
    · exact once_outside reads_flush hi.flush (hc ..)
    · exact once_outside reads_disconnect hi.disconnect (hc ..)
  | @later t pc w r _ _ _ hc _ hr hs =>
    cases hp : pc.stage with
    | none =>
      have ho := segment_outside hp hr
      refine ⟨?_, ?_⟩ <;> rw [hs.stage, hs.service]
      · exact once_outside reads_flush hi.flush ho
      · exact once_outside reads_disconnect hi.disconnect ho
    | some x =>
      have hgo := segment_stopping hp hr
      have hst : s.stage t = some x := by
        rw [Sys.stage, hc]
        exact hp
      refine ⟨?_, ?_⟩ <;> rw [hs.stage, hs.service]
      · exact once_stopping reads_flush hi.flush hst hgo
      · exact once_stopping reads_disconnect hi.disconnect hst hgo
  | quiet _ hs _ hc _ =>
    have hst : s'.stage = s.stage := by
      funext u
      rw [Sys.stage, hc]
      rfl
    exact ⟨by rw [hs, hst]; exact hi.flush, by rw [hs, hst]; exact hi.disconnect⟩

theorem tallied_init (connector : P.State) (publisher : Q.State)
    (maxConsecutiveFailures clients : Nat) :
    (Sys.init connector publisher maxConsecutiveFailures clients).Tallied := by
  have hst : (Sys.init (P := P) connector publisher maxConsecutiveFailures clients).stage =
      fun _ => none := by
    funext t
    simp only [Sys.stage, Sys.init]
    split <;> rfl
  exact ⟨by rw [hst]; exact .init _ _, by rw [hst]; exact .init _ _⟩

end FlinkPractices.Service
