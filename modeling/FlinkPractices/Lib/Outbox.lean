import Mathlib.Data.List.Nodup
import Mathlib.Logic.Function.Basic

/-!
# Outboxes

Agents that hand over items one at a time: `out i` is the item agent `i` is handing over, `sent`
are the items handed over so far.  `Outbox` — no item is sent twice, and none that is on its way was
sent already or is on its way from somewhere else.

An agent that hands over an item may fail to: then nobody knows of it any more, and it may be taken
up again.  What it must not take up is an item that is `Used`: sent, or on its way.

Principal results, with what each does to the items in use:

* `Outbox.drop`, `Used.of_drop` — an agent gives up its item
* `Outbox.deliver`, `Used.of_deliver` — it succeeds: the item is sent
* `Outbox.post`, `Used.of_post` — it takes up an item that is not used

`out` is a function that is updated at one agent, so `update_eq_some` is the only fact about agents
that the three need.  The items in use never become fewer but by `drop`; a program whose items are
taken in some order from a list shows that what it takes up next is not used.
-/

set_option autoImplicit false

namespace FlinkPractices.Lib

open Function

variable {ι α : Type*}

/-- Sent, or on its way. -/
def Used (out : ι → Option α) (sent : List α) (x : α) : Prop :=
  x ∈ sent ∨ ∃ i, out i = some x

structure Outbox (out : ι → Option α) (sent : List α) : Prop where
  nodup : sent.Nodup
  unsent : ∀ i x, out i = some x → x ∉ sent
  apart : ∀ i j x, out i = some x → out j = some x → i = j

variable {out : ι → Option α} {sent : List α}

theorem outbox_empty : Outbox (fun _ : ι => (none : Option α)) [] :=
  ⟨List.nodup_nil, fun _ _ h => (by cases h), fun _ _ _ h => (by cases h)⟩

variable [DecidableEq ι] {i : ι}

/-- An agent's item after an update. -/
theorem update_eq_some {o : Option α} {j : ι} {x : α} (h : update out i o j = some x) :
    (j = i ∧ o = some x) ∨ (j ≠ i ∧ out j = some x) := by
  by_cases hj : j = i
  · subst hj
    rw [update_self] at h
    exact .inl ⟨rfl, h⟩
  · rw [update_of_ne hj] at h
    exact .inr ⟨hj, h⟩

/-! ## Giving up -/

theorem Outbox.drop (h : Outbox out sent) (i : ι) : Outbox (update out i none) sent := by
  have hold : ∀ {j x}, update out i none j = some x → out j = some x := by
    intro j x hj
    rcases update_eq_some hj with ⟨_, hn⟩ | ⟨_, hj⟩
    · cases hn
    · exact hj
  exact ⟨h.nodup, fun j x hj => h.unsent j x (hold hj),
    fun j k x hj hk => h.apart j k x (hold hj) (hold hk)⟩

theorem Used.of_drop {x : α} (h : Used (update out i none) sent x) : Used out sent x := by
  rcases h with h | ⟨j, hj⟩
  · exact .inl h
  · rcases update_eq_some hj with ⟨_, hn⟩ | ⟨_, hj⟩
    · cases hn
    · exact .inr ⟨j, hj⟩

/-! ## Succeeding -/

theorem Outbox.deliver {x : α} (h : Outbox out sent) (hx : out i = some x) :
    Outbox (update out i none) (sent ++ [x]) := by
  refine ⟨?_, fun j y hj => ?_, (h.drop i).apart⟩
  · rw [List.nodup_append]
    refine ⟨h.nodup, List.nodup_singleton x, ?_⟩
    rintro a ha b hb rfl
    rw [List.mem_singleton.1 hb] at ha
    exact h.unsent i x hx ha
  · rcases update_eq_some hj with ⟨_, hn⟩ | ⟨hne, hj⟩
    · cases hn
    · rw [List.mem_append, List.mem_singleton]
      rintro (hy | rfl)
      · exact h.unsent j y hj hy
      · exact hne (h.apart j i y hj hx)

theorem Used.of_deliver {x y : α} (hx : out i = some x)
    (h : Used (update out i none) (sent ++ [x]) y) : Used out sent y := by
  rcases h with h | ⟨j, hj⟩
  · rcases List.mem_append.1 h with h | h
    · exact .inl h
    · rw [List.mem_singleton.1 h]
      exact .inr ⟨i, hx⟩
  · exact Used.of_drop (i := i) (.inr ⟨j, hj⟩)

/-! ## Taking up -/

theorem Outbox.post {x : α} (h : Outbox out sent) (hx : ¬Used out sent x) :
    Outbox (update out i (some x)) sent := by
  refine ⟨h.nodup, fun j y hj => ?_, fun j k y hj hk => ?_⟩
  · rcases update_eq_some hj with ⟨_, hy⟩ | ⟨_, hj⟩
    · cases hy
      exact fun hs => hx (.inl hs)
    · exact h.unsent j y hj
  · rcases update_eq_some hj with ⟨hji, hy⟩ | ⟨_, hj'⟩ <;>
      rcases update_eq_some hk with ⟨hki, hy'⟩ | ⟨_, hk'⟩
    · rw [hji, hki]
    · cases hy
      exact absurd (.inr ⟨k, hk'⟩) hx
    · cases hy'
      exact absurd (.inr ⟨j, hj'⟩) hx
    · exact h.apart j k y hj' hk'

theorem Used.of_post {x y : α} (h : Used (update out i (some x)) sent y) :
    y = x ∨ Used out sent y := by
  rcases h with h | ⟨j, hj⟩
  · exact .inr (.inl h)
  · rcases update_eq_some hj with ⟨_, hy⟩ | ⟨_, hj⟩
    · exact .inl (Option.some.inj hy).symm
    · exact .inr (.inr ⟨j, hj⟩)

end FlinkPractices.Lib
