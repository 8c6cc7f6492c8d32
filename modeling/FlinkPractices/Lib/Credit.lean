import FlinkPractices.Lib.System
import Mathlib.Data.Bool.Basic
import Mathlib.Data.List.Basic

/-!
# A credit that is spent at most once

One credit at most is there at a time.  It can be granted (again), spent, or lapse, and only a
credit that is there can be spent.  This is what a flag is that one kind of event sets, another
kind uses up, and a third clears: a token, a permit, a pending request.

`Credit.trace` reads a list of events of any type in this way: given the kind of each event and
whether a credit is there at first, it says whether one is there at the end, and is nothing if one
was spent that was not there.

Principal results, for every list of events with a trace:

* `granted_of_some` — a credit that is there at the end, and was not at the beginning, has been
  granted in between;
* `granted_before`, `granted_between` — hence a grant precedes every spending, and lies between any
  two;
* `countP_spend_le` — there are at most as many spendings as grants.
-/

set_option autoImplicit false

namespace FlinkPractices.Lib

/-- What an event does to the credit. -/
inductive Credit where
  | grant
  | spend
  | lapse
  | idle
  deriving DecidableEq, Repr

namespace Credit

/-- Whether a credit is there, after the event; none can be spent that is not there. -/
def step : Bool → Credit → Option Bool
  | _, grant => some true
  | true, spend => some false
  | false, spend => none
  | _, lapse => some false
  | b, idle => some b

variable {α : Type*} (kind : α → Credit)

/-- Whether a credit is there after the events, each of them of its kind. -/
def trace (b : Bool) (xs : List α) : Option Bool := run (fun b x => step b (kind x)) b xs

variable {kind} {b b' : Bool} {xs ys : List α} {x : α}

theorem trace_cons (h : trace kind b (x :: xs) = some b') :
    ∃ b₁, step b (kind x) = some b₁ ∧ trace kind b₁ xs = some b' :=
  run_cons_some h

theorem trace_append (h : trace kind b (xs ++ ys) = some b') :
    ∃ b₁, trace kind b xs = some b₁ ∧ trace kind b₁ ys = some b' := by
  unfold trace at h
  rw [run_append] at h
  exact Option.bind_eq_some_iff.1 h

theorem trace_concat {b₁ : Bool} (h : trace kind b xs = some b₁) (hx : step b₁ (kind x) = some b') :
    trace kind b (xs ++ [x]) = some b' :=
  run_append_some h (run_cons_of_step hx [])

/-- Spending takes a credit and leaves none. -/
theorem step_spend (h : step b spend = some b') : b = true ∧ b' = false := by
  cases b with
  | true =>
    cases h
    simp
  | false => cases h

/-- **A credit that is there has been granted**, if it was not there before. -/
theorem granted_of_some (h : trace kind false xs = some true) : ∃ q ∈ xs, kind q = grant := by
  induction xs with
  | nil => cases h
  | cons x xs ih =>
    obtain ⟨b₁, hx, hxs⟩ := trace_cons h
    by_cases hg : kind x = grant
    · exact ⟨x, List.mem_cons_self, hg⟩
    · have hb : b₁ = false := by
        cases hk : kind x <;> simp_all [step]
      subst hb
      obtain ⟨q, hq, hqg⟩ := ih hxs
      exact ⟨q, List.mem_cons_of_mem x hq, hqg⟩

/-- A grant precedes every spending. -/
theorem granted_before (h : trace kind false (xs ++ x :: ys) = some b') (hx : kind x = spend) :
    ∃ q ∈ xs, kind q = grant := by
  obtain ⟨b₁, hxs, hys⟩ := trace_append h
  obtain ⟨b₂, hs, -⟩ := trace_cons hys
  rw [hx] at hs
  obtain ⟨rfl, -⟩ := step_spend hs
  exact granted_of_some hxs

/-- A grant lies between any two spendings. -/
theorem granted_between {mid : List α} {y : α}
    (h : trace kind b (xs ++ x :: (mid ++ y :: ys)) = some b') (hx : kind x = spend)
    (hy : kind y = spend) : ∃ q ∈ mid, kind q = grant := by
  obtain ⟨b₁, -, h₁⟩ := trace_append h
  obtain ⟨b₂, hs, h₂⟩ := trace_cons h₁
  rw [hx] at hs
  obtain ⟨-, rfl⟩ := step_spend hs
  exact granted_before h₂ hy

/-- What is spent and what is left has been granted or was there. -/
theorem step_toNat {k : Credit} (h : step b k = some b') :
    (if k = spend then 1 else 0) + b'.toNat ≤ (if k = grant then 1 else 0) + b.toNat := by
  cases k <;> cases b <;> cases h <;> simp

/-- **At most as many spendings as grants**; a credit that is left has not been spent. -/
theorem countP_spend_le (h : trace kind b xs = some b') :
    (xs.countP fun x => kind x = spend) + b'.toNat ≤
      (xs.countP fun x => kind x = grant) + b.toNat := by
  induction xs generalizing b with
  | nil =>
    cases h
    simp
  | cons x xs ih =>
    obtain ⟨b₁, hx, hxs⟩ := trace_cons h
    have hstep := step_toNat hx
    have hle := ih hxs
    simp only [List.countP_cons, decide_eq_true_eq]
    omega

end Credit

end FlinkPractices.Lib
