import Mathlib.Data.List.Basic

/-!
# Shares

A list to which several parties contribute, and what one of them has contributed.

* `contribute t xs` — the contribution `xs` of `t`, each item with its contributor's name
* `share t` — what `t` has contributed, in order

A record of what several tasks did is kept as one list, in the order in which it happened; what is
claimed of one task is claimed of its share.  Two lists whose shares agree for every party need not
be equal: the shares forget the interleaving.

* `share_concat_self` — a contribution of `t` is added to its own share
* `share_concat_of_ne`, `share_contribute_of_ne` — and leaves the others alone

These are the only two facts a step lemma needs: the step is one party's, its share grows, and every
other share is unchanged.
-/

set_option autoImplicit false

namespace FlinkPractices.Lib

variable {ι α : Type}

/-- The contribution `xs` of `t`. -/
def contribute (t : ι) (xs : List α) : List (ι × α) := xs.map fun x => (t, x)

@[simp] theorem contribute_nil (t : ι) : contribute t ([] : List α) = [] := rfl

@[simp] theorem map_snd_contribute (t : ι) (xs : List α) :
    (contribute t xs).map Prod.snd = xs := by
  simp [contribute, Function.comp_def]

variable [DecidableEq ι]

/-- What `t` has contributed, in order. -/
def share (t : ι) (xs : List (ι × α)) : List α :=
  xs.filterMap fun x => if x.1 = t then some x.2 else none

@[simp] theorem share_nil (t : ι) : share t ([] : List (ι × α)) = [] := rfl

@[simp] theorem share_append (t : ι) (xs ys : List (ι × α)) :
    share t (xs ++ ys) = share t xs ++ share t ys :=
  List.filterMap_append

@[simp] theorem share_contribute (t : ι) (xs : List α) : share t (contribute t xs) = xs := by
  induction xs with
  | nil => rfl
  | cons x xs ih =>
    simp only [share, contribute, List.map_cons] at ih ⊢
    simp [ih]

theorem share_contribute_of_ne {t u : ι} (h : u ≠ t) (xs : List α) :
    share t (contribute u xs) = [] := by
  simp [share, contribute, h]

theorem share_concat_self (t : ι) (xs : List (ι × α)) (x : α) :
    share t (xs ++ [(t, x)]) = share t xs ++ [x] := by
  simp [share]

theorem share_concat_of_ne {t u : ι} (h : u ≠ t) (xs : List (ι × α)) (x : α) :
    share t (xs ++ [(u, x)]) = share t xs := by
  simp [share, h]

end FlinkPractices.Lib
