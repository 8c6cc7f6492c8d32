import Mathlib.Data.List.Basic

/-!
# Computations that may fail

When a `do` block in `Except` succeeds, and with what.

* `bind_ok` — one step of it: two steps succeed iff each does
* `mapM_ok` — a loop over a list succeeds iff its body does on every element; the results are
  related to the elements one by one

`FailsOn e bad P r` is the specification of a block all of whose failures are the one exception `e`:
`r` is `e` if `bad` holds, and otherwise a value with `P`.  Its rules follow the block:

* `FailsOn.pure`, `FailsOn.error` — at the leaves
* `FailsOn.bind` — two steps fail iff one of them does, and the second is only asked when the first
  has succeeded
* `FailsOn.congr` — rewriting the condition and the property at the end

Reading such a specification from right to left gives the exact condition under which a function
succeeds, which is what an equivalence of two functions has to compare.
-/

set_option autoImplicit false

namespace FlinkPractices.Lib.Except

universe u v

variable {ε : Type u} {α β : Type v}

/-- Two steps succeed iff each does. -/
theorem bind_ok {x : Except ε α} {f : α → Except ε β} {b : β} :
    (x >>= f) = .ok b ↔ ∃ a, x = .ok a ∧ f a = .ok b := by
  cases x with
  | error e => simp [bind, Except.bind]
  | ok a => simp [bind, Except.bind]

@[simp] theorem ok_bind (a : α) (f : α → Except ε β) : (Except.ok a >>= f) = f a := rfl

@[simp] theorem pure_ok {a b : α} : (pure a : Except ε α) = .ok b ↔ a = b := by
  simp [pure, Except.pure]

/-- A loop succeeds iff its body does on every element. -/
theorem mapM_ok {f : α → Except ε β} : ∀ {l : List α} {r : List β},
    l.mapM f = .ok r ↔ l.map f = r.map .ok
  | [], r => by
    rw [List.mapM_nil, pure_ok]
    cases r <;> simp
  | a :: l, r => by
    rw [List.mapM_cons, bind_ok]
    constructor
    · rintro ⟨b, hb, h⟩
      obtain ⟨bs, hbs, h⟩ := bind_ok.1 h
      obtain rfl := pure_ok.1 h
      rw [List.map_cons, List.map_cons, hb, mapM_ok.1 hbs]
    · intro h
      cases r with
      | nil => cases h
      | cons b bs =>
        rw [List.map_cons, List.map_cons, List.cons.injEq] at h
        exact ⟨b, h.1, bind_ok.2 ⟨bs, mapM_ok.2 h.2, rfl⟩⟩

/-! ## One way to fail -/

variable {e : ε} {bad worse : Prop} {P : α → Prop} {Q : β → Prop}

/-- `r` is the exception `e` if `bad` holds, and otherwise a value with `P`. -/
structure FailsOn {α : Type v} (e : ε) (bad : Prop) (P : α → Prop) (r : Except ε α) : Prop where
  fails : bad → r = .error e
  returns : ¬bad → ∃ a, r = .ok a ∧ P a

namespace FailsOn

theorem pure {a : α} (h : P a) : FailsOn e False P (.ok a) := ⟨False.elim, fun _ => ⟨a, rfl, h⟩⟩

theorem error (r : Except ε α) (h : r = .error e) : FailsOn e True P r :=
  ⟨fun _ => h, fun hn => absurd trivial hn⟩

theorem congr {r : Except ε α} (h : FailsOn e bad P r) (hb : bad ↔ worse) :
    FailsOn e worse P r := ⟨fun hw => h.fails (hb.2 hw), fun hw => h.returns fun b => hw (hb.1 b)⟩

/-- Two steps fail iff one of them does. -/
theorem bind {x : Except ε α} {f : α → Except ε β} (hx : FailsOn e bad P x)
    (hf : ∀ a, P a → FailsOn e worse Q (f a)) : FailsOn e (bad ∨ worse) Q (x >>= f) := by
  by_cases hb : bad
  · rw [hx.fails hb]
    exact ⟨fun _ => rfl, fun hn => absurd (.inl hb) hn⟩
  · obtain ⟨a, rfl, ha⟩ := hx.returns hb
    exact ((hf a ha).congr (or_iff_right hb).symm)

end FailsOn

end FlinkPractices.Lib.Except
