import FlinkPractices.Connector.Invariants

/-!
# Which sockets are left open

A socket that `websockets.connect` returned is accounted for as long as it is stored in
`_websocket` or `close()` was attempted on it; no operation keeps one anywhere else, since a
returned socket is stored before the next suspension.  `Conn.NoLeak` says that all of them are.

`_websocket` is written outside the lock: a stream that closes a lost socket clears the attribute
when `close()` has returned, whatever it holds by then, and a new attempt stores its socket over
the one that is there.  `Sys.Overwrites` is such a step on an open socket.  Principal result:
`noLeak_iff` — whatever the tasks do, a run leaks no socket iff none of its steps is one.

## Proof

* `SocketChange` — the four things an edge may do with the sockets (nothing, open and store, begin
  to close, clear)
* `Edge.leaked` — what has leaked is never closed any more, so a leak is not made good later
* `SocketsKept` — while a task closes a socket under the lock, nobody stores another one; for any
  number of tasks, by the rule of `Connector.Invariants`
* `Path.noLeak_iff_start` — so a segment leaks iff it begins with a blind write over an open socket,
  which is what `Sys.Overwrites` reads off the state before the step

`leakRun` is the shortest such run: nobody is cancelled, no call is in progress at its end, and
socket 1 is still open (`leakRun_leaks`).
-/

set_option autoImplicit false

namespace FlinkPractices.Connector

open Lib Function

variable {U : UpperTable} {S : Subclass} {cfg : ExchangeConfig U}

/-- Every socket is stored in `_websocket`, or `close()` was attempted on it. -/
def Conn.NoLeak (c : Conn S) : Prop := ∀ w < c.opened, w ∉ c.closed → c.websocket = some w

/-- `_websocket` holds a socket that nobody has closed. -/
def Conn.HoldsOpen (c : Conn S) : Prop := ∃ w, c.websocket = some w ∧ w ∉ c.closed

/-- The suspension points after which `_websocket` is written outside the protection of what is
stored there: a dial that returns, and the clean-up of a lost connection. -/
def Pc.writesBlindly : Pc S → Wake S → Bool
  | .connect _ .dialing, .done => true
  | .lostClosing _, .done => true
  | .lostClosing _, .raised _ => true
  | _, _ => false

/-- The step writes `_websocket` while it holds an open socket. -/
def Sys.Overwrites (s : Sys S) : Label S → Prop
  | .resume t w => (∃ pc, (s.tasks t).call = some pc ∧ pc.writesBlindly w = true) ∧ s.conn.HoldsOpen
  | _ => False

/-! ## What an edge does with the sockets -/

def Point.writesBlindly : Point S → Bool
  | .resumed pc w => pc.writesBlindly w
  | _ => false

/-- The socket that a clean-up under the lock is closing. -/
def Pc.closing : Pc S → Option Ws
  | .connect _ (.closing w) => some w
  | .disconnectClosing w => some w
  | _ => none

def Point.closing : Point S → Option Ws
  | .suspended pc => pc.closing
  | .resumed pc _ => pc.closing
  | _ => none

/-- The four things that happen to the sockets. -/
inductive SocketChange (P : Point S) (c c' : Conn S) : Prop
  | same : c'.websocket = c.websocket → c'.opened = c.opened → c'.closed = c.closed →
      SocketChange P c c'
  | opens : P.writesBlindly = true → P.lockStatus = .holding → c'.websocket = some c.opened →
      c'.opened = c.opened + 1 → c'.closed = c.closed → SocketChange P c c'
  | closes {w : Ws} : c.websocket = some w → c'.websocket = some w → c'.opened = c.opened →
      c'.closed = w :: c.closed → SocketChange P c c'
  | clears : P.writesBlindly = true ∨ P.closing.isSome = true → c'.websocket = none →
      c'.opened = c.opened → c'.closed = c.closed → SocketChange P c c'

theorem Edge.sockets {isDone : TaskId → Bool} {t : TaskId} {P P' : Point S} {c c' : Conn S}
    (h : Edge cfg isDone t P c P' c') : SocketChange P c c' := by
  cases h
  case dialReturned => exact .opens rfl rfl rfl rfl rfl
  case failClose hw => exact .closes hw hw rfl rfl
  case disconnectClose hw => exact .closes hw hw rfl rfl
  case lostClose hw => exact .closes hw hw rfl rfl
  case closeReturned | closeRaised | disconnectClosed | disconnectCloseRaised =>
    exact .clears (.inr rfl) rfl rfl rfl
  case lostClosed | lostCloseRaised => exact .clears (.inl rfl) rfl rfl rfl
  all_goals exact .same rfl rfl rfl

/-- A blind write happens on an edge of its own: it clears the socket or stores a new one. -/
theorem Edge.writesBlindly {isDone : TaskId → Bool} {t : TaskId} {P P' : Point S}
    {c c' : Conn S} (h : Edge cfg isDone t P c P' c') (hP : P.writesBlindly = true) :
    (c'.websocket = none ∨ c'.websocket = some c.opened) ∧ c'.closed = c.closed ∧
      c.opened ≤ c'.opened := by
  cases h
  case dialReturned => exact ⟨.inr rfl, rfl, Nat.le_succ _⟩
  case lostClosed | lostCloseRaised => exact ⟨.inl rfl, rfl, Nat.le_refl _⟩
  all_goals cases hP

theorem Edge.target_writesBlindly {isDone : TaskId → Bool} {t : TaskId} {P P' : Point S}
    {c c' : Conn S} (h : Edge cfg isDone t P c P' c') : P'.writesBlindly = false := by
  cases h <;> rfl

/-- Only the edges that start a clean-up under the lock lead to one. -/
theorem Edge.target_closing {isDone : TaskId → Bool} {t : TaskId} {P P' : Point S}
    {c c' : Conn S} (h : Edge cfg isDone t P c P' c') {w : Ws} (hw : P'.closing = some w) :
    c'.websocket = some w ∧ w ∈ c'.closed := by
  cases h
  case failClose hc => cases hw; exact ⟨hc, List.mem_cons_self⟩
  case disconnectClose hc => cases hw; exact ⟨hc, List.mem_cons_self⟩
  all_goals cases hw

/-! ## A leaked socket stays leaked -/

/-- **What has leaked is never closed any more.** -/
theorem Edge.leaked {isDone : TaskId → Bool} {t : TaskId} {P P' : Point S} {c c' : Conn S}
    (h : Edge cfg isDone t P c P' c') (hl : ¬c.NoLeak) : ¬c'.NoLeak := by
  simp only [Conn.NoLeak, not_forall] at hl ⊢
  obtain ⟨w, hw, hc, hs⟩ := hl
  refine ⟨w, ?_⟩
  cases h.sockets with
  | same h₁ h₂ h₃ => exact ⟨h₂ ▸ hw, h₃ ▸ hc, by rw [h₁]; exact hs⟩
  | opens _ _ h₁ h₂ h₃ =>
    refine ⟨by rw [h₂]; exact Nat.lt_succ_of_lt hw, h₃ ▸ hc, fun he => ?_⟩
    rw [h₁] at he; cases he; exact Nat.lt_irrefl _ hw
  | @closes v h₀ h₁ h₂ h₃ =>
    have hne : w ≠ v := fun he => hs (by rw [h₀, he])
    refine ⟨h₂ ▸ hw, ?_, by rw [h₁, ← h₀]; exact hs⟩
    rw [h₃, List.mem_cons]; rintro (he | he)
    · exact hne he
    · exact hc he
  | clears _ h₁ h₂ h₃ => exact ⟨h₂ ▸ hw, h₃ ▸ hc, by rw [h₁]; intro he; cases he⟩

theorem Path.leaked {isDone : TaskId → Bool} {t : TaskId} {x y : Point S × Conn S}
    (h : Path cfg isDone t x y) (hl : ¬x.2.NoLeak) : ¬y.2.NoLeak := by
  induction h with
  | refl => exact hl
  | tail _ he ih => exact he.leaked ih

/-! ## Sockets of the clean-ups under the lock -/

/-- While a task closes a socket under the lock nobody stores another one. -/
structure SocketsKept (p : TaskId → Point S) (c : Conn S) : Prop where
  disciplined : Disciplined p c
  stored : ∀ w, c.websocket = some w → w < c.opened
  closing : ∀ t w, (p t).closing = some w →
    (c.websocket = some w ∨ c.websocket = none) ∧ w ∈ c.closed

theorem Point.closing_holding {P : Point S} {w : Ws} (h : P.closing = some w) :
    P.lockStatus = .holding := by
  cases P with
  | suspended pc => cases pc with
    | connect k pc => cases pc <;> first | rfl | cases h
    | _ => first | rfl | cases h
  | resumed pc w => cases pc with
    | connect k pc => cases pc <;> first | rfl | cases h
    | _ => first | rfl | cases h
  | _ => cases h

theorem Edge.socketsKept {isDone : TaskId → Bool} {t : TaskId} {p : TaskId → Point S}
    {P P' : Point S} {c c' : Conn S} (h : Edge cfg isDone t P c P' c')
    (hk : SocketsKept (update p t P) c) : SocketsKept (update p t P') c' := by
  refine ⟨h.disciplined hk.disciplined, fun w hw => ?_, fun u w hu => ?_⟩
  · cases h.sockets with
    | same h₁ h₂ _ => rw [h₂]; exact hk.stored w (h₁ ▸ hw)
    | opens _ _ h₁ h₂ _ => rw [h₁] at hw; cases hw; rw [h₂]; exact Nat.lt_succ_self _
    | closes h₀ h₁ h₂ _ => rw [h₁] at hw; cases hw; rw [h₂]; exact hk.stored _ h₀
    | clears _ h₁ _ _ => rw [h₁] at hw; cases hw
  · by_cases hut : u = t
    · subst hut
      rw [update_self] at hu
      obtain ⟨h₁, h₂⟩ := h.target_closing hu
      exact ⟨.inl h₁, h₂⟩
    · rw [update_of_ne hut] at hu
      obtain ⟨h₁, h₂⟩ := hk.closing u w (by rw [update_of_ne hut]; exact hu)
      cases h.sockets with
      | same e₁ _ e₃ => rw [e₁, e₃]; exact ⟨h₁, h₂⟩
      | opens _ hh _ _ _ =>
        -- `u` is under the lock, so `t` is not
        exact absurd (hk.disciplined.mutex
          (by rw [update_of_ne hut]; exact Point.closing_holding hu)
          (by rw [update_self]; exact hh)) hut
      | closes e₀ e₁ _ e₃ =>
        rw [e₁, ← e₀, e₃]; exact ⟨h₁, List.mem_cons_of_mem _ h₂⟩
      | clears _ e₁ _ e₃ => rw [e₁, e₃]; exact ⟨.inr rfl, h₂⟩

theorem SocketsKept.update_of_eq {p : TaskId → Point S} {c : Conn S} {t : TaskId} {P : Point S}
    (h : SocketsKept p c) (hd : Disciplined (update p t P) c)
    (hp : P.closing = (p t).closing) : SocketsKept (update p t P) c := by
  refine ⟨hd, h.stored, fun u w hu => h.closing u w ?_⟩
  by_cases hut : u = t
  · subst hut; rw [update_self, hp] at hu; exact hu
  · rwa [update_of_ne hut] at hu

theorem keeps_socketsKept (cfg : ExchangeConfig U) : Keeps cfg (fun _ _ => True) (SocketsKept (S := S)) where
  edge he hk := he.socketsKept hk
  call hg hi h := h.update_of_eq ((keeps_disciplined cfg).call hg hi h.disciplined)
    (by rw [hi]; rfl)
  next hg hi hm h := h.update_of_eq ((keeps_disciplined cfg).next hg hi hm h.disciplined)
    (by rw [hi]; rfl)
  resume hg hi h := h.update_of_eq ((keeps_disciplined cfg).resume hg hi h.disciplined)
    (by rw [hi]; rfl)
  rest {p t c P} h := by
    have := h.update_of_eq (t := t) (P := P.rest)
      (by simpa using (keeps_disciplined cfg).rest h.disciplined)
      (by rw [update_self]; cases P <;> rfl)
    simpa using this

/-! ## Exactly when a socket leaks -/

/-- On the way to `NoLeak`, an edge may do anything but write over an open socket. -/
theorem Edge.noLeak {isDone : TaskId → Bool} {t : TaskId} {p : TaskId → Point S}
    {P P' : Point S} {c c' : Conn S} (h : Edge cfg isDone t P c P' c')
    (hk : SocketsKept (update p t P) c) (hn : c.NoLeak)
    (hw : ¬(P.writesBlindly = true ∧ c.HoldsOpen)) : c'.NoLeak := by
  intro w hlt hc
  cases h.sockets with
  | same h₁ h₂ h₃ => rw [h₁]; exact hn w (h₂ ▸ hlt) (h₃ ▸ hc)
  | opens hb _ h₁ h₂ h₃ =>
    rw [h₁]
    by_cases he : w < c.opened
    · exact absurd ⟨hb, w, hn w he (h₃ ▸ hc), h₃ ▸ hc⟩ hw
    · rw [h₂] at hlt
      rw [Nat.le_antisymm (Nat.le_of_lt_succ hlt) (Nat.not_lt.1 he)]
  | closes h₀ h₁ h₂ h₃ =>
    rw [h₃, List.mem_cons, not_or] at hc
    rw [h₁, ← h₀]; exact hn w (h₂ ▸ hlt) hc.2
  | clears hb h₁ h₂ h₃ =>
    have hs := hn w (h₂ ▸ hlt) (h₃ ▸ hc)
    rcases hb with hb | hb
    · exact absurd ⟨hb, w, hs, h₃ ▸ hc⟩ hw
    · -- the socket under the lock was closed by this very clean-up
      obtain ⟨v, hv⟩ := Option.isSome_iff_exists.1 hb
      obtain ⟨h', hm⟩ := hk.closing t v (by rw [update_self]; exact hv)
      rw [hs] at h'
      rcases h' with h' | h'
      · cases h'; exact absurd hm (h₃ ▸ hc)
      · cases h'

theorem Edge.leaks {isDone : TaskId → Bool} {t : TaskId} {p : TaskId → Point S}
    {P P' : Point S} {c c' : Conn S} (h : Edge cfg isDone t P c P' c')
    (hk : SocketsKept (update p t P) c) (hP : P.writesBlindly = true) (ho : c.HoldsOpen) :
    ¬c'.NoLeak := by
  obtain ⟨w, hw, hc⟩ := ho
  obtain ⟨h₁, h₂, h₃⟩ := h.writesBlindly hP
  have hlt := hk.stored w hw
  intro hn
  have := hn w (Nat.lt_of_lt_of_le hlt h₃) (h₂ ▸ hc)
  rcases h₁ with h₁ | h₁ <;> rw [h₁] at this <;> cases this
  exact Nat.lt_irrefl _ hlt

theorem Path.noLeak {isDone : TaskId → Bool} {t : TaskId} {p : TaskId → Point S}
    {x y : Point S × Conn S} (h : Path cfg isDone t x y)
    (hk : SocketsKept (update p t x.1) x.2) (hP : x.1.writesBlindly = false)
    (hn : x.2.NoLeak) : SocketsKept (update p t y.1) y.2 ∧ y.1.writesBlindly = false ∧
      y.2.NoLeak := by
  induction h with
  | refl => exact ⟨hk, hP, hn⟩
  | tail _ he ih =>
    obtain ⟨hk, hP, hn⟩ := ih
    exact ⟨he.socketsKept hk, he.target_writesBlindly,
      he.noLeak hk hn (fun hw => by rw [hP] at hw; cases hw.1)⟩

/-- A segment leaks a socket iff it begins with a blind write over an open one. -/
theorem Path.noLeak_iff_start {isDone : TaskId → Bool} {t : TaskId} {p : TaskId → Point S}
    {x y : Point S × Conn S} (h : Path cfg isDone t x y)
    (hk : SocketsKept (update p t x.1) x.2) (hn : x.2.NoLeak) (hy : y.1.writesBlindly = false) :
    y.2.NoLeak ↔ ¬(x.1.writesBlindly = true ∧ x.2.HoldsOpen) := by
  rcases Relation.ReflTransGen.cases_head h with rfl | ⟨z, he, hrest⟩
  · simp [hn, hy]
  · constructor
    · rintro hny ⟨hP, ho⟩
      exact Path.leaked hrest (he.leaks hk hP ho) hny
    · intro hw
      exact (Path.noLeak hrest (he.socketsKept hk) he.target_writesBlindly
        (he.noLeak hk hn hw)).2.2

theorem Act.point_writesBlindly (a : Act S) : a.point.writesBlindly = false := by
  cases a <;> rfl

theorem step_noLeak_iff {s s' : Sys S} {l : Label S} (hk : SocketsKept s.point s.conn)
    (hn : s.conn.NoLeak) (hs : step cfg s l = some s') :
    s'.conn.NoLeak ↔ ¬s.Overwrites l := by
  have trivial_start : ∀ {P : Point S} {t : TaskId} {k : Task S} {r : Conn S × Act S},
      P.writesBlindly = false → SocketsKept (update s.point t P) s.conn →
      Path cfg s.isDone t (P, s.conn) (r.2.point, r.1) → (s.settle t k r).conn.NoLeak :=
    fun hP hk' hp => by
      rw [Sys.settle_conn]
      exact (Path.noLeak hp hk' hP hn).2.2
  cases step_move hs with
  | @call t op _ hc =>
    have hk' : SocketsKept (update s.point t (.enter op)) s.conn :=
      (keeps_socketsKept cfg).call trivial (Sys.point_idle.2 hc) hk
    exact iff_of_true (trivial_start rfl hk' (enter_path _ _)) (fun h => h)
  | next _ hc hm =>
    have := (keeps_socketsKept cfg).next trivial (Sys.point_idle.2 hc) hm hk
    exact iff_of_true (trivial_start rfl this (yieldMessages_path _ _)) (fun h => h)
  | @resume t pc w r hc _ hr =>
    have hk' := (keeps_socketsKept cfg).resume (w := w) trivial (Sys.point_suspended.2 hc) hk
    rw [Sys.settle_conn]
    have := Path.noLeak_iff_start (advance_path hr) hk' hn (Act.point_writesBlindly _)
    rw [this]
    simp only [Sys.Overwrites, hc, Option.some.injEq, exists_eq_left', Point.writesBlindly]
  | cancel => exact iff_of_true hn (fun h => h)
  | exit => exact iff_of_true hn (fun h => h)

theorem socketsKept_init (inst : S.Inst) :
    SocketsKept (Sys.init S inst).point (Sys.init S inst).conn :=
  ⟨disciplined_init inst, fun _ hw => (by cases hw), fun _ _ hw => (by cases hw)⟩

theorem step_socketsKept {s s' : Sys S} {l : Label S} (h : SocketsKept s.point s.conn)
    (hs : step cfg s l = some s') : SocketsKept s'.point s'.conn :=
  (keeps_socketsKept cfg).step trivial h hs

/-- **No socket leaks iff no step writes `_websocket` while it holds an open one**, in every run
of any number of tasks. -/
theorem noLeak_iff {inst : S.Inst} {ls : List (Label S)} {s' : Sys S}
    (hr : run (step cfg) (Sys.init S inst) ls = some s') :
    Always (step cfg) (fun s => s.conn.NoLeak) (Sys.init S inst) ls ↔
      Guarded (step cfg) (fun s l => ¬s.Overwrites l) (Sys.init S inst) ls :=
  always_iff_guarded (I := fun s => SocketsKept s.point s.conn) (H := fun _ _ => True)
    (fun _ _ _ hi _ _ hs => step_socketsKept hi hs)
    (fun _ _ _ hi _ hp hs => step_noLeak_iff hi hp hs)
    (socketsKept_init inst) (fun w hw => absurd hw (Nat.not_lt_zero w))
    (.of_forall fun _ _ => trivial) hr

/-! ## A leak -/

/-- A stream loses its connection and closes it; before `close()` returns, another task has
disconnected and connected again; the stream then forgets the new socket, and gives up. -/
def leakRun : List (Label concurrencyTestConnector) :=
  [.call 0 .stream, .resume 0 .done, .resume 0 (.raised .connectionClosed),
    .call 1 .disconnect, .resume 1 .done, .call 1 .connect, .resume 1 .done, .resume 0 .done,
    .resume 0 .done, .resume 0 (.raised .osError), .resume 0 .done, .resume 0 (.raised .osError),
    .resume 0 .done, .resume 0 (.raised .osError)]

theorem run_leakRun : (run (step testConfig) (Sys.init concurrencyTestConnector ()) leakRun).map
    (fun s => (s.conn.websocket, s.conn.opened, s.conn.closed,
      (s.tasks 0).call.isNone, (s.tasks 1).call.isNone)) =
    some (none, 2, [0, 0], true, true) := rfl

/-- **A socket can leak**: nobody was cancelled, no call is in progress, and socket 1 is open. -/
theorem leakRun_leaks : ∃ s,
    run (step testConfig) (Sys.init concurrencyTestConnector ()) leakRun = some s ∧
    (∀ t depth, Label.cancel t depth ∉ leakRun) ∧
    (s.tasks 0).call = none ∧ (s.tasks 1).call = none ∧ ¬s.conn.NoLeak := by
  obtain ⟨s, hs, he⟩ := Option.map_eq_some_iff.1 run_leakRun
  simp only [Prod.mk.injEq, Option.isNone_iff_eq_none] at he
  obtain ⟨hw, ho, hc, h₀, h₁⟩ := he
  refine ⟨s, hs, by simp [leakRun], h₀, h₁, fun hn => ?_⟩
  have := hn 1 (by rw [ho]; decide) (by rw [hc]; decide)
  rw [hw] at this
  cases this

/-- A connection, a loss and a successful reconnect. -/
def reconnectRun : List (Label concurrencyTestConnector) :=
  [.call 0 .stream, .resume 0 .done, .resume 0 (.raised .osError), .resume 0 .done,
    .resume 0 .done, .resume 0 .done]

theorem noLeak_iff_reconnectRun :
    Always (step testConfig) (fun s => s.conn.NoLeak) (Sys.init concurrencyTestConnector ())
      reconnectRun ↔
    Guarded (step testConfig) (fun s l => ¬s.Overwrites l) (Sys.init concurrencyTestConnector ())
      reconnectRun := by
  have hr : run (step testConfig) (Sys.init concurrencyTestConnector ()) reconnectRun =
    some ((run (step testConfig) (Sys.init concurrencyTestConnector ()) reconnectRun).get rfl) :=
    (Option.some_get _).symm
  exact noLeak_iff hr

end FlinkPractices.Connector
