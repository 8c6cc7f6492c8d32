import FlinkPractices.Connector.Budget
import FlinkPractices.Connector.OneTask

/-!
# The reconnect loop of a single task

A single task, which may be cancelled at any suspension point, and a network that answers as it
likes.  Two of the connector's documented promises are about its loop, and both fail by a slip.

*How the loop ends.*  The checklist of the connector, and the branch after the loop, have the state
`FAILED` when the attempts are used up.  But every failed attempt of the loop leaves `DISCONNECTED`,
from which that branch does nothing: `gaveUp_disconnected`.

*How long it sleeps.*  The documented delay before the `k`-th attempt in a row is `2 ^ (k - 1)`
seconds, up to the cap; the counter is incremented before the delay is computed from it, so it is
`2 ^ k`.  `schedule_iff`: a run is on schedule iff the cap has been reached at each of its sleeps.

## Proof

* `Point.Since` — what a segment has done since it began, at each place of the graph: the counter is
  as it was, `connect()` has succeeded and reset it, or an iteration has been counted
* `Edge.since` — one lemma for each part of the graph (`Part`) carries it over the edges
* `iterationsSince_segment` — so the counter goes on counting the noted iterations
* `Sys.Counts` — the invariant of the runs under the observer of `Connector.Budget`.

The counterexamples are runs none of whose dials succeeds (`exhausted`).
-/

set_option autoImplicit false

namespace FlinkPractices.Connector

open Lib Function

variable {U : UpperTable} {S : Subclass} {cfg : ExchangeConfig U}

/-! ## What a segment does -/

/-- The counter is as it was, and nothing has connected. -/
structure Kept (c₀ c : Conn S) : Prop where
  attempts : c.reconnectAttempts = c₀.reconnectAttempts
  connected : c.state = .connected → c₀.state = .connected

/-- `connect()` has succeeded. -/
structure Renewed (c₀ c : Conn S) : Prop where
  before : c₀.state ≠ .connected
  state : c.state = .connected
  attempts : c.reconnectAttempts = 0
  websocket : c.websocket ≠ none

/-- What a segment of an operation of kind `κ` that began on `c₀` has done when it reaches a
place. -/
def Point.Since (cfg : ExchangeConfig U) (κ : Kind) (c₀ : Conn S) : Point S → Conn S → Prop
  | .enter op, c => op.kind = κ ∧ c = c₀
  | .resumed pc _, c => pc.kind = κ ∧ c = c₀
  | .generator _, c => κ = .stream ∧ Kept c₀ c
  | .connect k, c => k.kind = κ ∧ Kept c₀ c
  | .acquire k, c => k.kind = κ ∧ Kept c₀ c
  | .locked k, c => k.kind = κ ∧ Kept c₀ c
  | .attempt k, c => k.kind = κ ∧ Kept c₀ c
  | .sent k _, c => k.kind = κ ∧ Kept c₀ c ∧ c₀.state ≠ .connected
  | .failed k, c => k.kind = κ ∧ Kept c₀ c
  | .ended k .returned, c => k.kind = κ ∧ (Kept c₀ c ∨ Renewed c₀ c)
  | .ended k _, c => k.kind = κ ∧ Kept c₀ c
  | .disconnect, c => κ = .disconnect ∧ Kept c₀ c
  | .disconnectLocked, c => κ = .disconnect ∧ Kept c₀ c
  | .disconnectFinish, c => κ = .disconnect ∧ Kept c₀ c
  | .loop, c => κ = .stream ∧ (Kept c₀ c ∨ Renewed c₀ c)
  | .receive, c => κ = .stream ∧ (Kept c₀ c ∨ Renewed c₀ c)
  | .lost, c => κ = .stream ∧ Kept c₀ c
  | .lostCleanup, c => κ = .stream ∧ Kept c₀ c
  | .retry, c => κ = .stream ∧ Kept c₀ c
  | .own _, c => κ = .own ∧ Kept c₀ c
  | .suspended (.backoff n), c => c.reconnectAttempts = c₀.reconnectAttempts + 1 ∧
      c.state ≠ .connected ∧ n = calculateBackoffDelay cfg c
  | .suspended (.recv _), c => Kept c₀ c ∨ Renewed c₀ c
  | .finished r, c => (Kept c₀ c ∨ κ ≠ .stream ∧ Renewed c₀ c) ∧
      (κ = .stream → r ≠ .cancelled → c.state = .disconnected ∧ c.websocket = none)
  | .idle, c => Kept c₀ c
  | .suspended _, c => Kept c₀ c
  | .yielded _ _, c => Kept c₀ c

theorem Kept.refl (c : Conn S) : Kept c c := ⟨rfl, id⟩

theorem Kept.congr {c₀ c c' : Conn S} (h : Kept c₀ c)
    (ha : c'.reconnectAttempts = c.reconnectAttempts)
    (hs : c'.state = .connected → c.state = .connected) : Kept c₀ c' :=
  ⟨ha.trans h.attempts, fun h' => h.connected (hs h')⟩

/-- A connector that has just been shaken still has all its attempts. -/
theorem Conn.Shaken.of_exhausted {c : Conn S} (h : c.Shaken)
    (hx : shouldAttemptReconnect cfg c = false) : c.state = .disconnected := by
  apply h.resolve_left
  rintro ⟨-, ha⟩
  unfold shouldAttemptReconnect at hx
  split at hx
  · cases hx
  · rename_i hm
    rw [decide_eq_false_iff_not, ha] at hx
    exact hx (Nat.pos_of_ne_zero hm)

section

variable {κ : Kind} {c₀ : Conn S} {isDone : TaskId → Bool} {t : TaskId}
variable {P P' : Point S} {c c' : Conn S}

/-- Inside `connect()`. -/
theorem Edge.since_connect (h : Edge cfg isDone t P c P' c') (hb : P.part = .connect)
    (hA : Sound P c) (hP : P.Since cfg κ c₀ c) : P'.Since cfg κ c₀ c' := by
  have hp := hA.place
  cases h <;> cases hb
  case connectAlready => exact ⟨hP.1, .inl hP.2⟩
  case connectAwait | lockedAwait => exact hP.2
  case connectAcquire | acquire | lockedAttempt => exact ⟨hP.1, hP.2.congr rfl id⟩
  case taskReturned | taskRaised | taskCancelled | lockedReturned | lockedRaised |
      lockedCancelled => exact hp.elim
  case queue => exact hP.2.congr rfl id
  case lockWoken | lockCancelled | dialRaised | dialCancelled | sendCancelled | closeCancelled |
      closeReturned | closeRaised =>
    obtain ⟨hκ, rfl⟩ := hP
    exact ⟨hκ, rfl, id⟩
  case lockedAlready => exact ⟨hP.1, .inl (hP.2.congr rfl id)⟩
  case dial => exact hP.2.congr rfl nofun
  case dialInvalid => exact hP
  case dialReturned =>
    obtain ⟨hκ, rfl⟩ := hP
    exact ⟨hκ, ⟨rfl, id⟩, by rw [show c.state = .connecting from hp]; decide⟩
  case sendReturned | sendRaised =>
    obtain ⟨hκ, rfl⟩ := hP
    exact ⟨hκ, ⟨rfl, id⟩, by rw [show c.state = .connecting from hp.1]; decide⟩
  case send => exact hP.2.1
  case connected => exact ⟨hP.1, .inr ⟨hP.2.2, rfl, rfl, hp.2⟩⟩
  case connectedInvalid | subscribeRaised => exact ⟨hP.1, hP.2.1⟩
  case failClose => exact hP.2.congr rfl nofun
  case failNone => exact ⟨hP.1, hP.2.congr rfl nofun⟩
  case failInvalid => exact ⟨hP.1, hP.2.congr rfl id⟩

/-- From a call into its coroutine, and from the end of `connect()` to what its caller does. -/
theorem Edge.since_caller (h : Edge cfg isDone t P c P' c') (hb : P.part = .caller)
    (hA : Sound P c) (hP : P.Since cfg κ c₀ c) : P'.Since cfg κ c₀ c' := by
  have hp := hA.place
  cases h <;> cases hb
  case enterConnect =>
    obtain ⟨hκ, rfl⟩ := hP
    exact ⟨hκ, rfl, id⟩
  case enterDisconnect | ownStart =>
    obtain ⟨hκ, rfl⟩ := hP
    exact ⟨hκ.symm, rfl, id⟩
  case enterStream =>
    obtain ⟨hκ, rfl⟩ := hP
    exact ⟨hκ.symm, .inl ⟨rfl, id⟩⟩
  case endedTask r =>
    have hκ : κ = .connect := by cases r <;> exact hP.1.symm
    have hne : κ ≠ .stream := by
      rw [hκ]
      decide
    refine ⟨?_, fun hs => absurd hs hne⟩
    cases r with
    | returned => exact hP.2.imp_right fun hr => ⟨hne, hr⟩
    | _ => exact .inl hP.2
  case endedStreamReturned | endedStreamRaised | endedReconnectReturned =>
    exact ⟨hP.1.symm, hP.2⟩
  case endedStreamCancelled | endedReconnectCancelled =>
    exact ⟨.inl hP.2, fun _ hr => absurd rfl hr⟩
  case endedReconnectFailed => exact ⟨hP.1.symm, hP.2.congr rfl nofun⟩
  case endedReconnectInvalid hv =>
    have hs : c.state ≠ .connecting := by
      rcases hp.1 with hs | hs <;> rw [hs] <;> decide
    exact absurd ((ConnectionState.isValidTransition_disconnected _).2 hs) (by rw [hv]; decide)
  case endedReconnectRaised he =>
    rw [(hp.2 rfl).2] at he
    cases he

/-- Inside `disconnect()`. -/
theorem Edge.since_disconnect (h : Edge cfg isDone t P c P' c') (hb : P.part = .disconnect)
    (hP : P.Since cfg κ c₀ c) : P'.Since cfg κ c₀ c' := by
  cases h <;> cases hb
  case disconnectAlready | disconnectedAlready =>
    exact ⟨.inl (hP.2.congr rfl id), fun hs => by rw [hP.1] at hs; cases hs⟩
  case disconnectAcquire | disconnectNone => exact ⟨hP.1, hP.2.congr rfl id⟩
  case disconnectQueue | disconnectClose => exact hP.2.congr rfl id
  case disconnectWoken | disconnectClosed | disconnectCloseRaised =>
    obtain ⟨hκ, rfl⟩ := hP
    exact ⟨hκ.symm, rfl, id⟩
  case disconnectLockCancelled | disconnectCloseCancelled =>
    obtain ⟨hκ, rfl⟩ := hP
    exact ⟨.inl ⟨rfl, id⟩, fun _ hr => absurd rfl hr⟩
  case disconnected =>
    exact ⟨.inl (hP.2.congr rfl nofun), fun hs => by rw [hP.1] at hs; cases hs⟩
  case disconnectInvalid =>
    exact ⟨.inl (hP.2.congr rfl id), fun hs => by rw [hP.1] at hs; cases hs⟩

/-- Inside `stream_market_data()`. -/
theorem Edge.since_stream (h : Edge cfg isDone t P c P' c') (hb : P.part = .stream)
    (hP : P.Since cfg κ c₀ c) : P'.Since cfg κ c₀ c' := by
  cases h <;> cases hb
  case loopConnected => exact hP
  case loopConnect hs =>
    rcases hP.2 with h | h
    · exact ⟨hP.1.symm, h⟩
    · exact absurd h.state hs
  case recv | yields => exact hP.2
  case recvNone hw =>
    rcases hP.2 with h | h
    · exact ⟨hP.1, h⟩
    · exact absurd hw h.websocket
  case frameSkipped | frameInvalid | convertInvalid | recvInvalid =>
    obtain ⟨hκ, rfl⟩ := hP
    exact ⟨hκ.symm, .inl ⟨rfl, id⟩⟩
  case frameRaised | convertRaised | converted | recvRaised =>
    obtain ⟨hκ, rfl⟩ := hP
    exact ⟨hκ.symm, rfl, id⟩
  case yieldedAll => exact ⟨hP.1, .inl hP.2⟩
  case recvCancelled =>
    obtain ⟨hκ, rfl⟩ := hP
    exact ⟨.inl ⟨rfl, id⟩, fun _ hr => absurd rfl hr⟩

/-- Inside `_handle_connection_closed()`. -/
theorem Edge.since_lost (h : Edge cfg isDone t P c P' c') (hb : P.part = .lost)
    (hA : Sound P c) (hP : P.Since cfg κ c₀ c) : P'.Since cfg κ c₀ c' := by
  have hp := hA.place
  cases h <;> cases hb
  case lostConnected | lostFailed => exact ⟨hP.1, hP.2.congr rfl nofun⟩
  case lostOther | lostNone => exact hP
  case lostClose => exact hP.2.congr rfl id
  case lostClosed | lostCloseRaised =>
    obtain ⟨hκ, rfl⟩ := hP
    exact ⟨hκ.symm, rfl, id⟩
  case lostCancelled | backoffCancelled =>
    obtain ⟨hκ, rfl⟩ := hP
    exact ⟨.inl ⟨rfl, id⟩, fun _ hr => absurd rfl hr⟩
  case backoff => exact ⟨congrArg (· + 1) hP.2.attempts, hp.1.not_connected, rfl⟩
  case giveUpFailed hx hs =>
    have hd := hp.1.of_exhausted hx
    rw [hd] at hs
    rcases hs with hs | hs | hs <;> cases hs
  case giveUp hx _ => exact ⟨.inl hP.2, fun _ _ => ⟨hp.1.of_exhausted hx, hp.2⟩⟩
  case woken =>
    obtain ⟨hκ, rfl⟩ := hP
    exact ⟨hκ, rfl, nofun⟩
  case wokenInvalid hv =>
    have hs : c.state ≠ .connecting := by
      rcases hp.1 with hs | hs <;> rw [hs] <;> decide
    exact absurd ((ConnectionState.isValidTransition_disconnected _).2 hs) (by rw [hv]; decide)

/-- Inside the subclass's own coroutines. -/
theorem Edge.since_own (h : Edge cfg isDone t P c P' c') (hb : P.part = .own)
    (hP : P.Since cfg κ c₀ c) : P'.Since cfg κ c₀ c' := by
  cases h <;> cases hb
  case ownSend => exact hP.2
  case ownReturned | ownRaised =>
    exact ⟨.inl hP.2, fun hs => by rw [hP.1] at hs; cases hs⟩
  case ownSent | ownSendRaised =>
    obtain ⟨hκ, rfl⟩ := hP
    exact ⟨hκ.symm, rfl, id⟩
  case ownCancelled =>
    obtain ⟨hκ, rfl⟩ := hP
    exact ⟨.inl ⟨rfl, id⟩, fun _ hr => absurd rfl hr⟩

/-- **An edge carries what the segment has done so far to the next place.** -/
theorem Edge.since (h : Edge cfg isDone t P c P' c') (hA : Sound P c)
    (hP : P.Since cfg κ c₀ c) : P'.Since cfg κ c₀ c' := by
  cases hb : P.part with
  | connect => exact h.since_connect hb hA hP
  | caller => exact h.since_caller hb hA hP
  | disconnect => exact h.since_disconnect hb hP
  | stream => exact h.since_stream hb hP
  | lost => exact h.since_lost hb hA hP
  | own => exact h.since_own hb hP

end

/-! ## What is noted of it -/

theorem iteration_mem {κ : Kind} {c₀ : Conn S} {r : Conn S × Act S} :
    .iteration ∈ segmentNotes κ c₀ r ↔ ∃ n, r.2 = .suspend (.backoff n) := by
  obtain ⟨c, a⟩ := r
  have hconnected : Note.iteration ∉
      (if c₀.state ≠ .connected ∧ c.state = .connected then [Note.connected] else []) := by
    split <;> simp
  simp only [segmentNotes, List.mem_append, hconnected, or_false]
  cases a with
  | suspend pc =>
    cases pc with
    | connect k pc => cases pc <;> simp [Act.ending, Act.arrival]
    | _ => simp [Act.ending, Act.arrival]
  | finish o => by_cases hκ : κ = .stream <;> simp [Act.ending, Act.arrival, hκ]
  | yields m rest => simp [Act.ending, Act.arrival]

/-- The counter goes on counting the iterations since the last success. -/
theorem iterationsSince_segment {κ : Kind} {c₀ : Conn S} {r : Conn S × Act S} {ns : List Note}
    (h : r.2.point.Since cfg κ c₀ r.1) (hn : iterationsSince ns = c₀.reconnectAttempts) :
    iterationsSince (segmentNotes κ c₀ r ++ ns) = r.1.reconnectAttempts := by
  obtain ⟨c, a⟩ := r
  have ended : ∀ ms, iterationsSince (a.ending κ c ++ ms) = iterationsSince ms := by
    intro ms
    unfold Act.ending
    split
    · split <;> rfl
    · rfl
  have kept : Kept c₀ c → (∀ ms, iterationsSince (a.arrival ++ ms) = iterationsSince ms) →
      iterationsSince (segmentNotes κ c₀ (c, a) ++ ns) = c.reconnectAttempts := by
    intro hk ha
    have hc : ¬(c₀.state ≠ .connected ∧ c.state = .connected) := fun hc => hc.1 (hk.connected hc.2)
    rw [segmentNotes, if_neg hc, List.append_nil, List.append_assoc, ended, ha, hn, hk.attempts]
  have renewed : Renewed c₀ c →
      iterationsSince (segmentNotes κ c₀ (c, a) ++ ns) = c.reconnectAttempts := by
    intro hr
    rw [segmentNotes, if_pos ⟨hr.before, hr.state⟩, List.append_assoc, List.append_assoc, ended,
      hr.attempts]
    rfl
  cases a with
  | suspend pc =>
    cases pc with
    | backoff n =>
      obtain ⟨ha, hs, -⟩ := h
      have hc : ¬(c₀.state ≠ .connected ∧ c.state = .connected) := fun hc => hs hc.2
      rw [segmentNotes, if_neg hc, List.append_nil, List.append_assoc, ended]
      exact (congrArg (· + 1) hn).trans ha.symm
    | recv w => exact h.elim (fun hk => kept hk fun _ => rfl) renewed
    | connect k pc => cases pc <;> exact kept h fun _ => rfl
    | _ => exact kept h fun _ => rfl
  | finish o => exact h.1.elim (fun hk => kept hk fun _ => rfl) fun hr => renewed hr.2
  | yields m rest => exact kept h fun _ => rfl

/-! ## One step -/

/-- What a step of the only task does: a segment, before which `base` is noted. -/
structure Segment (cfg : ExchangeConfig U) (t : TaskId) (s : Sys S) (l : Label S) (s' : Sys S)
    (κ : Kind) (k : Task S) (r : Conn S × Act S) (base : List Note) : Prop where
  task : l.task = t
  kind : s.kindOf l = some κ
  settles : s' = s.settle t k r
  since : r.2.point.Since cfg κ s.conn r.1
  notes : notes s l s' = segmentNotes κ s.conn r ++ base
  iterations : ∀ ns, iterationsSince (base ++ ns) = iterationsSince ns
  noIteration : .iteration ∉ base

theorem answer_cases (k : Task S) (w : Wake S) :
    answer k w = [] ∨ ∃ j ok, answer k w = [.answered j ok] := by
  unfold answer
  split
  · split
    · exact .inr ⟨_, _, rfl⟩
    · exact .inl rfl
  · split
    · exact .inr ⟨_, _, rfl⟩
    · exact .inl rfl
  · exact .inl rfl

/-- A step runs a segment of the only task, or leaves the connector alone. -/
theorem step_segment {t : TaskId} {s s' : Sys S} {l : Label S}
    (h : Only t Sound s.point s.conn) (hl : l.By t) (hs : step cfg s l = some s') :
    (∃ κ k r base, Segment cfg t s l s' κ k r base) ∨ s'.conn = s.conn ∧ notes s l s' = [] := by
  have hk := keeps_sound (S := S) cfg t
  have since : ∀ {κ : Kind} {P : Point S} {r : Conn S × Act S}, At t Sound P s.conn →
      P.Since cfg κ s.conn s.conn → Path cfg s.isDone t (P, s.conn) (r.2.point, r.1) →
      r.2.point.Since cfg κ s.conn r.1 := fun hat hP hpath =>
    hpath.only (B := Point.Since cfg _ s.conn) hk (fun he hA hB => he.since hA hB) hat hP
  cases step_move hs with
  | @call u op _ hc =>
    obtain rfl : u = t := hl
    have hat : At u Sound (.enter op) s.conn := ⟨s.point, hk.call rfl (Sys.point_idle.2 hc) h⟩
    have hsince := since hat ⟨rfl, rfl⟩ (enter_path s.conn op)
    cases op with
    | stream =>
      exact .inl ⟨.stream, _, _, [.stream], rfl, rfl, rfl, hsince,
        notes_settle rfl rfl _ _ _ rfl, fun _ => rfl, by simp⟩
    | connect | disconnect | own =>
      exact .inl ⟨_, _, _, [], rfl, rfl, rfl, hsince,
        notes_settle rfl rfl _ _ _ (by rw [List.append_nil]; rfl), fun _ => rfl, by simp⟩
  | @next u ms _ hc hm =>
    obtain rfl : u = t := hl
    have hat : At u Sound (.generator ms) s.conn :=
      ⟨s.point, hk.next rfl (Sys.point_idle.2 hc) hm h⟩
    exact .inl ⟨.stream, _, _, [], rfl, rfl, rfl,
      since hat ⟨rfl, .refl _⟩ (yieldMessages_path s.conn ms),
      notes_settle rfl rfl _ _ _ (by rw [List.append_nil]; rfl), fun _ => rfl, by simp⟩
  | @resume u pc w r hc _ hr =>
    obtain rfl : u = t := hl
    have hat : At u Sound (.resumed pc w) s.conn :=
      ⟨s.point, hk.resume rfl (Sys.point_suspended.2 hc) h⟩
    have hκ : s.kindOf (.resume u w) = some pc.kind := congrArg (Option.map Pc.kind) hc
    have hbase : (∀ ns, iterationsSince (answer (s.tasks u) w ++ ns) = iterationsSince ns) ∧
        .iteration ∉ answer (s.tasks u) w := by
      rcases answer_cases (s.tasks u) w with ha | ⟨j, ok, ha⟩
      · rw [ha]
        exact ⟨fun _ => rfl, by simp⟩
      · rw [ha]
        exact ⟨fun _ => rfl, by simp⟩
    exact .inl ⟨pc.kind, _, r, answer (s.tasks u) w, rfl, hκ, rfl,
      since hat ⟨rfl, rfl⟩ (advance_path hr), notes_settle hκ rfl _ _ _ rfl, hbase.1, hbase.2⟩
  | cancel =>
    refine .inr ⟨rfl, ?_⟩
    have hc : ¬(s.conn.state ≠ .connected ∧ s.conn.state = .connected) := fun hc => hc.1 hc.2
    show ending s _ _ ++ (if s.conn.state ≠ .connected ∧ s.conn.state = .connected
      then [.connected] else []) ++ [] = []
    rw [if_neg hc, List.append_nil, List.append_nil]
    exact if_neg fun he => by cases he.1
  | exit => exact .inr ⟨rfl, notes_exit s _ _⟩

/-! ## Giving up -/

/-- In the step a stream ends with `ConnectionClosedError`. -/
def GaveUp (s : Sys S) (l : Label S) (s' : Sys S) : Prop :=
  ∃ message n, .ended (.raised (.connectionClosedError message)) n ∈ ending s l s'

/-- What the checklist requires of the connector at that moment. -/
def EndsFailed (c : Conn S) : Prop := c.state = .failed ∧ c.websocket = none

theorem onlySound_of_run {t : TaskId} {inst : S.Inst} {ls : List (Label S)} {s : Sys S}
    (hl : ∀ l ∈ ls, l.By t) (hr : run (step cfg) (Sys.init S inst) ls = some s) :
    Only t Sound s.point s.conn :=
  run_guarded_invariant (P := fun s : Sys S => Only t Sound s.point s.conn)
    (G := fun _ l => l.By t) (fun _ _ _ h hg hs => (keeps_sound cfg t).step hg h hs)
    (sound_init inst t) (.of_mem hl) hr

/-- **Giving up ends in `DISCONNECTED`.**  In every run of a single task, whatever the network
answers and whenever it is cancelled: when a stream gives up, the connector is not `FAILED`. -/
theorem gaveUp_disconnected {t : TaskId} {inst : S.Inst} {ls : List (Label S)} {s s' : Sys S}
    {l : Label S} (hls : ∀ m ∈ ls, m.By t) (hl : l.By t)
    (hr : run (step cfg) (Sys.init S inst) ls = some s) (hs : step cfg s l = some s')
    (hg : GaveUp s l s') :
    s'.conn.state = .disconnected ∧ s'.conn.websocket = none ∧ ¬EndsFailed s'.conn := by
  have hend : s'.conn.state = .disconnected ∧ s'.conn.websocket = none := by
    obtain ⟨message, n, hmem⟩ := hg
    rcases step_segment (onlySound_of_run hls hr) hl hs with ⟨κ, k, r, base, hseg⟩ | ⟨-, hn⟩
    · obtain rfl := hseg.task
      rw [hseg.settles, ending_settle hseg.kind] at hmem
      rw [hseg.settles, Sys.settle_conn]
      obtain ⟨c, a⟩ := r
      cases a with
      | suspend pc => cases hmem
      | yields m rest => cases hmem
      | finish o =>
        by_cases hκ : κ = .stream
        · rw [Act.ending, if_pos hκ, List.mem_singleton] at hmem
          cases hmem
          exact hseg.since.2 hκ (by rintro ⟨⟩)
        · rw [Act.ending, if_neg hκ] at hmem
          cases hmem
    · have hnone : Note.ended (.raised (.connectionClosedError message)) n ∈ notes s l s' :=
        List.mem_append_left _ (List.mem_append_left _ hmem)
      rw [hn] at hnone
      cases hnone
  exact ⟨hend.1, hend.2, fun hf => by cases hend.1.symm.trans hf.1⟩

theorem exhausted_isSome : (run (step testConfig) (Sys.init concurrencyTestConnector ())
    exhausted.dropLast).isSome = true := rfl

/-- Before the last dial of `exhausted` fails. -/
def exhaustedDial : Sys concurrencyTestConnector := Option.get _ exhausted_isSome

/-- **A stream none of whose dials succeeds gives up in `DISCONNECTED`.** -/
theorem exhausted_not_failed : ∃ s',
    run (step testConfig) (Sys.init concurrencyTestConnector ()) exhausted.dropLast =
      some exhaustedDial ∧
    step testConfig exhaustedDial (.resume 0 (.raised .osError)) = some s' ∧
    GaveUp exhaustedDial (.resume 0 (.raised .osError)) s' ∧
    s'.conn.state = .disconnected ∧ ¬EndsFailed s'.conn :=
  ⟨_, (Option.some_get exhausted_isSome).symm, rfl, ⟨_, 3, List.mem_cons_self⟩, rfl,
    fun hf => by cases hf.1⟩

/-- The connection is lost, the task is cancelled while it sleeps, and streams again; no further
dial succeeds. -/
def cancelledAsleep : List (Label concurrencyTestConnector) :=
  [.call 0 .stream, .resume 0 .done, .resume 0 (.raised .connectionClosed), .resume 0 .done,
    .cancel 0 1, .resume 0 .cancelled, .call 0 .stream, .resume 0 .done,
    .resume 0 (.raised .osError), .resume 0 .done]

theorem cancelledAsleep_isSome : (run (step testConfig) (Sys.init concurrencyTestConnector ())
    cancelledAsleep).isSome = true := rfl

def cancelledAsleepEnd : Sys concurrencyTestConnector := Option.get _ cancelledAsleep_isSome

/-- `gaveUp_disconnected` of that run, when the last dial has failed. -/
theorem gaveUp_disconnected_cancelledAsleep : ∃ s',
    step testConfig cancelledAsleepEnd (.resume 0 (.raised .osError)) = some s' ∧
    s'.conn.state = .disconnected ∧ s'.conn.websocket = none ∧ ¬EndsFailed s'.conn := by
  have hls : ∀ m ∈ cancelledAsleep, m.By 0 := by simp [cancelledAsleep, Label.By]
  have hr : run (step testConfig) (Sys.init concurrencyTestConnector ()) cancelledAsleep =
      some cancelledAsleepEnd := (Option.some_get cancelledAsleep_isSome).symm
  exact ⟨_, rfl, gaveUp_disconnected (l := .resume 0 (.raised .osError)) hls rfl hr rfl
    ⟨_, 3, List.mem_cons_self⟩⟩

/-! ## The schedule -/

/-- If the step begins a sleep, it is as long as is documented for the `k`-th attempt since the last
successful connection. -/
def OnSchedule (cfg : ExchangeConfig U) (x : Sys S × List Note) (l : Label S) : Prop :=
  ∀ x' n, observe cfg x l = some x' → .iteration ∈ notes x.1 l x'.1 →
    (x'.1.tasks l.task).call = some (.backoff n) →
    n = min (2 ^ (iterationsSince x'.2 - 1)) cfg.exponentialBackoffMaxSeconds

/-- If the step begins a sleep, the attempts before it have used up the schedule. -/
def Capped (cfg : ExchangeConfig U) (x : Sys S × List Note) (l : Label S) : Prop :=
  ∀ x', observe cfg x l = some x' → .iteration ∈ notes x.1 l x'.1 →
    cfg.exponentialBackoffMaxSeconds ≤ 2 ^ iterationsSince x.2

/-- The invariant of the runs under observation. -/
structure Sys.Counts (t : TaskId) (x : Sys S × List Note) : Prop where
  only : Only t Sound x.1.point x.1.conn
  attempts : x.1.conn.reconnectAttempts = iterationsSince x.2

theorem observe_step {x x' : Sys S × List Note} {l : Label S} (h : observe cfg x l = some x') :
    step cfg x.1 l = some x'.1 ∧ x'.2 = notes x.1 l x'.1 ++ x.2 := by
  obtain ⟨s', hs, rfl⟩ := Option.map_eq_some_iff.1 h
  exact ⟨hs, rfl⟩

theorem Sys.Counts.step {t : TaskId} {x x' : Sys S × List Note} {l : Label S}
    (h : Sys.Counts t x) (hl : l.By t) (hs : observe cfg x l = some x') : Sys.Counts t x' := by
  obtain ⟨hstep, hn⟩ := observe_step hs
  refine ⟨(keeps_sound cfg t).step hl h.only hstep, ?_⟩
  rw [hn]
  rcases step_segment h.only hl hstep with ⟨κ, k, r, base, hseg⟩ | ⟨hc, hnil⟩
  · rw [hseg.notes, hseg.settles, Sys.settle_conn, List.append_assoc]
    refine (iterationsSince_segment hseg.since ?_).symm
    rw [hseg.iterations, h.attempts]
  · rw [hc, hnil, h.attempts]
    rfl

/-- The delay before the next attempt, when `a` have been made. -/
theorem sleep_eq {t : TaskId} {x x' : Sys S × List Note} {l : Label S} (h : Sys.Counts t x)
    (hl : l.By t) (hs : observe cfg x l = some x') (hi : .iteration ∈ notes x.1 l x'.1) :
    iterationsSince x'.2 = iterationsSince x.2 + 1 ∧ (x'.1.tasks l.task).call =
      some (.backoff (min (2 ^ (iterationsSince x.2 + 1)) cfg.exponentialBackoffMaxSeconds)) := by
  have hattempts := (h.step hl hs).attempts
  obtain ⟨hstep, -⟩ := observe_step hs
  rcases step_segment h.only hl hstep with ⟨κ, k, ⟨c, a⟩, base, hseg⟩ | ⟨-, hnil⟩
  · obtain rfl := hseg.task
    rw [hseg.notes, List.mem_append, or_iff_left hseg.noIteration] at hi
    obtain ⟨n, hn⟩ := iteration_mem.1 hi
    obtain rfl : a = .suspend (.backoff n) := hn
    obtain ⟨ha, -, hdelay⟩ := hseg.since
    have hone : c.reconnectAttempts = iterationsSince x.2 + 1 := ha.trans (by rw [h.attempts])
    rw [hseg.settles, Sys.settle_conn] at hattempts
    refine ⟨hattempts.symm.trans hone, ?_⟩
    rw [hseg.settles, hdelay, calculateBackoffDelay, hone]
    simp [Sys.settle, Sys.setTask]
  · rw [hnil] at hi
    cases hi

/-- The delay is doubled too soon, unless both are cut off. -/
theorem min_double_iff (a c : Nat) : min (2 ^ (a + 1)) c = min (2 ^ a) c ↔ c ≤ 2 ^ a := by
  have hpos : 0 < 2 ^ a := Nat.two_pow_pos a
  rw [Nat.pow_succ]
  omega

/-- **A run is on schedule iff it is capped** at every sleep. -/
theorem schedule_iff {t : TaskId} {inst : S.Inst} {ls : List (Label S)} {x : Sys S × List Note}
    (hl : ∀ l ∈ ls, l.By t) (hr : run (observe cfg) (Sys.init S inst, []) ls = some x) :
    Guarded (observe cfg) (OnSchedule cfg) (Sys.init S inst, []) ls ↔
      Guarded (observe cfg) (Capped cfg) (Sys.init S inst, []) ls := by
  have h₀ : Sys.Counts t (Sys.init S inst, []) := ⟨sound_init inst t, rfl⟩
  refine guarded_iff (I := Sys.Counts t) (H := fun _ l => l.By t)
    (fun _ _ _ h hg hs => h.step hg hs) (fun x l x' h hg hs => ?_) h₀ (.of_mem hl) hr
  constructor
  · intro hsched x₁ hs₁ hi
    obtain ⟨hk, hcall⟩ := sleep_eq h hg hs₁ hi
    have hn := hsched x₁ _ hs₁ hi hcall
    rw [hk, Nat.add_sub_cancel] at hn
    exact (min_double_iff _ _).1 hn
  · intro hcap x₁ n hs₁ hi hcall
    obtain ⟨hk, hcall'⟩ := sleep_eq h hg hs₁ hi
    obtain rfl := Pc.backoff.inj (Option.some.inj (hcall.symm.trans hcall'))
    rw [hk, Nat.add_sub_cancel]
    exact (min_double_iff _ _).2 (hcap x₁ hs₁ hi)

/-- **The first delay is two seconds**, when the first dial fails. -/
theorem firstDelay_not_onSchedule :
    (∃ x, run (observe testConfig) (Sys.init concurrencyTestConnector (), [])
        [.call 0 .stream, .resume 0 (.raised .osError)] = some x ∧
      (x.1.tasks 0).call = some (.backoff 2) ∧ iterationsSince x.2 = 1) ∧
    ¬Guarded (observe testConfig) (OnSchedule testConfig)
      (Sys.init concurrencyTestConnector (), [])
      [.call 0 .stream, .resume 0 (.raised .osError)] := by
  refine ⟨⟨_, rfl, rfl, rfl⟩, fun h => ?_⟩
  have hfirst := (h.2 _ rfl).1 _ 2 rfl List.mem_cons_self rfl
  cases hfirst

/-- `schedule_iff` of `exhausted`. -/
theorem schedule_iff_exhausted : ∃ x,
    run (observe testConfig) (Sys.init concurrencyTestConnector (), []) exhausted = some x ∧
    (Guarded (observe testConfig) (OnSchedule testConfig) (Sys.init concurrencyTestConnector (), [])
        exhausted ↔
      Guarded (observe testConfig) (Capped testConfig) (Sys.init concurrencyTestConnector (), [])
        exhausted) := by
  have hl : ∀ l ∈ exhausted, l.By 0 := by simp [exhausted, Label.By]
  exact ⟨_, rfl, schedule_iff hl rfl⟩

end FlinkPractices.Connector
