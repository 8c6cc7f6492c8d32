import FlinkPractices.Service.Counting
import FlinkPractices.Service.Routes

/-!
# The consumption loop in the runs of the service

`Service.Counting` is about the loop alone, one message at a time.  The runs of `Loop.step` are
those of the service: a segment of the loop's own task is a run of it (`segment_loop`, message by
message), and the segments of the other tasks touch neither the counters nor the record
(`call_untouched`, `segment_untouched`).

`Follows` relates the two: where the task is suspended or how it has ended, which messages the
generator has given it (`Sys.received`), and which of them the loop has come to; the others are
still in the batch, or were left in it when the loop ended.

* `consume_loop` — a batch is consumed message by message, by induction on it: after a step that
  ends its turn, the loop takes up the next message (`Loop.Makes.turned`)
* `Arc.untouched` — outside the loop no arc of the service changes the counters or the record
* `Passive.allowed` — if every call that is over at the end of a run has succeeded or was rejected,
  so had those before, and the steps are `Allowed`

Principal results:

* `Follows.run` — every run of the system with one loop is a run of that loop, whose steps are the
  `Allowed` ones of `accounts_of_run` if those of the system are (`Sys.Consumes`);
* `Follows.accounts` — so the loop does in the service what `accounts_of_run` says of it.
-/

set_option autoImplicit false

namespace FlinkPractices.Service

open Lib
open Connector (TaskId)

variable {U : UpperTable} {P : ConnectorPort U} {Q : PublisherPort} {b : TaskId}

/-! ## The segments of the loop -/

variable {outcome : TaskId → Option Outcome}

/-- The place of a suspended call in the loop, if it is in the loop. -/
def Pc.loopPlace : Pc P Q → Option (LoopPlace Q)
  | .ready => some .asks
  | .receiving _ => some .asks
  | .publishing pc _ => some (.publishing pc)
  | _ => none

/-- The messages that the generator has given, but the loop has not come to. -/
def Pc.atHand : Pc P Q → List MarketDataMessage
  | .publishing _ ms => ms
  | _ => []

/-- A segment of the loop has ended with `r`: it has gone through `ls` to `x`, with `due` the
messages that were to come. -/
def Leaves (due : List MarketDataMessage) (ls : List (LoopLabel P Q)) (x : Loop P Q)
    (r : IngestionService P Q × Act P Q) : Prop :=
  x.service = r.1 ∧ match r.2 with
    | .suspend (.receiving _) => x.place = .asks ∧ messagesOf ls = due
    | .suspend (.publishing pc ms) => x.place = .publishing pc ∧ messagesOf ls ++ ms = due
    | .finish o => x.place = .asks ∧ messagesOf ls = due ∨
        x.place = .ended o ∧ messagesOf ls <+: due
    | _ => False

theorem Leaves.cons {due : List MarketDataMessage} {ls : List (LoopLabel P Q)} {x : Loop P Q}
    {r : IngestionService P Q × Act P Q} (h : Leaves due ls x r) (l : LoopLabel P Q) :
    Leaves (messagesOf [l] ++ due) (l :: ls) x r := by
  have happ : messagesOf (l :: ls) = messagesOf [l] ++ messagesOf ls := messagesOf_append [l] ls
  obtain ⟨v, a⟩ := r
  refine ⟨h.1, ?_⟩
  have hr := h.2
  rw [happ]
  cases a with
  | suspend pc =>
    cases pc with
    | receiving => exact ⟨hr.1, by rw [hr.2]⟩
    | publishing => exact ⟨hr.1, by rw [List.append_assoc, hr.2]⟩
    | _ => exact hr
  | cancelling => exact hr
  | finish o =>
    rcases hr with hr | hr
    · exact .inl ⟨hr.1, by rw [hr.2]⟩
    · exact .inr ⟨hr.1, (List.prefix_append_right_inj _).2 hr.2⟩

/-- A loop that is suspended: what it has not come to is `atHand`. -/
theorem Leaves.suspended {due : List MarketDataMessage} {ls : List (LoopLabel P Q)} {x : Loop P Q}
    {r : IngestionService P Q × Act P Q} (h : Leaves due ls x r) {pc : Pc P Q}
    (hpc : r.2.pc = some pc) :
    pc.loopPlace = some x.place ∧ messagesOf ls ++ pc.atHand = due := by
  obtain ⟨v, a⟩ := r
  have hr := h.2
  cases a with
  | suspend pc' =>
    cases hpc
    cases pc with
    | receiving => exact ⟨congrArg some hr.1.symm, (List.append_nil _).trans hr.2⟩
    | publishing => exact ⟨congrArg some hr.1.symm, hr.2⟩
    | _ => exact hr.elim
  | cancelling => exact hr.elim
  | finish o => cases hpc

theorem Leaves.prefix {due : List MarketDataMessage} {ls : List (LoopLabel P Q)} {x : Loop P Q}
    {r : IngestionService P Q × Act P Q} (h : Leaves due ls x r) : messagesOf ls <+: due := by
  obtain ⟨v, a⟩ := r
  have hr := h.2
  cases a with
  | suspend pc =>
    cases pc with
    | receiving => exact hr.2 ▸ List.prefix_rfl
    | publishing => exact ⟨_, hr.2⟩
    | _ => exact hr.elim
  | cancelling => exact hr.elim
  | finish o =>
    rcases hr with hr | hr
    · exact hr.2 ▸ List.prefix_rfl
    · exact hr.2

/-- What others do to the service is `Untouched`, and messages come when `_running` is `running`. -/
def Passive (running : Bool) (x : Loop P (recording Q)) : LoopLabel P (recording Q) → Prop
  | .yields _ => x.service.running = running
  | .wakes _ => True
  | .others v => Untouched x.service v

/-- From `x`, the loop goes through a batch `due` and leaves `r`. -/
def Loop.Makes (b : TaskId) (x : Loop P (recording Q)) (due : List MarketDataMessage)
    (r : IngestionService P (recording Q) × Act P (recording Q)) : Prop :=
  ∃ ls x', run (Loop.step b) x ls = some x' ∧
    Guarded (Loop.step b) (Passive x.service.running) x ls ∧ Leaves due ls x' r

theorem Loop.Makes.cons {x x₁ : Loop P (recording Q)} {l : LoopLabel P (recording Q)}
    {due : List MarketDataMessage} {r : IngestionService P (recording Q) × Act P (recording Q)}
    (hs : x.step b l = some x₁) (hl : Passive x.service.running x l)
    (hrun : x₁.service.running = x.service.running) (h : x₁.Makes b due r) :
    x.Makes b (messagesOf [l] ++ due) r := by
  obtain ⟨ls, x', hr, hg, hx⟩ := h
  rw [hrun] at hg
  exact ⟨l :: ls, x', (run_cons_of_step hs ls).trans hr, hg.cons hl hs, hx.cons l⟩

/-- A segment of one step. -/
theorem Loop.Makes.single {x x₁ : Loop P (recording Q)} {l : LoopLabel P (recording Q)}
    {due : List MarketDataMessage} {r : IngestionService P (recording Q) × Act P (recording Q)}
    (hs : x.step b l = some x₁) (hl : Passive x.service.running x l) (hx : Leaves due [l] x₁ r) :
    x.Makes b due r :=
  ⟨[l], x₁, run_cons_of_step hs [], .cons hl hs trivial, hx⟩

/-- The stream touches the connector only. -/
theorem passive_connector {running : Bool} (s : IngestionService P (recording Q))
    (place : LoopPlace (recording Q)) (c : P.State) :
    Passive running ⟨s, place⟩ (.others { s with connector := c }) :=
  ⟨rfl, rfl, rfl, rfl⟩

/-- The stream is asked for the next message; it may be over. -/
theorem nextMessage_loop (s : IngestionService P (recording Q)) :
    Loop.Makes b ⟨s, .asks⟩ [] (nextMessage outcome s b) := by
  unfold nextMessage
  rcases P.stream outcome s.connector b with ⟨c, pc | _ | e⟩
  · exact .single rfl (passive_connector s _ c) ⟨rfl, rfl, rfl⟩
  · exact .single rfl (passive_connector s _ c) ⟨rfl, .inl ⟨rfl, rfl⟩⟩
  · exact .single rfl (passive_connector s _ c) ⟨rfl, .inl ⟨rfl, rfl⟩⟩

/-- After a step of the loop that ends its turn with `y`, `ms` are still to come. -/
theorem Loop.Makes.turned {x : Loop P (recording Q)} {l : LoopLabel P (recording Q)}
    {ms : List MarketDataMessage} {y : IngestionService P (recording Q) × Turn (recording Q)}
    (hs : x.step b l = some ⟨y.1, y.2.place⟩) (hl : Passive x.service.running x l)
    (hrun : y.1.running = x.service.running)
    (h : Loop.Makes b ⟨y.1, .asks⟩ ms (consume outcome b ms (y.1, .next))) :
    x.Makes b (messagesOf [l] ++ ms) (consume outcome b ms y) := by
  obtain ⟨v, turn⟩ := y
  cases turn with
  | next => exact h.cons hs hl hrun
  | suspend pc =>
    rw [consume]
    exact .single hs hl ⟨rfl, rfl, rfl⟩
  | finish o =>
    rw [consume]
    exact .single hs hl ⟨rfl, .inr ⟨rfl, List.prefix_append _ ms⟩⟩

/-- **A batch is consumed message by message.** -/
theorem consume_loop : ∀ (ms : List MarketDataMessage) (s : IngestionService P (recording Q)),
    Loop.Makes b ⟨s, .asks⟩ ms (consume outcome b ms (s, .next))
  | [], s => nextMessage_loop s
  | a :: ms, s => by
    rw [consume]
    exact Loop.Makes.turned (l := .yields a) rfl rfl (turn_counted rfl).1.running
      (consume_loop ms _)

/-- The messages that the generator gives when it goes on. -/
def batch (outcome : TaskId → Option Outcome) (s : IngestionService P Q) (t : TaskId) :
    Pc P Q → Resume P → List MarketDataMessage
  | .receiving pc, .wake w =>
    match P.resumeStream outcome s.connector t pc w with
    | some (_, .batch m ms) => m :: ms
    | _ => []
  | _, _ => []

/-- **A segment of the loop is a run.** -/
theorem segment_loop {s : IngestionService P (recording Q)} {pc : Pc P (recording Q)} {w : Resume P}
    {place : LoopPlace (recording Q)} {r : IngestionService P (recording Q) × Act P (recording Q)}
    (hp : pc.loopPlace = some place) (hr : advance outcome s b pc w = some r) :
    Loop.Makes b ⟨s, place⟩ (pc.atHand ++ batch outcome s b pc w) r := by
  cases pc with
  | ready =>
    cases hp
    rcases w with (_ | _ | _ | _) | _
    case wake.done =>
      cases hr
      exact nextMessage_loop s
    case wake.cancelled =>
      cases hr
      exact ⟨[], _, rfl, trivial, rfl, .inl ⟨rfl, rfl⟩⟩
    all_goals cases hr
  | receiving pc =>
    cases hp
    cases w with
    | timeout => cases hr
    | wake w =>
      simp only [advance] at hr
      simp only [Pc.atHand, batch]
      split at hr <;> rename_i hc <;> cases hr <;> rw [hc]
      · exact .single rfl (passive_connector s _ _) ⟨rfl, rfl, rfl⟩
      · exact .single rfl (passive_connector s _ _) ⟨rfl, .inl ⟨rfl, rfl⟩⟩
      · rename_i c m ms
        exact Loop.Makes.cons (l := .others { s with connector := c }) rfl
          (passive_connector s _ c) rfl (consume_loop (m :: ms) _)
  | publishing pc ms =>
    cases hp
    cases w with
    | timeout => cases hr
    | wake w =>
      simp only [advance] at hr
      simp only [Pc.atHand, batch, List.append_nil]
      split at hr
      · rename_i q pc' hq
        obtain ⟨w', -, hq⟩ := Option.bind_eq_some_iff.1 hq
        cases hr
        have hstep : Loop.step b ⟨s, .publishing pc⟩ (.wakes w') =
            some ⟨{ s with publisher := q }, .publishing pc'⟩ := by
          simp only [Loop.step, hq]
        exact .single hstep trivial ⟨rfl, rfl, rfl⟩
      · rename_i q o hq
        obtain ⟨w', -, hq⟩ := Option.bind_eq_some_iff.1 hq
        cases hr
        have hstep : Loop.step b ⟨s, .publishing pc⟩ (.wakes w') =
            some ⟨(endTurn { s with publisher := q } o).1,
              (endTurn { s with publisher := q } o).2.place⟩ := by
          simp only [Loop.step, hq]
        exact Loop.Makes.turned hstep trivial (endTurn_counted rfl).1.running
          (consume_loop ms _)
      · cases hr
  | _ => cases hp

/-! ## Ordinary ends -/

theorem endTurn_record (s : IngestionService P (recording Q)) (o : Outcome) :
    (endTurn s o).1.record = s.record :=
  congrArg Prod.snd (endTurn_rest s o).2

theorem recording_resumePublish {v q : (recording Q).State} {pc : (recording Q).PublishPc}
    {w : Wake Empty} {x : Next (recording Q).PublishPc}
    (h : (recording Q).resumePublish v pc w = some (q, x)) : v.2.outcomes <+: q.2.outcomes := by
  simp only [recording] at h
  split at h <;> cases h
  · exact List.prefix_rfl
  · exact List.prefix_append _ _

/-- A turn of the loop adds to the outcomes of the record. -/
theorem turn_outcomes (s : IngestionService P (recording Q)) (a : MarketDataMessage) :
    s.record.outcomes <+: (turn b s a).1.record.outcomes := by
  have hended : ∀ (q : Q.State) (rec : Record) (o : Outcome),
      s.record.outcomes <+: rec.outcomes →
      s.record.outcomes <+:
        (endTurn ({ s with publisher := (q, rec) }.log (.publish b)) o).1.record.outcomes := by
    intro q rec o hrec
    rw [endTurn_record]
    exact hrec
  unfold turn
  split
  · split
    · exact List.prefix_rfl
    · exact List.prefix_rfl
    · split
      · exact List.prefix_rfl
      · simp only [recording]
        rcases Q.publish s.publisher.1 (getTopicForMessage a) (keyForMessage U a) _ with
          ⟨q, pc | _ | e⟩
        · exact List.prefix_rfl
        · exact hended _ _ _ (List.prefix_append _ _)
        · exact hended _ _ _ (List.prefix_append _ _)
  · exact List.prefix_rfl

/-- So does every step. -/
theorem Loop.step_outcomes {running : Bool} {x x' : Loop P (recording Q)}
    {l : LoopLabel P (recording Q)} (hl : Passive running x l) (hs : x.step b l = some x') :
    x.service.record.outcomes <+: x'.service.record.outcomes := by
  obtain ⟨s, place⟩ := x
  cases l with
  | yields a =>
    cases place with
    | asks =>
      cases hs
      exact turn_outcomes s a
    | publishing | ended => cases hs
  | wakes w =>
    cases place with
    | asks | ended => cases hs
    | publishing pc =>
      simp only [Loop.step] at hs
      split at hs
      · rename_i hq
        cases hs
        exact recording_resumePublish hq
      · rename_i q o hq
        cases hs
        show _ <+: (endTurn _ o).1.record.outcomes
        rw [endTurn_record]
        exact recording_resumePublish hq
      · cases hs
  | others v =>
    cases hs
    rw [hl.record]

/-- If all has ended ordinarily at the end of a run, every step of it is `Allowed`. -/
theorem Passive.allowed {running : Bool} :
    ∀ {ls : List (LoopLabel P (recording Q))} {x x' : Loop P (recording Q)},
      Guarded (Loop.step b) (Passive running) x ls → run (Loop.step b) x ls = some x' →
      (∀ r ∈ x'.service.record.outcomes, Ordinary r) → (messagesOf ls ≠ [] → running = true) →
      x.service.record.outcomes <+: x'.service.record.outcomes ∧
        Guarded (Loop.step b) (Allowed b) x ls
  | [], _, _, _, hr, _, _ => by
    cases hr
    exact ⟨List.prefix_rfl, trivial⟩
  | l :: ls, x, x', hg, hr, ho, hm => by
    obtain ⟨x₁, hs, hr⟩ := run_cons_some hr
    have htail : messagesOf ls ≠ [] → running = true := by
      intro hne
      refine hm fun hnil => hne ?_
      exact (List.append_eq_nil_iff.1 ((messagesOf_append [l] ls).symm.trans hnil)).2
    obtain ⟨hpre, hallowed⟩ := Passive.allowed (hg.2 x₁ hs) hr ho htail
    refine ⟨(x.step_outcomes hg.1 hs).trans hpre, .cons ⟨fun x₂ hs₂ r hmem => ?_, ?_⟩ hs hallowed⟩
    · rw [hs] at hs₂
      cases hs₂
      exact ho r (hpre.mem hmem)
    · cases l with
      | yields a => exact hg.1.trans (hm (List.cons_ne_nil _ _))
      | wakes | others => exact hg.1

/-! ## The other tasks -/

section

variable {s₀ s : IngestionService P (recording Q)} {t : TaskId}

theorem recording_flush {v q : (recording Q).State} {a : Start (recording Q).FlushPc}
    (h : (recording Q).flush v = (q, a)) : q.2 = v.2 := by
  cases h
  rfl

theorem recording_resumeFlush {v q : (recording Q).State} {pc : (recording Q).FlushPc}
    {w : Wake P.Input} {a : Next (recording Q).FlushPc}
    (h : w.plain.bind ((recording Q).resumeFlush v pc) = some (q, a)) : q.2 = v.2 := by
  obtain ⟨w', -, h⟩ := Option.bind_eq_some_iff.1 h
  obtain ⟨y, -, hy⟩ := Option.map_eq_some_iff.1 h
  cases hy
  rfl

/-- The publisher is replaced by one with the same record. -/
theorem Untouched.publisher (h : Untouched s₀ s) {q : (recording Q).State}
    (hq : q.2 = s.record) : Untouched s₀ { s with publisher := q } :=
  ⟨h.processedCount, h.consecutiveFailures, h.maxConsecutiveFailures, hq.trans h.record⟩

/-- Outside the loop, neither the counters nor the record change. -/
theorem Arc.untouched {p p' : Node P (recording Q)} {s' : IngestionService P (recording Q)}
    (ha : Arc outcome t p s p' s') (hp : p.inLoop = false) (h : Untouched s₀ s) :
    Untouched s₀ s' := by
  have hlog : ∀ e, Untouched s₀ (s.log e) := fun _ => { h with }
  cases ha with
  | flushFirst hq => exact (hlog _).publisher (recording_flush hq)
  | flushLater hq => exact h.publisher (recording_resumeFlush hq)
  | publishLater | publishEnded | turn => cases hp
  | _ => exact { h with }

/-- **First segments** touch neither the counters nor the record. -/
theorem call_untouched (op : Op) : Untouched s (call outcome s t op).1 :=
  ((call_leads op).keeps_outside (J := fun _ => Untouched s) Arc.untouched rfl
    ⟨rfl, rfl, rfl, rfl⟩).2

/-- **Nor do the later segments outside the loop.** -/
theorem segment_untouched {pc : Pc P (recording Q)} {w : Resume P}
    {r : IngestionService P (recording Q) × Act P (recording Q)} (hp : pc.inLoop = false)
    (hr : advance outcome s t pc w = some r) : Untouched s r.1 :=
  ((advance_leads hr).keeps_outside (J := fun _ => Untouched s) Arc.untouched hp
    ⟨rfl, rfl, rfl, rfl⟩).2

end

/-! ## The runs of the system -/

/-- `x` is the loop of the consumption task `b`, which has gone through the messages `yielded` of
those it has `received`. -/
structure Follows (b : TaskId) (s : Sys P Q) (x : Loop P Q)
    (yielded received : List MarketDataMessage) : Prop where
  clients : s.clients ≤ b
  service : x.service = s.service
  place : ∀ pc, (s.tasks b).call = some pc →
    pc.loopPlace = some x.place ∧ yielded ++ pc.atHand = received
  /-- its stream has ended, or it has -/
  ended : ∀ o, s.outcome b = some o →
    x.place = .asks ∧ yielded = received ∨ x.place = .ended o ∧ yielded <+: received

/-- The messages that the loop of `b` receives in a step. -/
def Sys.given (b : TaskId) (s : Sys P Q) : Label P → List MarketDataMessage
  | .resume t w =>
    if t = b then ((s.tasks t).call.map fun pc => Service.batch s.outcome s.service t pc w).getD []
    else []
  | _ => []

/-- Those it receives in a run. -/
def Sys.received (b : TaskId) (s : Sys P Q) : List (Label P) → List MarketDataMessage
  | [] => []
  | l :: ls => s.given b l ++ ((step s l).map fun s' => s'.received b ls).getD []

/-- The service is running when the loop of `b` comes to a message, there is no other loop, and
every `publish()` that ends succeeds or is rejected. -/
def Sys.Consumes (b : TaskId) (s : Sys P (recording Q)) (l : Label P) : Prop :=
  (∀ s', step s l = some s' → ∀ r ∈ s'.service.record.outcomes, Ordinary r) ∧
  match l with
  | .resume t w => ∀ pc, (s.tasks t).call = some pc →
    if t = b then pc.atHand ++ Service.batch s.outcome s.service t pc w ≠ [] →
      s.service.running = true
    else pc.inLoop = false
  | _ => True

section

variable {s s' : Sys P (recording Q)} {x : Loop P (recording Q)}
  {yielded received : List MarketDataMessage}

/-- A step of another task. -/
theorem Follows.others (h : Follows b s x yielded received) {t : TaskId}
    {r : IngestionService P (recording Q) × Act P (recording Q)} (ht : t ≠ b)
    (hset : Settled s s' t r) (hu : Untouched s.service r.1)
    (ho : ∀ r ∈ s'.service.record.outcomes, Ordinary r) :
    ∃ ks x', run (Loop.step b) x ks = some x' ∧ Guarded (Loop.step b) (Allowed b) x ks ∧
      Follows b s' x' (yielded ++ messagesOf ks) received := by
  have hothers : Untouched x.service s'.service := by rwa [h.service, hset.service]
  refine ⟨[.others s'.service], { x with service := s'.service }, rfl,
    .cons ⟨fun _ hx => by cases hx; exact ho, hothers⟩ rfl trivial, ?_⟩
  rw [show messagesOf [LoopLabel.others (P := P) s'.service] = [] from rfl, List.append_nil]
  refine ⟨hset.clients.trans_le h.clients, rfl, fun pc hpc => ?_, fun o hb => ?_⟩
  · rw [(hset.others b ht.symm).1] at hpc
    exact h.place pc hpc
  · rw [(hset.others b ht.symm).2] at hb
    exact h.ended o hb

/-- A step of the loop itself. -/
theorem Follows.own (h : Follows b s x yielded received) {pc : Pc P (recording Q)} {w : Resume P}
    {r : IngestionService P (recording Q) × Act P (recording Q)}
    (hc : (s.tasks b).call = some pc) (hr : advance s.outcome s.service b pc w = some r)
    (hset : Settled s s' b r) (ho : ∀ r ∈ s'.service.record.outcomes, Ordinary r)
    (hrun : pc.atHand ++ batch s.outcome s.service b pc w ≠ [] → s.service.running = true) :
    ∃ ks x', run (Loop.step b) x ks = some x' ∧ Guarded (Loop.step b) (Allowed b) x ks ∧
      Follows b s' x' (yielded ++ messagesOf ks)
        (received ++ batch s.outcome s.service b pc w) := by
  obtain ⟨hp, hreceived⟩ := h.place pc hc
  obtain ⟨v, place⟩ := x
  obtain rfl : v = s.service := h.service
  obtain ⟨ks, x', hks, hg, hx⟩ := segment_loop hp hr
  have hservice : x'.service = s'.service := hx.1.trans hset.service.symm
  rw [← hservice] at ho
  have hmessages : messagesOf ks ≠ [] → s.service.running = true := fun hne =>
    hrun fun hnil => hne (List.prefix_nil.1 (hnil ▸ hx.prefix))
  refine ⟨ks, x', hks, (Passive.allowed hg hks ho hmessages).2, hset.clients.trans_le h.clients,
    hservice, fun pc' hpc' => ?_, fun o hb => ?_⟩
  · rw [hset.call] at hpc'
    obtain ⟨hplace, hatHand⟩ := hx.suspended hpc'
    refine ⟨hplace, ?_⟩
    rw [List.append_assoc, hatHand, ← List.append_assoc, hreceived]
  · rw [hset.outcome] at hb
    obtain ⟨v, a⟩ := r
    cases a with
    | suspend | cancelling => cases hb
    | finish o' =>
      dsimp only at hb
      rw [if_neg (Nat.not_lt.2 h.clients)] at hb
      cases hb
      rw [← hreceived, List.append_assoc]
      refine hx.2.imp (And.imp_right fun he => ?_)
        (And.imp_right (List.prefix_append_right_inj _).2)
      rw [he]

theorem Follows.step {l : Label P} (h : Follows b s x yielded received) (hl : s.Consumes b l)
    (hs : Service.step s l = some s') :
    ∃ ks x', run (Loop.step b) x ks = some x' ∧ Guarded (Loop.step b) (Allowed b) x ks ∧
      Follows b s' x' (yielded ++ messagesOf ks) (received ++ s.given b l) := by
  have ho := hl.1 s' hs
  cases step_effect hs with
  | @first t op _ ht _ _ hset =>
    rw [show s.given b (.call t op) = [] from rfl, List.append_nil]
    exact h.others (Nat.ne_of_lt (Nat.lt_of_lt_of_le ht h.clients)) hset (call_untouched op) ho
  | @later t pc w r _ _ _ hc _ hr hset =>
    have hl := hl.2 pc hc
    by_cases ht : t = b
    · subst ht
      rw [if_pos rfl] at hl
      have hgiven : s.given t (.resume t w) = Service.batch s.outcome s.service t pc w := by
        simp [Sys.given, hc]
      rw [hgiven]
      exact h.own hc hr hset ho hl
    · rw [if_neg ht] at hl
      rw [show s.given b (.resume t w) = [] from if_neg ht, List.append_nil]
      exact h.others ht hset (segment_untouched hl hr) ho
  | quiet hq hservice hclients hcall houtcome =>
    have hgiven : s.given b l = [] := by
      cases l with
      | resume t w => exact absurd rfl (hq t w)
      | _ => rfl
    rw [hgiven, List.append_nil]
    refine ⟨[], x, rfl, trivial, ?_⟩
    rw [show messagesOf ([] : List (LoopLabel P (recording Q))) = [] from rfl, List.append_nil]
    refine ⟨hclients.trans_le h.clients, h.service.trans hservice.symm, fun pc hpc => ?_,
      fun o hb => ?_⟩
    · rw [hcall] at hpc
      exact h.place pc hpc
    · rw [(houtcome b).resolve_right fun hlt => Nat.not_lt.2 h.clients hlt.1] at hb
      exact h.ended o hb

end

/-- **The runs of the system** are runs of the loop of `b`, message by message. -/
theorem Follows.run : ∀ {ls : List (Label P)} {s s' : Sys P (recording Q)}
    {x : Loop P (recording Q)} {yielded received : List MarketDataMessage},
    Follows b s x yielded received → Guarded Service.step (Sys.Consumes b) s ls →
    Lib.run Service.step s ls = some s' →
    ∃ ks x', Lib.run (Loop.step b) x ks = some x' ∧ Guarded (Loop.step b) (Allowed b) x ks ∧
      Follows b s' x' (yielded ++ messagesOf ks) (received ++ s.received b ls)
  | [], s, s', x, yielded, received, h, _, hr => by
    cases hr
    refine ⟨[], x, rfl, trivial, ?_⟩
    rw [show messagesOf ([] : List (LoopLabel P (recording Q))) = [] from rfl, Sys.received,
      List.append_nil, List.append_nil]
    exact h
  | l :: ls, s, s', x, yielded, received, h, hg, hr => by
    obtain ⟨s₁, hs, hr⟩ := run_cons_some hr
    obtain ⟨ks, x₁, hks, hallowed, h₁⟩ := h.step hg.1 hs
    obtain ⟨ks', x', hks', hallowed', h'⟩ := Follows.run h₁ (hg.2 s₁ hs) hr
    refine ⟨ks ++ ks', x', run_append_some hks hks', hallowed.append hks hallowed', ?_⟩
    have hreceived : s.received b (l :: ls) = s.given b l ++ s₁.received b ls := by
      simp [Sys.received, hs]
    rwa [messagesOf_append, hreceived, ← List.append_assoc, ← List.append_assoc]

/-- **What a loop counts in the runs of the service**, if it is the only one: with the messages it
has come to, of those it has received. -/
theorem Follows.accounts {cfg : ExchangeConfig U} {m : Nat} {ls : List (Label P)}
    {s s' : Sys P (recording Q)} {x : Loop P (recording Q)} (hP : ∀ c, P.config c = some cfg)
    (hm : 1 ≤ m) (hx : x.Begins m) (h : Follows b s x [] [])
    (hg : Guarded Service.step (Sys.Consumes b) s ls) (hr : Lib.run Service.step s ls = some s') :
    ∃ ms x', Follows b s' x' ms (s.received b ls) ∧ Accounts cfg m ms x' := by
  obtain ⟨ks, x', hks, hallowed, h'⟩ := h.run hg hr
  exact ⟨messagesOf ks, x', h', (run_counting hP (hx.counting hm) hallowed hks).accounts⟩

end FlinkPractices.Service
