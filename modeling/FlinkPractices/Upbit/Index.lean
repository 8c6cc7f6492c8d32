import FlinkPractices.Upbit.Registry
import FlinkPractices.Upbit.Stream

/-!
# Registry, index and status

The Upbit connector in all runs: any number of tasks, with cancellations, whatever the network
answers and whatever frames come.  Beside a run, `observe` writes down what happens to the registry:
a ticket is `created`, a frame that `_parse_message` lets through is `received` and parsed at some
time.

`Consistent` relates the registry to that history: the index lists a ticket under a code iff the
ticket's entry has the code, and the status and the last message time of an entry are those of the
latest matching frame since the entry was created.

## Proof

The registry changes in two ways only, `Registry.store` and `Registry.receive`, and each keeps
`Recorded`, which is `Consistent` with what the tickets need for it.

* `Recorded.store` — a new entry is in the index under each of its codes, and `PENDING`.
* `Recorded.receive` — a frame marks the entries that have its code and its type, and no others.
* `Edge.stores`, `Edge.receives` — an edge of the control flow stores entries, or receives the frame
  of its label; `step_registry` is that for a whole step.

Principal result: `consistent_of_run`.  Marking comes before the conversion, so it does not matter
to it whether the frame is yielded.
-/

set_option autoImplicit false

namespace FlinkPractices.Upbit

open Lib Connector Function

variable {U : UpperTable} {env : Environment} {cfg : ExchangeConfig U}

/-! ## What happened -/

inductive Event where
  | created (ticket : String)
  /-- a frame of this type, for this upper-cased code -/
  | received (subType code : String) (time : DateTime)

/-- What follows the creation of `t`. -/
def since (t : String) : List Event → List Event
  | [] => []
  | .created u :: es => if u = t then es else since t es
  | .received _ _ _ :: es => since t es

/-- The time of the latest frame of this type for one of the codes. -/
def latest (subType : String) (codes : List String) : List Event → Option DateTime
  | [] => none
  | .created _ :: es => latest subType codes es
  | .received ty code time :: es =>
    (latest subType codes es).or (if ty = subType ∧ code ∈ codes then some time else none)

/-- The entry is as the frames in `es` have left it. -/
def UpToDate (e : SubscriptionEntry) (es : List Event) : Prop :=
  match latest e.subType e.codes es with
  | some time => e.status = .active ∧ e.lastMessageAt = some time
  | none => e.status = .requested ∧ e.lastMessageAt = none

/-- The registry agrees with its index and with what happened. -/
structure Consistent (r : Registry) (es : List Event) : Prop where
  index : ∀ t c, t ∈ (r.codeToTickets.lookup c).getD [] ↔
    ∃ e, (t, e) ∈ r.subscriptions ∧ c ∈ e.codes
  status : ∀ t e, (t, e) ∈ r.subscriptions → UpToDate e (since t es)

variable (env cfg)

/-- The event of a frame received while the registry is `r`, if the frame passes the filters. -/
def frameEvents (r : Registry) (f : Frame) : List Event :=
  match f.decode with
  | none => []
  | some s =>
    match env.loads s with
    | .ok (.dict d) =>
      match recognise cfg d with
      | some (ty, code) => [.received ty (upper U code) (env.now r.reads)]
      | none => []
    | _ => []

/-- The entries of `r'` that `r` does not have. -/
def createdEvents (r r' : Registry) : List Event :=
  (r'.subscriptions.drop r.subscriptions.length).map fun kv => .created kv.1

/-- What a step from `s` to `s'` does. -/
def events (s : Sys (upbit env cfg)) (l : Label (upbit env cfg)) (s' : Sys (upbit env cfg)) :
    List Event :=
  (match frame? l with
    | some f => frameEvents env cfg (registry s.conn) f
    | none => []) ++ createdEvents (registry s.conn) (registry s'.conn)

/-- A step, and what happened so far. -/
def observe (x : Sys (upbit env cfg) × List Event) (l : Label (upbit env cfg)) :
    Option (Sys (upbit env cfg) × List Event) :=
  match step cfg x.1 l with
  | some s' => some (s', x.2 ++ events env cfg x.1 l s')
  | none => none

variable {env cfg}

/-! ## Dictionaries -/

theorem lookup_map_set {α : Type} (d : List (String × α)) (key c : String) (value : α) :
    (d.map fun kv => if kv.1 == key then (key, value) else kv).lookup c =
      if c = key then (d.lookup c).map fun _ => value else d.lookup c := by
  induction d with
  | nil => simp
  | cons kv d ih =>
    obtain ⟨k, v⟩ := kv
    rw [List.map_cons]
    by_cases hk : k = key
    · subst hk
      by_cases hc : c = k
      · simp [hc]
      · have hck : (c == k) = false := by simpa using hc
        rw [if_neg hc] at ih ⊢
        simp only [beq_self_eq_true, if_true, List.lookup_cons, hck]
        exact ih
    · have hkk : (k == key) = false := by simpa using hk
      simp only [hkk, Bool.false_eq_true, if_false, List.lookup_cons]
      cases hck : c == k with
      | true =>
        have hne : ¬c = key := fun h => hk (h ▸ (beq_iff_eq.1 hck).symm)
        rw [if_neg hne]
      | false => exact ih

/-- `d[key]` after `d[key] = value`. -/
theorem lookup_dictSet {α : Type} (d : List (String × α)) (key c : String) (value : α) :
    (dictSet d key value).lookup c = if c = key then some value else d.lookup c := by
  unfold dictSet
  split
  · rename_i h
    rw [lookup_map_set]
    by_cases hc : c = key
    · subst hc
      obtain ⟨kv, hkv, hk⟩ := List.any_eq_true.1 h
      have hsome : (d.lookup c).isSome = true :=
        List.lookup_isSome_iff.2 ⟨kv, hkv, by rw [beq_iff_eq.1 hk]; exact beq_self_eq_true _⟩
      obtain ⟨v, hv⟩ := Option.isSome_iff_exists.1 hsome
      rw [if_pos rfl, if_pos rfl, hv]
      rfl
    · rw [if_neg hc, if_neg hc]
  · rename_i h
    rw [List.lookup_append]
    by_cases hc : c = key
    · subst hc
      have hnone : d.lookup c = none := by
        refine List.lookup_eq_none_iff.2 fun kv hkv => ?_
        have hne : ¬kv.1 = c := fun he => h (List.any_eq_true.2 ⟨kv, hkv, beq_iff_eq.2 he⟩)
        simpa using fun he : c = kv.1 => hne he.symm
      rw [hnone, if_pos rfl, Option.none_or]
      simp
    · have hck : (c == key) = false := by simpa using hc
      rw [if_neg hc, List.lookup_cons, hck, List.lookup_nil, Option.or_none]

theorem mem_indexCode {t ticket c c' : String} (index : List (String × List String)) :
    t ∈ ((indexCode ticket index c').lookup c).getD [] ↔
      t ∈ (index.lookup c).getD [] ∨ (t = ticket ∧ c = c') := by
  unfold indexCode
  rw [lookup_dictSet]
  by_cases hc : c = c'
  · subst hc
    rw [if_pos rfl, Option.getD_some]
    split
    · rename_i hm
      have hm' : ticket ∈ (index.lookup c).getD [] := by simpa using hm
      refine ⟨.inl, ?_⟩
      rintro (h | ⟨rfl, -⟩)
      · exact h
      · exact hm'
    · simp
  · rw [if_neg hc]
    simp [hc]

/-- `for c in entry.codes: self._code_to_tickets.setdefault(c, set()).add(ticket)`. -/
theorem mem_foldl_indexCode {t ticket c : String} (codes : List String) :
    ∀ index : List (String × List String),
      t ∈ ((codes.foldl (indexCode ticket) index).lookup c).getD [] ↔
        t ∈ (index.lookup c).getD [] ∨ (t = ticket ∧ c ∈ codes) := by
  induction codes with
  | nil => simp
  | cons c' codes ih =>
    intro index
    rw [List.foldl_cons, ih, mem_indexCode, List.mem_cons, or_assoc, ← and_or_left]

/-! ## Histories -/

theorem latest_append (subType : String) (codes : List String) (es fs : List Event) :
    latest subType codes (es ++ fs) = (latest subType codes fs).or (latest subType codes es) := by
  induction es with
  | nil => simp [latest]
  | cons ev es ih =>
    cases ev with
    | created t => exact ih
    | received ty code time =>
      rw [List.cons_append, latest, ih, latest, Option.or_assoc]

theorem since_append {t : String} {es : List Event} (fs : List Event) (h : Event.created t ∈ es) :
    since t (es ++ fs) = since t es ++ fs := by
  induction es with
  | nil => cases h
  | cons ev es ih =>
    cases ev with
    | created u =>
      rw [List.cons_append, since, since]
      by_cases hu : u = t
      · rw [if_pos hu, if_pos hu]
      · rw [if_neg hu, if_neg hu]
        refine ih ((List.mem_cons.1 h).resolve_left fun he => hu ?_)
        exact (Event.created.inj he).symm
    | received ty code time =>
      exact ih ((List.mem_cons.1 h).resolve_left fun he => by cases he)

theorem since_created {t : String} {es : List Event} (h : Event.created t ∉ es) :
    since t (es ++ [.created t]) = [] := by
  induction es with
  | nil => simp [since]
  | cons ev es ih =>
    cases ev with
    | created u =>
      have hu : ¬u = t := fun he => h (he ▸ List.mem_cons_self)
      rw [List.cons_append, since, if_neg hu]
      exact ih fun hm => h (List.mem_cons_of_mem _ hm)
    | received ty code time => exact ih fun hm => h (List.mem_cons_of_mem _ hm)

theorem UpToDate.created {e : SubscriptionEntry} {es : List Event} {t : String}
    (h : UpToDate e es) : UpToDate e (es ++ [.created t]) := by
  unfold UpToDate at *
  rw [latest_append]
  exact h

/-- A frame that does not match leaves the entry alone. -/
theorem UpToDate.other {e : SubscriptionEntry} {es : List Event} {ty code : String}
    {time : DateTime} (h : UpToDate e es) (hm : ¬(ty = e.subType ∧ code ∈ e.codes)) :
    UpToDate e (es ++ [.received ty code time]) := by
  unfold UpToDate at *
  rw [latest_append]
  simp only [latest, if_neg hm, Option.or_none, Option.none_or]
  exact h

/-- One that matches makes it `ACTIVE`. -/
theorem UpToDate.mark (e : SubscriptionEntry) (es : List Event) {ty code : String}
    (time : DateTime) (hm : ty = e.subType ∧ code ∈ e.codes) :
    UpToDate { e with status := .active, lastMessageAt := some time }
      (es ++ [.received ty code time]) := by
  unfold UpToDate
  rw [latest_append]
  simp only [latest, if_pos hm, Option.none_or, Option.some_or]
  exact ⟨trivial, trivial⟩

/-! ## The two changes of the registry -/

/-- A new ticket and its entry, as `_create_and_send_subscription` stores them. -/
def Registry.store (env : Environment) (U : UpperTable) (r : Registry) (subType : String)
    (codes : List String) : Registry :=
  storeSubscription env U { r with issued := r.issued + 1 } (env.uuid4 r.issued) subType codes

/-- The entry stored. -/
def newEntry (env : Environment) (U : UpperTable) (r : Registry) (subType : String)
    (codes : List String) : SubscriptionEntry :=
  { ticket := env.uuid4 r.issued, subType, codes := codes.map (upper U), status := .requested,
    createdAt := env.now r.reads, lastMessageAt := none }

/-- The registry after a frame has been parsed and, if it was let through, converted. -/
def Registry.receive (env : Environment) (cfg : ExchangeConfig U) (r : Registry) (f : Frame) :
    Registry :=
  match parseMessage env cfg r f with
  | (r', some d) => (convertToMarketDataMessages env cfg .double r' d).1
  | (r', none) => r'

/-- What holds of a registry and its history. -/
structure Recorded (env : Environment) (r : Registry) (es : List Event) : Prop where
  keyed : r.Keyed env
  consistent : Consistent r es
  created : ∀ t, .created t ∈ es ↔ ∃ e, (t, e) ∈ r.subscriptions

theorem store_subscriptions_of_fresh {r : Registry}
    (h : ∀ kv ∈ r.subscriptions, kv.1 ≠ env.uuid4 r.issued) (subType : String)
    (codes : List String) : (r.store env U subType codes).subscriptions =
      r.subscriptions ++ [(env.uuid4 r.issued, newEntry env U r subType codes)] :=
  dictSet_of_not_mem _ h

theorem Registry.Keyed.store_subscriptions {r : Registry} (h : r.Keyed env) (subType : String)
    (codes : List String) : (r.store env U subType codes).subscriptions =
      r.subscriptions ++ [(env.uuid4 r.issued, newEntry env U r subType codes)] :=
  store_subscriptions_of_fresh h.fresh subType codes

theorem Registry.Keyed.store {r : Registry} (h : r.Keyed env) (subType : String)
    (codes : List String) : (r.store env U subType codes).Keyed env :=
  (createAndSendSubscription_grown h none subType codes .subscribe).keyed h

/-- No entry has the next ticket. -/
theorem Registry.Keyed.not_mem {r : Registry} (h : r.Keyed env) (e : SubscriptionEntry) :
    (env.uuid4 r.issued, e) ∉ r.subscriptions := fun he => h.fresh _ he rfl

/-- A ticket has one entry. -/
theorem Registry.Keyed.unique {r : Registry} (h : r.Keyed env) {t : String}
    {e e' : SubscriptionEntry} (he : (t, e) ∈ r.subscriptions) (he' : (t, e') ∈ r.subscriptions) :
    e = e' := by
  have := List.inj_on_of_nodup_map h.nodup he he' rfl
  exact congrArg Prod.snd this

/-- **Storing a subscription.** -/
theorem Recorded.store {r : Registry} {es : List Event} (h : Recorded env r es) (subType : String)
    (codes : List String) :
    Recorded env (r.store env U subType codes) (es ++ [.created (env.uuid4 r.issued)]) := by
  have hsub := h.keyed.store_subscriptions (U := U) subType codes
  have hnew : Event.created (env.uuid4 r.issued) ∉ es := fun hm => by
    obtain ⟨e, he⟩ := (h.created _).1 hm
    exact h.keyed.not_mem e he
  have hmem : ∀ t e, (t, e) ∈ (r.store env U subType codes).subscriptions ↔
      (t, e) ∈ r.subscriptions ∨ (t = env.uuid4 r.issued ∧ e = newEntry env U r subType codes) := by
    intro t e
    rw [hsub, List.mem_append, List.mem_singleton, Prod.mk.injEq]
  refine ⟨h.keyed.store subType codes, ⟨?_, ?_⟩, ?_⟩
  · intro t c
    have hindex : (r.store env U subType codes).codeToTickets =
        (codes.map (upper U)).foldl (indexCode (env.uuid4 r.issued)) r.codeToTickets := rfl
    rw [hindex, mem_foldl_indexCode, h.consistent.index]
    simp only [hmem, or_and_right, exists_or, and_assoc, exists_and_left, exists_eq_left]
    exact Iff.rfl
  · intro t e he
    rcases (hmem t e).1 he with he | ⟨rfl, rfl⟩
    · rw [since_append _ ((h.created t).2 ⟨e, he⟩)]
      exact (h.consistent.status t e he).created
    · rw [since_created hnew]
      exact ⟨rfl, rfl⟩
  · intro t
    rw [List.mem_append, List.mem_singleton, h.created, Event.created.injEq]
    simp only [hmem, exists_or, exists_and_left, exists_eq, and_true]

/-- What `_mark_active_for` does to the entries. -/
theorem mem_markActiveFor {r : Registry} {subType code t : String} {e' : SubscriptionEntry} :
    (t, e') ∈ (markActiveFor env U r subType code).subscriptions ↔
      ∃ e, (t, e) ∈ r.subscriptions ∧
        e' = if t ∈ (r.codeToTickets.lookup (upper U code)).getD [] ∧ e.subType = subType then
          { e with status := .active, lastMessageAt := some (env.now r.reads) } else e := by
  unfold markActiveFor
  split
  · rename_i hl
    simp [hl]
  · rename_i hl
    simp [hl]
  · rename_i tickets _ hl
    simp only [List.mem_map, hl, Option.getD_some]
    constructor
    · rintro ⟨⟨t', e⟩, he, heq⟩
      refine ⟨e, ?_⟩
      split at heq
      · rename_i hm
        simp only [Bool.and_eq_true, List.contains_iff_mem, beq_iff_eq] at hm
        cases heq
        exact ⟨he, by rw [if_pos hm]⟩
      · rename_i hm
        simp only [Bool.and_eq_true, List.contains_iff_mem, beq_iff_eq] at hm
        cases heq
        exact ⟨he, by rw [if_neg hm]⟩
    · rintro ⟨e, he, rfl⟩
      refine ⟨(t, e), he, ?_⟩
      simp only [Bool.and_eq_true, List.contains_iff_mem, beq_iff_eq]
      split <;> rfl

theorem markActiveFor_codeToTickets (r : Registry) (subType code : String) :
    (markActiveFor env U r subType code).codeToTickets = r.codeToTickets := by
  unfold markActiveFor
  split <;> rfl

theorem convert_maps (r : Registry) (d : Dict) :
    (convertToMarketDataMessages env cfg .double r d).1.subscriptions = r.subscriptions ∧
      (convertToMarketDataMessages env cfg .double r d).1.codeToTickets = r.codeToTickets := by
  have hmessage : ∀ dt ty code, (toMessage env cfg .double r dt ty code d).1.subscriptions =
      r.subscriptions ∧ (toMessage env cfg .double r dt ty code d).1.codeToTickets = r.codeToTickets := by
    intro dt ty code
    unfold toMessage
    split
    · split <;> exact ⟨rfl, rfl⟩
    · exact ⟨rfl, rfl⟩
  unfold convertToMarketDataMessages
  split
  · exact hmessage _ _ _
  · exact hmessage _ _ _
  · exact ⟨rfl, rfl⟩

theorem receive_same (r : Registry) (f : Frame) : r.Same (r.receive env cfg f) := by
  have hp : r.Same (parseMessage env cfg r f).1 := parseMessage_same r f
  unfold Registry.receive
  split
  · rename_i r' d he
    rw [he] at hp
    exact hp.trans (convertToMarketDataMessages_same r' d)
  · rename_i r' he
    rwa [he] at hp

/-- A frame either is filtered out, or marks the entries it matches. -/
theorem receive_cases (r : Registry) (f : Frame) :
    (frameEvents env cfg r f = [] ∧ r.receive env cfg f = r) ∨
    ∃ ty code, frameEvents env cfg r f = [.received ty (upper U code) (env.now r.reads)] ∧
      (r.receive env cfg f).subscriptions = (markActiveFor env U r ty code).subscriptions ∧
      (r.receive env cfg f).codeToTickets = r.codeToTickets := by
  have skipped : parseMessage env cfg r f = (r, none) → r.receive env cfg f = r := by
    intro hp
    rw [Registry.receive, hp]
  unfold frameEvents
  split
  · rename_i hs
    exact .inl ⟨rfl, skipped (by rw [parseMessage, hs])⟩
  · rename_i s hs
    split
    · rename_i d hl
      split
      · rename_i ty code hrec
        have hp : parseMessage env cfg r f = (markActiveFor env U r ty code, some d) := by
          simp only [parseMessage, hs, hl, hrec]
        obtain ⟨hsub, hindex⟩ := @convert_maps _ env cfg (markActiveFor env U r ty code) d
        refine .inr ⟨ty, code, rfl, ?_⟩
        rw [Registry.receive, hp]
        exact ⟨hsub, hindex.trans (markActiveFor_codeToTickets r ty code)⟩
      · rename_i hrec
        exact .inl ⟨rfl, skipped (by simp only [parseMessage, hs, hl, hrec])⟩
    · rename_i hl
      exact .inl ⟨rfl, skipped (by simp only [parseMessage, hs])⟩

/-- **Receiving a frame.** -/
theorem Recorded.receive {r : Registry} {es : List Event} (h : Recorded env r es) (f : Frame) :
    Recorded env (r.receive env cfg f) (es ++ frameEvents env cfg r f) := by
  rcases @receive_cases _ env cfg r f with ⟨hf, hr⟩ | ⟨ty, code, hf, hsub, hindex⟩
  · rw [hf, hr, List.append_nil]
    exact h
  have hmem : ∀ t e', (t, e') ∈ (r.receive env cfg f).subscriptions ↔
      ∃ e, (t, e) ∈ r.subscriptions ∧ e' = if t ∈ (r.codeToTickets.lookup (upper U code)).getD [] ∧
          e.subType = ty then { e with status := .active, lastMessageAt := some (env.now r.reads) }
        else e := by
    intro t e'
    rw [hsub, mem_markActiveFor]
  -- the index finds exactly the entries that have the code
  have hlisted : ∀ t e, (t, e) ∈ r.subscriptions →
      (t ∈ (r.codeToTickets.lookup (upper U code)).getD [] ↔ upper U code ∈ e.codes) := by
    intro t e he
    rw [h.consistent.index]
    refine ⟨?_, fun hc => ⟨e, he, hc⟩⟩
    rintro ⟨e₀, he₀, hc⟩
    exact h.keyed.unique he he₀ ▸ hc
  have hcodes : ∀ t e', (t, e') ∈ (r.receive env cfg f).subscriptions →
      ∃ e, (t, e) ∈ r.subscriptions ∧ e'.codes = e.codes := by
    intro t e' he'
    obtain ⟨e, he, rfl⟩ := (hmem t e').1 he'
    exact ⟨e, he, by split <;> rfl⟩
  rw [hf]
  refine ⟨(receive_same r f).keyed h.keyed, ⟨?_, ?_⟩, ?_⟩
  · intro t c
    rw [hindex, h.consistent.index]
    constructor
    · rintro ⟨e, he, hc⟩
      exact ⟨_, (hmem t _).2 ⟨e, he, rfl⟩, by split <;> exact hc⟩
    · rintro ⟨e', he', hc⟩
      obtain ⟨e, he, hcs⟩ := hcodes t e' he'
      exact ⟨e, he, hcs ▸ hc⟩
  · intro t e' he'
    obtain ⟨e, he, rfl⟩ := (hmem t e').1 he'
    rw [since_append _ ((h.created t).2 ⟨e, he⟩)]
    split
    · rename_i hm
      exact UpToDate.mark e _ _ ⟨hm.2.symm, (hlisted t e he).1 hm.1⟩
    · rename_i hm
      exact (h.consistent.status t e he).other fun hn =>
        hm ⟨(hlisted t e he).2 hn.2, hn.1.symm⟩
  · intro t
    rw [List.mem_append, or_iff_left (fun hm => by cases List.mem_singleton.1 hm), h.created]
    constructor
    · rintro ⟨e, he⟩
      exact ⟨_, (hmem t _).2 ⟨e, he, rfl⟩⟩
    · rintro ⟨e', he'⟩
      obtain ⟨e, he, -⟩ := hcodes t e' he'
      exact ⟨e, he⟩

/-! ## What a step does to the registry -/

/-- `r'` has more subscriptions than `r`, stored one by one. -/
inductive Stores (env : Environment) (U : UpperTable) (r : Registry) : Registry → Prop
  | refl : Stores env U r r
  | store {r'} (subType : String) (codes : List String) : Stores env U r r' →
      Stores env U r (r'.store env U subType codes)

theorem Stores.trans {r r' r'' : Registry} (h : Stores env U r r') (h' : Stores env U r' r'') :
    Stores env U r r'' := by
  induction h' with
  | refl => exact h
  | store subType codes _ ih => exact ih.store subType codes

/-- **The new entries are the ones created.** -/
theorem Stores.recorded {r r' : Registry} {es : List Event} (hs : Stores env U r r')
    (h : Recorded env r es) : Recorded env r' (es ++ createdEvents r r') := by
  suffices hsuf : ∃ new, r'.subscriptions = r.subscriptions ++ new ∧
      Recorded env r' (es ++ new.map fun kv => .created kv.1) by
    obtain ⟨new, hnew, hrec⟩ := hsuf
    rwa [createdEvents, hnew, List.drop_left]
  induction hs with
  | refl => exact ⟨[], by simp, by simpa using h⟩
  | @store r₁ subType codes _ ih =>
    obtain ⟨new, hnew, hrec⟩ := ih
    refine ⟨new ++ [(env.uuid4 r₁.issued, newEntry env U r₁ subType codes)], ?_, ?_⟩
    · rw [hrec.keyed.store_subscriptions, hnew, List.append_assoc]
    · rw [List.map_append, ← List.append_assoc]
      exact hrec.store subType codes

theorem sendSubscriptionMessage_stores (r : Registry) (ws : Option Ws) :
    Stores env U r (sendSubscriptionMessage env cfg r ws).1 := by
  unfold sendSubscriptionMessage
  split
  · exact .refl
  · split
    · exact .store _ _ .refl
    · exact .refl

theorem resumeSend_stores (r : Registry) (ws : Option Ws) (q : Coro) (e : Option PyExn) :
    Stores env U r (resumeSend env U r ws q e).1 := by
  cases e with
  | none =>
    cases q with
    | seedTrade codes => exact .store _ _ .refl
    | _ => exact .refl
  | some e => cases q <;> exact .refl

theorem subscribe_stores (r : Registry) (ws : Option Ws) (ty : String) (codes : List String) :
    Stores env U r (subscribe env U r ws ty codes).1 := by
  unfold subscribe
  split
  · split
    · exact .refl
    · exact .store _ _ .refl
  · exact .refl

/-- Not where a frame has just been received. -/
def NoFrame : Point (upbit env cfg) → Prop
  | .resumed _ (.frame _) => False
  | _ => True

theorem Edge.noFrame {isDone : TaskId → Bool} {t : TaskId} {P P' : Point (upbit env cfg)}
    {c c' : Conn (upbit env cfg)} (h : Edge cfg isDone t P c P' c') : NoFrame P' := by
  cases h <;> trivial

/-- Elsewhere an edge can only store subscriptions. -/
theorem Edge.stores {isDone : TaskId → Bool} {t : TaskId} {P P' : Point (upbit env cfg)}
    {c c' : Conn (upbit env cfg)} (h : Edge cfg isDone t P c P' c') (hP : NoFrame P) :
    Stores env U (registry c) (registry c') := by
  cases h
  case dialReturned i r hr =>
    have hs : Stores env U (registry c) (i, r).1 :=
      hr ▸ sendSubscriptionMessage_stores (registry c) (some c.opened)
    exact hs
  case sendReturned w p q i r hr | ownSent w p q i r hr =>
    have hs : Stores env U (registry c) (i, r).1 :=
      hr ▸ resumeSend_stores (registry c) c.websocket q none
    exact hs
  case sendRaised w p q e i r hr | ownSendRaised w p q e i r hr =>
    have hs : Stores env U (registry c) (i, r).1 :=
      hr ▸ resumeSend_stores (registry c) c.websocket q (some e)
    exact hs
  case ownStart o i r hr =>
    obtain ⟨ty, codes⟩ := o
    have hs : Stores env U (registry c) (i, r).1 :=
      hr ▸ subscribe_stores (registry c) c.websocket ty codes
    exact hs
  case frameSkipped | frameInvalid | frameRaised | convertInvalid | convertRaised | converted =>
    exact hP.elim
  all_goals exact .refl

theorem Path.stores {isDone : TaskId → Bool} {t : TaskId}
    {x y : Point (upbit env cfg) × Conn (upbit env cfg)} (h : Path cfg isDone t x y)
    (hx : NoFrame x.1) : Stores env U (registry x.2) (registry y.2) := by
  have hboth : NoFrame y.1 ∧ Stores env U (registry x.2) (registry y.2) := by
    induction h with
    | refl => exact ⟨hx, .refl⟩
    | tail _ he ih => exact ⟨Edge.noFrame he, ih.2.trans (Edge.stores he ih.1)⟩
  exact hboth.2

theorem upbit_parse {r r' : Registry} {f : Frame} {x : Except PyExn (Option Dict)}
    (h : (upbit env cfg).parseMessage r f = (r', x)) :
    ∃ d, x = .ok d ∧ parseMessage env cfg r f = (r', d) := by
  cases h
  exact ⟨_, rfl, rfl⟩

/-- Where a frame has been received, an edge parses and converts it. -/
theorem Edge.receives {isDone : TaskId → Bool} {t : TaskId} {P' : Point (upbit env cfg)}
    {c c' : Conn (upbit env cfg)} {w : Ws} {f : Frame}
    (h : Edge cfg isDone t (.resumed (.recv w) (.frame f)) c P' c') :
    registry c' = (registry c).receive env cfg f := by
  have hreceive : ∀ {i : Registry} {d : Dict}, parseMessage env cfg (registry c) f = (i, some d) →
      (registry c).receive env cfg f = (convertToMarketDataMessages env cfg .double i d).1 := by
    intro i d hp
    rw [Registry.receive, hp]
  cases h
  case frameSkipped i hp =>
    obtain ⟨d, hd, hp⟩ := upbit_parse hp
    cases hd
    rw [Registry.receive, show parseMessage env cfg (registry c) f = _ from hp]
    rfl
  case frameInvalid hp | frameRaised hp =>
    obtain ⟨_, hd, -⟩ := upbit_parse hp
    cases hd
  case convertInvalid i j d e hc he hp | convertRaised i j d e hc he hp |
      converted i j d ms hc hp =>
    obtain ⟨_, hd, hp⟩ := upbit_parse hp
    cases hd
    rw [hreceive hp, show convertToMarketDataMessages env cfg .double i d = _ from hc]
    rfl

/-- What a step receives, and what it then stores. -/
theorem step_registry {s s' : Sys (upbit env cfg)} {l : Label (upbit env cfg)}
    (hs : step cfg s l = some s') :
    (frame? l = none ∧ Stores env U (registry s.conn) (registry s'.conn)) ∨
    ∃ f, frame? l = some f ∧
      Stores env U ((registry s.conn).receive env cfg f) (registry s'.conn) := by
  cases step_move hs with
  | call ho hc =>
    refine .inl ⟨rfl, ?_⟩
    rw [Sys.settle_conn]
    exact Path.stores (enter_path s.conn _) trivial
  | next ho hc hm =>
    refine .inl ⟨rfl, ?_⟩
    rw [Sys.settle_conn]
    exact Path.stores (yieldMessages_path s.conn _) trivial
  | @resume t pc w r hc ha hr =>
    rw [Sys.settle_conn]
    cases w with
    | frame f =>
      refine .inr ⟨f, rfl, ?_⟩
      obtain ⟨⟨w, rfl⟩, -⟩ := advance_frame hr
      rcases Relation.ReflTransGen.cases_head (advance_path hr) with he | ⟨y, he, hpath⟩
      · obtain ⟨c, a⟩ := r
        cases a <;> cases he
      · rw [← Edge.receives he]
        exact Path.stores hpath (Edge.noFrame he)
    | done | raised e | cancelled => exact .inl ⟨rfl, Path.stores (advance_path hr) trivial⟩
  | cancel => exact .inl ⟨rfl, .refl⟩
  | exit => exact .inl ⟨rfl, .refl⟩

/-- **One step.** -/
theorem Recorded.step {s s' : Sys (upbit env cfg)} {l : Label (upbit env cfg)} {es : List Event}
    (h : Recorded env (registry s.conn) es) (hs : step cfg s l = some s') :
    Recorded env (registry s'.conn) (es ++ events env cfg s l s') := by
  rcases step_registry hs with ⟨hf, hst⟩ | ⟨f, hf, hst⟩
  · rw [events, hf, List.nil_append]
    exact hst.recorded h
  · have hlen : ((registry s.conn).receive env cfg f).subscriptions.length =
        (registry s.conn).subscriptions.length := by
      have hsame : (registry s.conn).Same ((registry s.conn).receive env cfg f) := receive_same _ f
      have hl := congrArg List.length hsame.requests
      rwa [List.length_map, List.length_map] at hl
    have hcreated : createdEvents (registry s.conn) (registry s'.conn) =
        createdEvents ((registry s.conn).receive env cfg f) (registry s'.conn) := by
      rw [createdEvents, createdEvents, hlen]
    rw [events, hf, hcreated, ← List.append_assoc]
    exact hst.recorded (h.receive f)

theorem recorded_init : Recorded env Registry.init [] where
  keyed := Registry.keyed_init
  consistent := ⟨fun _ _ => by simp [Registry.init], fun _ _ h => by cases h⟩
  created _ := by simp [Registry.init]

theorem observe_some {x x' : Sys (upbit env cfg) × List Event} {l : Label (upbit env cfg)}
    (h : observe env cfg x l = some x') :
    step cfg x.1 l = some x'.1 ∧ x'.2 = x.2 ++ events env cfg x.1 l x'.1 := by
  unfold observe at h
  split at h
  · rename_i s' hs
    cases h
    exact ⟨hs, rfl⟩
  · cases h

theorem recorded_of_run {ls : List (Label (upbit env cfg))} {s : Sys (upbit env cfg)}
    {es : List Event}
    (hr : run (observe env cfg) (Sys.init (upbit env cfg) Registry.init, []) ls = some (s, es)) :
    Recorded env (registry s.conn) es := by
  refine run_invariant
    (P := fun x : Sys (upbit env cfg) × List Event => Recorded env (registry x.1.conn) x.2)
    (fun x l x' h hx => ?_) recorded_init hr
  obtain ⟨hs, he⟩ := observe_some hx
  rw [he]
  exact h.step hs

/-- **Registry, index and status are consistent in every run.** -/
theorem consistent_of_run {ls : List (Label (upbit env cfg))} {s : Sys (upbit env cfg)}
    {es : List Event}
    (hr : run (observe env cfg) (Sys.init (upbit env cfg) Registry.init, []) ls = some (s, es)) :
    Consistent (registry s.conn) es :=
  (recorded_of_run hr).consistent

/-! ## A run -/

/-- A stream seeds the registry and receives a trade; another task's `subscribe()` of the same
market fails to send; then the trade comes again. -/
def tradesAround : List (Label (upbit tradeOrLate krwBtcConfig)) :=
  [.call 0 .stream, .resume 0 .done, .resume 0 .done, .resume 0 .done,
    .resume 0 (.frame (.text "trade")), .call 1 (.own (.subscribe "trade" ["krw-btc", "KRW-ETH"])),
    .resume 1 (.raised .osError), .next 0, .resume 0 (.frame (.text "trade"))]

theorem tradesAround_isSome : (run (observe tradeOrLate krwBtcConfig)
    (Sys.init (upbit tradeOrLate krwBtcConfig) Registry.init, []) tradesAround).isSome = true := rfl

/-- Where it ends, and what happened. -/
def tradesAroundEnd : Sys (upbit tradeOrLate krwBtcConfig) × List Event :=
  Option.get _ tradesAround_isSome

theorem tradesAround_run : run (observe tradeOrLate krwBtcConfig)
    (Sys.init (upbit tradeOrLate krwBtcConfig) Registry.init, []) tradesAround =
      some (tradesAroundEnd.1, tradesAroundEnd.2) := (Option.some_get tradesAround_isSome).symm

/-- `consistent_of_run` of that run: three entries and two frames; two of the entries are active. -/
theorem consistent_of_run_tradesAround :
    tradesAroundEnd.2.length = 5 ∧
    (registry tradesAroundEnd.1.conn).subscriptions.map (fun kv => kv.2.status) =
      [.active, .requested, .active] ∧
    Consistent (registry tradesAroundEnd.1.conn) tradesAroundEnd.2 :=
  ⟨rfl, rfl, consistent_of_run tradesAround_run⟩

end FlinkPractices.Upbit
