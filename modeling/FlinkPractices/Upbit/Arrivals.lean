import FlinkPractices.Lib.Shares
import FlinkPractices.Upbit.Stream

/-!
# What reaches the consumers

Any number of tasks stream from one connector, connect, disconnect, subscribe and are cancelled, in
any order.  A frame is received by the task whose `recv()` returns it: that task yields its message
before it does anything else, or nothing if the frame is dropped, and no other step yields anything.

* `Renders` — a message is that of an accepted frame, with the clock read at some time.
* `Relayed` — the frames in the order of arrival, each with the task that received it, against the
  messages in the order in which they were yielded, each with the task that yielded it.
* `arrivals`, `deliveries` — both sides, read off the labels and the events of a run.

## Proof

No generator keeps a message back (`NoneLeft`), as a conversion gives one at most.  So what a step
yields is owed to the frame it receives, or is nothing (`step_owes`); the run follows by induction
on its labels.

Principal result: `relayed_of_run`.  What a single task sees of it is `Relayed.share`.  Frames that
are still in the socket, and those of a socket that was closed, have not been received and are in
neither list.
-/

set_option autoImplicit false

namespace FlinkPractices.Upbit

open Lib Connector Function

variable {U : UpperTable} (env : Environment) (cfg : ExchangeConfig U)

/-- `m` is the message of the accepted frame `f`, with the clock read at some time. -/
def Renders (f : Frame) (m : MarketDataMessage) : Prop :=
  ∃ dataType code d r r', Accepts env cfg f dataType code d ∧
    toMessage env cfg .double r dataType (typeOf dataType) code d = (r', .ok [m])

/-- Each accepted frame gives its message to the task that received it, in order; the others give
none. -/
inductive Relayed : List (TaskId × Frame) → List (TaskId × MarketDataMessage) → Prop
  | nil : Relayed [] []
  | gives {fs ms t f m} : Relayed fs ms → Renders env cfg f m →
      Relayed (fs ++ [(t, f)]) (ms ++ [(t, m)])
  | drops {fs ms t f} : Relayed fs ms → Drops env cfg f → Relayed (fs ++ [(t, f)]) ms

variable {env cfg}

/-- The frame that a step receives, and the task that receives it. -/
def arrival? : Label (upbit env cfg) → Option (TaskId × Frame)
  | .resume t (.frame f) => some (t, f)
  | _ => none

/-- The frames received in a run, in the order of arrival. -/
def arrivals (ls : List (Label (upbit env cfg))) : List (TaskId × Frame) := ls.filterMap arrival?

/-- The messages yielded in a run, and by which task. -/
def deliveries (s : Sys (upbit env cfg)) : List (TaskId × MarketDataMessage) := s.yielded

/-- A rendered message, in full. -/
structure Rendered (env : Environment) (cfg : ExchangeConfig U) (m : MarketDataMessage)
    (ty : MarketDataType) (code : String) (d : Dict) : Prop where
  exchange : m.exchange = cfg.exchangeName
  dataType : m.dataType = ty
  rawCode : m.rawCode = code
  streamType : m.streamType = .realtime
  rawData : m.rawData = d
  received : ∃ n, m.receivedTimestamp = env.now n
  /-- its own time, or else the reading of the clock before -/
  event : (eventTsMs (typeOf ty) d).truthy = true ∧
      fromTimestampMs .double (eventTsMs (typeOf ty) d) = some m.eventTimestamp ∨
    ∃ n, m.eventTimestamp = env.now n ∧ m.receivedTimestamp = env.now (n + 1)

theorem rendered_of_toMessage {r r' : Registry} {dataType : MarketDataType} {code : String}
    {d : Dict} {m : MarketDataMessage}
    (h : toMessage env cfg .double r dataType (typeOf dataType) code d = (r', .ok [m])) :
    Rendered env cfg m dataType code d := by
  unfold toMessage at h
  split at h
  · rename_i ht
    split at h
    · rename_i time htime
      obtain ⟨-, hm⟩ := newMessage_ok.1 (Prod.mk.inj h).2
      cases hm
      exact ⟨rfl, rfl, rfl, rfl, rfl, ⟨_, rfl⟩, .inl ⟨ht, htime⟩⟩
    · cases h
  · obtain ⟨-, hm⟩ := newMessage_ok.1 (Prod.mk.inj h).2
    cases hm
    exact ⟨rfl, rfl, rfl, rfl, rfl, ⟨_, rfl⟩, .inr ⟨_, rfl, rfl⟩⟩

theorem Renders.gives {f : Frame} {m : MarketDataMessage} (h : Renders env cfg f m) :
    Gives env cfg f m := by
  obtain ⟨dataType, code, d, r, r', hacc, hm⟩ := h
  have hr := rendered_of_toMessage hm
  exact ⟨dataType, code, d, hacc, congrArg (upper U) hr.rawCode, hr.dataType, hr.rawData⟩

/-- Each task by itself. -/
theorem Relayed.share {fs : List (TaskId × Frame)} {ms : List (TaskId × MarketDataMessage)}
    (h : Relayed env cfg fs ms) (t : TaskId) :
    Yields U (Accepts env cfg) (Lib.share t fs) (Lib.share t ms) := by
  induction h with
  | nil => exact .nil
  | @gives fs ms u f m _ hg ih =>
    by_cases hu : u = t
    · subst hu
      rw [share_concat_self, share_concat_self]
      obtain ⟨_, _, _, hacc, hm⟩ := hg.gives
      exact .gives ih hacc hm
    · rwa [share_concat_of_ne hu, share_concat_of_ne hu]
  | @drops fs ms u f _ hd ih =>
    by_cases hu : u = t
    · subst hu
      rw [share_concat_self]
      exact .drops ih hd
    · rwa [share_concat_of_ne hu]

/-! ## One step -/

/-- A dropped frame yields nothing, whatever the state of the connector. -/
theorem streamFrame_silent {f : Frame} (h : Drops env cfg f) (done : TaskId → Bool) (t : TaskId)
    (c : Conn (upbit env cfg)) : (streamFrame cfg done c t f).2.point.Silent := by
  have hloop : ∀ r : Registry, (streamLoop cfg done
      ({ c with inst := r } : Conn (upbit env cfg)) t).2.point.Silent :=
    fun r => Path.silent (streamLoop_path { c with inst := r }) trivial
  unfold streamFrame
  rcases h.message c.inst with hp | ⟨r₁, d, r₂, hp, hc⟩
  · simp only [upbit, hp]
    exact hloop c.inst
  · simp only [upbit, hp, hc, streamExcept]
    exact hloop r₂

/-- The message of an accepted frame is yielded. -/
theorem streamFrame_renders {f : Frame} {dataType : MarketDataType} {code : String} {d : Dict}
    (h : Accepts env cfg f dataType code d) (done : TaskId → Bool) (t : TaskId)
    (c : Conn (upbit env cfg)) :
    ∃ r m, streamFrame cfg done c t f = ({ c with inst := r }, .yields m []) ∧
      Renders env cfg f m := by
  obtain ⟨r₁, r₂, m, hp, hc, -⟩ := h.message c.inst
  refine ⟨r₂, m, ?_, dataType, code, d, r₁, r₂, h, ?_⟩
  · unfold streamFrame
    simp only [upbit, hp, hc]
    rfl
  · rw [← convert_typeOf h.hasType h.hasCode]
    exact hc

/-- A conversion gives one message at most: no generator has more to yield. -/
def NoneLeft (s : Sys (upbit env cfg)) : Prop :=
  ∀ t ms, (s.tasks t).generator = some ms → ms = []

/-- What a step yields, by the frame it receives. -/
def Owes (s s' : Sys (upbit env cfg)) : Option (TaskId × Frame) → Prop
  | none => deliveries s' = deliveries s
  | some (t, f) => (∃ m, Renders env cfg f m ∧ deliveries s' = deliveries s ++ [(t, m)]) ∨
      Drops env cfg f ∧ deliveries s' = deliveries s

theorem NoneLeft.setTask {s : Sys (upbit env cfg)} (h : NoneLeft s) {t : TaskId}
    {k : Task (upbit env cfg)} (hk : ∀ ms, k.generator = some ms → ms = []) :
    NoneLeft (s.setTask t k) := by
  intro u ms hms
  by_cases hu : u = t
  · subst hu
    rw [Sys.setTask_self] at hms
    exact hk ms hms
  · rw [Sys.setTask_ne s hu] at hms
    exact h u ms hms

theorem NoneLeft.settle {s : Sys (upbit env cfg)} (h : NoneLeft s) {t : TaskId}
    {k : Task (upbit env cfg)} {r : Conn (upbit env cfg) × Act (upbit env cfg)}
    (hk : ∀ ms, ((s.settle t k r).tasks t).generator = some ms → ms = []) :
    NoneLeft (s.settle t k r) := by
  intro u ms hms
  by_cases hu : u = t
  · subst hu
    exact hk ms hms
  · rw [Sys.settle_tasks_ne s hu] at hms
    exact h u ms hms

/-- A segment that yields nothing. -/
theorem NoneLeft.silent {s : Sys (upbit env cfg)} (h : NoneLeft s) {t : TaskId}
    {k : Task (upbit env cfg)} (hk : ∀ ms, k.generator = some ms → ms = [])
    {r : Conn (upbit env cfg) × Act (upbit env cfg)} (hr : r.2.point.Silent) :
    NoneLeft (s.settle t k r) ∧ deliveries (s.settle t k r) = deliveries s := by
  have hsilent := Sys.settle_silent (s := s) (t := t) (k := k) hr
  refine ⟨h.settle fun ms hms => ?_, hsilent.1⟩
  rw [hsilent.2] at hms
  exact hk ms hms

/-- A frame is received, in whatever state. -/
theorem NoneLeft.receives {s : Sys (upbit env cfg)} (h : NoneLeft s) (t : TaskId) (f : Frame)
    {k : Task (upbit env cfg)} (hk : ∀ ms, k.generator = some ms → ms = []) :
    NoneLeft (s.settle t k (streamFrame cfg s.isDone s.conn t f)) ∧
      Owes s (s.settle t k (streamFrame cfg s.isDone s.conn t f)) (some (t, f)) := by
  by_cases hf : Drops env cfg f
  · obtain ⟨hnone, hy⟩ := h.silent hk (streamFrame_silent hf s.isDone t s.conn)
    exact ⟨hnone, .inr ⟨hf, hy⟩⟩
  · simp only [Drops, Classical.not_forall, Classical.not_not] at hf
    obtain ⟨dataType, code, d, hacc⟩ := hf
    obtain ⟨i, m, hi, hm⟩ := streamFrame_renders hacc s.isDone t s.conn
    rw [hi]
    refine ⟨h.settle fun ms hms => ?_, .inl ⟨m, hm, rfl⟩⟩
    simp only [Sys.settle, Sys.setTask, update_self, Option.some.injEq] at hms
    exact hms.symm

/-- **One step**, of whichever task. -/
theorem step_owes {s s' : Sys (upbit env cfg)} {l : Label (upbit env cfg)} (h : NoneLeft s)
    (hs : step cfg s l = some s') : NoneLeft s' ∧ Owes s s' (arrival? l) := by
  cases step_move hs with
  | @call t op ho hc => exact h.silent (h t) ((enter_path s.conn op).silent trivial)
  | @next t ms ho hc hm =>
    cases h t ms hm
    exact h.silent (fun ms hms => by cases hms) ((yieldMessages_path s.conn []).silent trivial)
  | @resume t pc w r hc ha hr =>
    cases w with
    | frame f =>
      obtain ⟨-, rfl⟩ := advance_frame hr
      exact h.receives t f (h t)
    | _ =>
      exact h.silent (k := { s.tasks t with cancelling := false }) (h t)
        ((advance_path hr).silent trivial)
  | @cancel t depth u hd ht => exact ⟨h.setTask (h u), rfl⟩
  | @exit t o ho hc hm => exact ⟨h.setTask (fun ms hms => by cases hms), rfl⟩

theorem noneLeft_init (inst : Registry) : NoneLeft (Sys.init (upbit env cfg) inst) := by
  intro t ms hms
  cases hms

theorem step_relayed {s s' : Sys (upbit env cfg)} {l : Label (upbit env cfg)}
    {fs : List (TaskId × Frame)} (h : NoneLeft s) (hd : Relayed env cfg fs (deliveries s))
    (hs : step cfg s l = some s') :
    Relayed env cfg (fs ++ (arrival? l).toList) (deliveries s') := by
  have ho := (step_owes h hs).2
  cases ha : arrival? l with
  | none =>
    rw [ha] at ho
    rw [Option.toList_none, List.append_nil, show deliveries s' = _ from ho]
    exact hd
  | some x =>
    obtain ⟨t, f⟩ := x
    rw [ha] at ho
    rcases ho with ⟨m, hm, hy⟩ | ⟨hf, hy⟩
    · rw [hy]
      exact .gives hd hm
    · rw [hy]
      exact .drops hd hf

theorem run_relayed {inst : Registry} {ls : List (Label (upbit env cfg))}
    {s : Sys (upbit env cfg)} (hr : run (step cfg) (Sys.init (upbit env cfg) inst) ls = some s) :
    Relayed env cfg (arrivals ls) (deliveries s) := by
  have hrun : NoneLeft s ∧ Relayed env cfg ([] ++ arrivals ls) s.yielded :=
    run_collects (G := fun _ _ => True) (g := arrival?)
      (P := fun x xs => NoneLeft x ∧ Relayed env cfg xs (deliveries x))
      (fun _ _ _ _ hx _ hs => ⟨(step_owes hx.1 hs).1, step_relayed hx.1 hx.2 hs⟩)
      ⟨noneLeft_init inst, .nil⟩ (.of_forall fun _ _ => trivial) hr
  exact hrun.2

/-- **What the tasks yield**, in every interleaving of any number of them, with whatever
cancellations and failures: one message for each accepted frame, by the task that received it and in
the order of arrival, and nothing else. -/
theorem relayed_of_run {inst : Registry} {ls : List (Label (upbit env cfg))}
    {s : Sys (upbit env cfg)}
    (hr : run (step cfg) (Sys.init (upbit env cfg) inst) ls = some s) :
    Relayed env cfg (arrivals ls) (deliveries s) ∧
      ∀ t, Yields U (Accepts env cfg) (share t (arrivals ls)) (share t (deliveries s)) :=
  ⟨run_relayed hr, (run_relayed hr).share⟩

/-! ## Two tasks and a cancellation -/

/-- Two tasks stream: the first connects while the second waits for it, both wait for messages, the
second receives a trade, the first a frame that is dropped, and is cancelled. -/
def twoStreams : List (Label (upbit tradeOrLate krwBtcConfig)) :=
  [.call 0 .stream, .call 1 .connect, .resume 0 .done, .resume 0 .done, .resume 0 .done,
    .resume 0 (.frame (.text "trade")), .next 0, .call 2 .stream,
    .resume 2 (.frame (.text "trade")), .resume 0 (.frame (.text "noise")), .cancel 0 1,
    .resume 0 .cancelled]

theorem twoStreams_isSome : (run (step krwBtcConfig)
    (Sys.init (upbit tradeOrLate krwBtcConfig) Registry.init) twoStreams).isSome = true := rfl

def twoStreamsEnd : Sys (upbit tradeOrLate krwBtcConfig) := Option.get _ twoStreams_isSome

/-- `relayed_of_run` of that run: each of two tasks yields a message. -/
theorem relayed_twoStreams : (deliveries twoStreamsEnd).map Prod.fst = [0, 2] ∧
    Relayed tradeOrLate krwBtcConfig (arrivals twoStreams) (deliveries twoStreamsEnd) ∧
      ∀ t, Yields asciiTable (Accepts tradeOrLate krwBtcConfig) (share t (arrivals twoStreams))
        (share t (deliveries twoStreamsEnd)) :=
  ⟨rfl, relayed_of_run (Option.some_get twoStreams_isSome).symm⟩

end FlinkPractices.Upbit
