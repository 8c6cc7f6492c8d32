import FlinkPractices.Connector.Base
import FlinkPractices.Lib.System

/-!
# Any number of tasks on one connector

The scheduler's view: a connector object and the tasks that call it.  A task is between calls,
suspended inside one, or done; independently it may own a `stream_market_data()` generator that
is suspended at its `yield`.  A label is one scheduling decision together with what the
environment answers:

* `call t op` — the task makes a call;  `next t` — it asks its generator for the next message;
* `resume t w` — the `await` it is suspended in gives `w`;
* `cancel t depth` — `task.cancel()` from outside.  A task that awaits another task passes the
  cancellation on to it (`cancelTarget` follows at most `depth` such links); the last one gets
  `CancelledError` at its suspension point;
* `exit t o` — the task ends: normally, or with what its last call ended with.

`step` is the transition function: one label runs one segment of `Connector.Base` to its end, since
`asyncio` runs nothing else in between, and writes back what it did (`Sys.settle`).  A label that
cannot happen has no successor (`Sys.admits`, `Task.mayExit`); runs and invariants over `step` are
`Lib.System`.

`concurrencyTestConnector` is the connector of the repository's own concurrency tests; the runs at
the ends of the modules that follow are runs of it.
-/

set_option autoImplicit false

namespace FlinkPractices.Connector

open Lib

variable {U : UpperTable} (S : Subclass) (cfg : ExchangeConfig U)

/-- One `asyncio` task. -/
structure Task where
  /-- the call it is suspended in -/
  call : Option (Pc S)
  /-- its generator suspended at `yield`, with the messages still to be yielded -/
  generator : Option (List S.Msg)
  /-- how its last call ended -/
  last : Option Outcome
  /-- a cancellation is pending -/
  cancelling : Bool
  /-- how the task ended, once it is `done()` -/
  outcome : Option Outcome

/-- A task that has not called the connector yet. -/
def Task.init : Task S := ⟨none, none, none, false, none⟩

structure Sys where
  conn : Conn S
  tasks : TaskId → Task S
  /-- messages yielded so far, by task -/
  yielded : List (TaskId × S.Msg)

def Sys.init (inst : S.Inst) : Sys S := ⟨Conn.init S inst, fun _ => Task.init S, []⟩

inductive Label where
  | call (t : TaskId) (op : Op S)
  | next (t : TaskId)
  | resume (t : TaskId) (w : Wake S)
  | cancel (t : TaskId) (depth : Nat)
  | exit (t : TaskId) (o : Outcome)

variable {S}

/-- `task.done()`. -/
def Sys.isDone (s : Sys S) (t : TaskId) : Bool := (s.tasks t).outcome.isSome

def Sys.setTask (s : Sys S) (t : TaskId) (k : Task S) : Sys S :=
  { s with tasks := Function.update s.tasks t k }

/-- The task awaited by a suspended call, if it awaits a task. -/
def Pc.awaited : Pc S → Option TaskId
  | .connect _ (.awaitTask o) => some o
  | .connect _ (.awaitTaskLocked o) => some o
  | _ => none

/-- Write back what a segment of task `t` did. -/
def Sys.settle (s : Sys S) (t : TaskId) (k : Task S) : Conn S × Act S → Sys S
  | (c, .suspend pc) => { s.setTask t { k with call := some pc } with conn := c }
  | (c, .finish r) => { s.setTask t { k with call := none, last := some r } with conn := c }
  | (c, .yields m rest) =>
    { s.setTask t { k with call := none, generator := some rest } with
      conn := c, yielded := s.yielded ++ [(t, m)] }

/-- May the suspended call of task `k` be resumed with `w`?  `CancelledError` needs a pending
cancellation, and the result of an awaited task is that task's result. -/
def Sys.admits (s : Sys S) (k : Task S) (pc : Pc S) (w : Wake S) : Bool :=
  match pc.awaited, w with
  | some o, .done => (s.tasks o).outcome == some .returned
  | some o, .raised e => (s.tasks o).outcome == some (.raised e)
  | some o, .cancelled => (s.tasks o).outcome == some .cancelled || k.cancelling
  | some _, .frame _ => false
  | none, .cancelled => k.cancelling
  | none, _ => true

/-- Where a `cancel()` on task `t` arrives: it is forwarded along awaited, unfinished tasks. -/
def Sys.cancelTarget (s : Sys S) : Nat → TaskId → Option TaskId
  | 0, _ => none
  | depth + 1, t =>
    match (s.tasks t).call.bind Pc.awaited with
    | some o => if s.isDone o then some t else s.cancelTarget depth o
    | none => some t

/-- May the task end with `o`? -/
def Task.mayExit (k : Task S) : Outcome → Bool
  | .returned => true
  | .raised e => k.last == some (.raised e)
  | .cancelled => k.cancelling || k.last == some .cancelled

/-- One step of the system. -/
def step (s : Sys S) : Label S → Option (Sys S)
  | .call t op =>
    let k := s.tasks t
    if k.outcome = none ∧ k.call.isNone then
      some (s.settle t k (enter cfg s.isDone s.conn t op))
    else none
  | .next t =>
    let k := s.tasks t
    if k.outcome = none ∧ k.call.isNone then
      match k.generator with
      | some ms => some (s.settle t { k with generator := none } (yieldMessages cfg s.isDone s.conn t ms))
      | none => none
    else none
  | .resume t w =>
    let k := s.tasks t
    match k.call with
    | some pc =>
      if s.admits k pc w then
        match advance cfg s.isDone s.conn t pc w with
        | some r => some (s.settle t { k with cancelling := false } r)
        | none => none
      else none
    | none => none
  | .cancel t depth =>
    if s.isDone t then none
    else
      match s.cancelTarget depth t with
      | some u => some (s.setTask u { s.tasks u with cancelling := true })
      | none => none
  | .exit t o =>
    let k := s.tasks t
    if k.outcome = none ∧ k.call.isNone ∧ k.mayExit o then
      some (s.setTask t { k with generator := none, outcome := some o })
    else none

/-! ## The connector of the repository's concurrency tests -/

/-- `ConcurrencyTestConnector`: it subscribes to nothing and passes every frame on. -/
def concurrencyTestConnector : Subclass where
  Inst := Unit
  Coro := Empty
  Payload := Empty
  Frame := String
  Parsed := String
  Msg := String
  Own := Empty
  sendSubscriptionMessage i _ := (i, .returned)
  own _ _ o := nomatch o
  resumeSend _ _ k _ := nomatch k
  parseMessage i f := (i, .ok (some f))
  convertToMarketDataMessages i d := (i, .ok [d])

/-- The tests' configuration. -/
def testConfig : ExchangeConfig asciiTable where
  exchangeName := "test_exchange"
  websocketUrl := "wss://test.example.com/ws"
  restApiUrl := "https://test.example.com"
  subscribedMarkets := ["TEST-MARKET"]
  pingIntervalSeconds := 60
  maxReconnectAttempts := 3
  exponentialBackoffMaxSeconds := 10
  markets_ne := by decide
  markets_upper := by decide
  ping_ge := .refl
  backoff_ge := by decide

end FlinkPractices.Connector
