import FlinkPractices.Exceptions

/-!
# Connection states (`domain/models/connection_state.py`)

The state enumeration, the transition table and its validation.

* `getValidTransitions` — the row of the table for one state
* `isValidTransition` — the table, and staying, which is always allowed
* `validateTransition` — what every state change of a connector goes through: it raises
  `InvalidTransitionError` with the text of the source

Principal results:

* `validateTransition_ok` — validation passes exactly on the diagonal and the table
* `isValidTransition_connecting`, `isValidTransition_connected`, `isValidTransition_disconnected`,
  `isValidTransition_failed` — from where each state can be entered

The last four are how the other modules use the table.  Two of its rows matter to what follows: from
`CONNECTING` there is no way to `DISCONNECTED`, and from `FAILED` none to `CONNECTING`.
-/

set_option autoImplicit false

namespace FlinkPractices

inductive ConnectionState where
  | disconnected
  | connecting
  | connected
  | reconnecting
  | failed
  deriving DecidableEq, Repr

namespace ConnectionState

/-- `Enum.name`. -/
def name : ConnectionState → String
  | .disconnected => "DISCONNECTED"
  | .connecting => "CONNECTING"
  | .connected => "CONNECTED"
  | .reconnecting => "RECONNECTING"
  | .failed => "FAILED"

/-- `_get_valid_transitions`: the row of a state (a Python set, listed in the source's order). -/
def getValidTransitions : ConnectionState → List ConnectionState
  | .disconnected => [.connecting]
  | .connecting => [.connected, .failed]
  | .connected => [.disconnected, .reconnecting, .failed]
  | .reconnecting => [.connected, .failed, .disconnected]
  | .failed => [.disconnected]

/-- `is_valid_transition`: staying is always allowed. -/
def isValidTransition (self target : ConnectionState) : Bool :=
  if self = target then true else (getValidTransitions self).contains target

def invalidTransitionMessage (self target : ConnectionState) : String :=
  "Invalid state transition: " ++ self.name ++ " -> " ++ target.name ++
    ". Valid transitions from " ++ self.name ++ " are: " ++
    ", ".intercalate ((getValidTransitions self).map name)

/-- `validate_transition`. -/
def validateTransition (self target : ConnectionState) : Except PyExn Unit :=
  if self.isValidTransition target then .ok ()
  else .error (.invalidTransitionError (invalidTransitionMessage self target))

/-- Validation passes exactly on the diagonal and the table. -/
theorem validateTransition_ok {self target : ConnectionState} :
    self.validateTransition target = .ok () ↔
      self = target ∨ target ∈ self.getValidTransitions := by
  unfold validateTransition isValidTransition
  by_cases h : self = target
  · simp [h]
  · by_cases hm : target ∈ self.getValidTransitions <;> simp [h, hm]

/-- The only way into `CONNECTING` is from `DISCONNECTED`. -/
theorem isValidTransition_connecting (s : ConnectionState) :
    s.isValidTransition .connecting = true ↔ s = .disconnected ∨ s = .connecting := by
  cases s <;> decide

/-- The only ways into `CONNECTED` are from `CONNECTING` and `RECONNECTING`. -/
theorem isValidTransition_connected (s : ConnectionState) :
    s.isValidTransition .connected = true ↔
      s = .connecting ∨ s = .connected ∨ s = .reconnecting := by
  cases s <;> decide

/-- `DISCONNECTED` is reachable from every state except `CONNECTING`. -/
theorem isValidTransition_disconnected (s : ConnectionState) :
    s.isValidTransition .disconnected = true ↔ s ≠ .connecting := by
  cases s <;> decide

/-- `FAILED` is reachable from every state except `DISCONNECTED`. -/
theorem isValidTransition_failed (s : ConnectionState) :
    s.isValidTransition .failed = true ↔ s ≠ .disconnected := by
  cases s <;> decide

end ConnectionState

end FlinkPractices
