/-!
# Exceptions (`domain/exceptions.py` and the ones the code catches)

`PyExn` lists the exceptions that the modelled code raises, catches or tells apart, with the text
where the code itself writes one.  All of them are subclasses of `Exception`; `CancelledError`
is not, and is modelled by `Outcome.cancelled`, so that an `except Exception` cannot catch it.

The `except` clauses that name a class are predicates: `isParsingError`, `isConnectionFailedError`,
`isPublishException`.  None of the classes that are caught so has a subclass that is ever raised, so
a predicate is true of just the classes it names.

Exceptions of libraries whose text nothing reads carry none.  Those that Python itself raises in the
modelled code (`AttributeError`, `RecursionError`, `OverflowError`, …) are here because an
`except Exception` around them makes something else of them.

`Outcome` is how a coroutine call or a task ends: it returns, raises, or is cancelled.
-/

set_option autoImplicit false

namespace FlinkPractices

inductive PyExn where
  -- domain/exceptions.py
  | connectionException (message : String)
  | connectionFailedError (message : String)
  | connectionClosedError (message : String)
  | validationException (message : String)
  | invalidMessageError (message : String)
  | invalidConfigurationError (message : String)
  | invalidTransitionError (message : String)
  | publishException (message : String)
  -- websockets.exceptions.ConnectionClosed
  | connectionClosed
  -- builtins and third parties
  | osError
  | timeoutError
  | jsonDecodeError
  | runtimeError (message : String)
  | valueError (message : String)
  | typeError (message : String)
  | attributeError (message : String)
  | overflowError
  | bufferError
  | recursionError
  | kafkaException
  | other (name : String)
  deriving DecidableEq, Repr

/-- `except (json.JSONDecodeError, InvalidMessageError)`. -/
def PyExn.isParsingError : PyExn → Bool
  | .jsonDecodeError => true
  | .invalidMessageError _ => true
  | _ => false

/-- `except ConnectionFailedError`. -/
def PyExn.isConnectionFailedError : PyExn → Bool
  | .connectionFailedError _ => true
  | _ => false

/-- `except PublishException`. -/
def PyExn.isPublishException : PyExn → Bool
  | .publishException _ => true
  | _ => false

/-- How a coroutine call or a task ends. -/
inductive Outcome where
  | returned
  | raised (e : PyExn)
  | cancelled
  deriving DecidableEq, Repr

def Outcome.isRaised : Outcome → Bool
  | .raised _ => true
  | _ => false

end FlinkPractices
