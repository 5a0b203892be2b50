import Layad.Json

namespace Layad

/-!
# Errors and lifecycle states

`WorkerError`, what the API layer is told; `StartError`, why the initial load did not
complete; `State`, the lifecycle `/readyz` reports.  Durations are milliseconds.
-/

/-- `Duration::as_secs`. -/
def asSecs (d : Nat) : Nat := d / 1000

/-- Errors surfaced to the API layer. -/
inductive WorkerError where
  | unavailable (detail : String)
  | startupTimeout (d : Nat)
  | startupFailed (detail : String)
  | inferenceTimeout (d : Nat)
  | workerFailed (detail : String)
  | invalidRequest (detail : String)
  | oversizedResponse (bytes : Nat)
  | shuttingDown
  | overloaded
  deriving DecidableEq, Repr

namespace WorkerError

/-- Stable machine-readable code used in JSON error bodies. -/
def kind : WorkerError → String
  | .unavailable _ | .shuttingDown => "unavailable"
  | .startupTimeout _ | .startupFailed _ => "startup_failed"
  | .inferenceTimeout _ => "inference_timeout"
  | .workerFailed _ => "worker_failed"
  | .invalidRequest _ => "invalid_request"
  | .oversizedResponse _ => "oversized_response"
  | .overloaded => "overloaded"

/-- What an error says of itself. -/
def message : WorkerError → String
  | .unavailable d => s!"worker unavailable: {d}"
  | .startupTimeout d => s!"worker did not finish loading the model within {asSecs d}s"
  | .startupFailed d => s!"worker failed to start: {d}"
  | .inferenceTimeout d => s!"inference exceeded the {asSecs d}s deadline"
  | .workerFailed d => s!"worker failed: {d}"
  | .invalidRequest d => d
  | .oversizedResponse n => s!"worker response exceeded {n} bytes"
  | .shuttingDown => "daemon is shutting down"
  | .overloaded => "too many predictions in flight, retry shortly"

/-- Whether the failure means the resident worker is no longer trustworthy. -/
def invalidatesWorker : WorkerError → Bool
  | .startupTimeout _ | .startupFailed _ | .inferenceTimeout _ | .workerFailed _
  | .oversizedResponse _ => true
  | _ => false

end WorkerError

/-- Why the initial model load did not complete. -/
inductive StartError where
  | timeout (d : Nat)
  | failed (detail : String)
  deriving DecidableEq, Repr

/-- What a failed start comes to for a caller. -/
def StartError.intoWorkerError : StartError → WorkerError
  | .timeout d => .startupTimeout d
  | .failed d => .startupFailed d

/-- Lifecycle of the resident worker. -/
inductive State where
  | starting
  | pending (reason : String)
  | ready
  | failed (reason : String)
  | shuttingDown
  deriving DecidableEq, Repr

namespace State

/-- `matches!(state, State::Starting | State::Pending(_))`. -/
def isStarting : State → Bool
  | .starting | .pending _ => true
  | _ => false

/-- `matches!(state, State::Failed(_) | State::ShuttingDown)`: the worker is given up. -/
def isClosed : State → Bool
  | .failed _ | .shuttingDown => true
  | _ => false

end State

end Layad
