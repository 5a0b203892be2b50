import Layad.Joint.Machine
import Layad.RequestLanguage
import Layad.Worker.Conservation

namespace Layad

open Channel Transition

/-!
# The daemon process

`main` with the application state, the watcher of fatal faults and the HTTP handlers, over the
handle and its worker.  `main` binds, starts the worker, attaches it, serves until a signal or
the end of the server, and shuts the worker down; the watcher exits the process when the worker
is lost.  The process ends by the return of `main`, which drops every task, or by
`process::exit`, which drops nothing.

Of the calls against the handle, `0` is the readiness future, `1` the shutdown of `main` and
`2` the `kill_now` of the watcher; the others are predictions, each by the key of its HTTP
exchange.
-/

/-! ### The application state -/

/-- Readiness as seen by the HTTP layer. -/
inductive Readiness where
  | loading
  | ready
  | failed (reason : String)
  | stopping
  deriving DecidableEq, Repr

/-- `readiness_label`. -/
def readinessLabel : Readiness → String
  | .loading => "loading"
  | .ready => "ready"
  | .failed _ => "failed"
  | .stopping => "stopping"

/-- Shared application state; the worker, once attached, is the one handle. -/
structure AppState where
  readiness : Readiness
  attached : Bool

/-- Stable identity of the resident model process. -/
def WorkerInfo.identity (info : WorkerInfo) : String :=
  s!"{info.pid}:{info.device}:{info.checkpoint}"

/-- What `/readyz` says of a ready worker. -/
def readyBody (info : WorkerInfo) : Json :=
  .obj [("backend", .str info.backend), ("checkpoint", .str info.checkpoint),
    ("device", .str info.device), ("laya_version", .str info.layaVersion),
    ("model", .str info.model), ("ready", .bool true),
    ("requested_device", .str info.requestedDevice), ("warmup", .arr (info.warmup.map .str)),
    ("worker_identity", .str info.identity), ("worker_pid", .int info.pid)]

/-- The response of `readyz` to the state and the metadata of the worker, if there is one. -/
def readyzResponse (readiness : Readiness) : Option State → Option WorkerInfo → Response
  | some .ready, none =>
    ⟨503, .obj [("message", .str "worker metadata unavailable"), ("ready", .bool false),
      ("reason", .str "loading")]⟩
  | some .ready, some info => ⟨200, readyBody info⟩
  | none, _ | some .starting, _ =>
    ⟨503, .obj [("elapsed_state", .str (readinessLabel readiness)),
      ("message", .str "the resident model is still loading"), ("ready", .bool false),
      ("reason", .str "loading")]⟩
  | some state, _ =>
    let reason := match state with
      | .failed reason => reason
      | .shuttingDown => "daemon is shutting down"
      | .pending reason => reason
      | _ => "worker not ready"
    ⟨503, .obj [("message", .str reason), ("ready", .bool false),
      ("reason", .str "unavailable")]⟩

/-- The response of `models`, for the name of the checkpoint. -/
def modelsResponse (model : String) : Response :=
  ⟨200, .obj [("models", .arr [.obj [
    ("description", .str "the checkpoint resident in this layad daemon"),
    ("name", .str model), ("release_date", .str "")]])]⟩

/-! ### The tasks -/

/-- Exit code used when the daemon fails closed. -/
def failFastExitCode : Nat := 70

/-- Grace period between noticing a fatal worker fault and exiting, in milliseconds. -/
def failFastGrace : Nat := 250

/-- Stages of `main`.  Where it stops serving, `served` is what the server returned, and nothing
    after a signal. -/
inductive MainPc where
  | binding
  -- the select over the start of the worker and the signal
  | starting
  | startFailed (reason : String)
  | interrupted
  | awaitInterrupted
  -- AppState::attach, and the watcher is spawned
  | attaching
  | publishing
  | spawnWatch
  -- the select over the server and the signal
  | serving
  | abortWatch (served : Option Bool)
  | setStopping (served : Option Bool)
  | stopping (served : Option Bool)
  | awaitStop (served : Option Bool)
  | draining (deadline : Nat)
  | returning (code : Nat)
  deriving DecidableEq

/-- Stages of the watcher. -/
inductive WatchPc where
  | unborn
  | taking
  | receiving
  | reporting (reason : String)
  | killing
  | awaitKill
  | over
  deriving DecidableEq

/-- A request to the router; the body is what the extractor returned, or the status it was
    rejected with. -/
inductive HttpRequest where
  | predict (jevShape : Bool) (body : Except Nat (List UInt8))
  | readyz
  | models
  | unknownPath
  | wrongMethod

/-- Stages of a handler. -/
inductive HttpPc where
  /-- `worker.predict` is awaited. -/
  | predicting (kinds : List (String × String))
  /-- `readyz` locks the state, then the metadata. -/
  | readState
  | readInfo (state : State)
  /-- `models` locks the metadata. -/
  | readModel
  | done (response : Response)

/-- A request and how far its handler is. -/
structure Exchange where
  request : HttpRequest
  pc : HttpPc

/-- The process.  `fuse` is when the scheduled exit is due; `exit` is the exit code;
    `onDrop` is the process that was killed because its `Child` was dropped with the tasks. -/
structure Daemon (σ : Type) where
  joint : Joint σ
  app : AppState
  main : MainPc
  watch : WatchPc
  watchAborted : Bool
  fuse : Option Nat
  http : Nat → Option Exchange
  exit : Option Nat
  onDrop : Option Nat

/-- Events of `main`. -/
inductive MainEv where
  /-- The operation can go only one way, or what is awaited has returned. -/
  | go
  | bindFailed
  /-- SIGINT or SIGTERM. -/
  | signal
  /-- The server returns, or fails. -/
  | serverEnded (ok : Bool)
  /-- The timeout is over. -/
  | elapsed

/-- Events of the watcher. -/
inductive WatchEv where
  | go
  /-- The abort takes effect where the watcher awaits. -/
  | abort

/-- What happens next. -/
inductive Action where
  /-- A step of the handle, of the worker or of a call under way. -/
  | joint (m : Move)
  | main (ev : MainEv)
  | watch (ev : WatchEv)
  /-- `process::exit`, once the scheduled exit is due. -/
  | fuse
  /-- A request arrives, as exchange `key`. -/
  | request (key : Nat) (request : HttpRequest)
  /-- The handler of exchange `key` goes on. -/
  | respond (key : Nat)

namespace Daemon

variable {σ : Type}

/-- The process when it starts. -/
def init (w : World σ) : Daemon σ where
  joint := (Layad.joint w).init
  app := ⟨.loading, false⟩
  main := .binding
  watch := .unborn
  watchAborted := false
  fuse := none
  http := fun _ => none
  exit := none
  onDrop := none

/-- The handle. -/
def sys (d : Daemon σ) : Sys := d.joint.sys

/-- The key of the shutdown of `main`. -/
def shutdownKey : Nat := 1

/-- The key of the `kill_now` of the watcher. -/
def killKey : Nat := 2

/-- A step of the handle that neither begins a call nor drops one of `main` or the watcher. -/
def own : Label → Bool
  | .call _ (.begin _) => false
  | .call key .cancel => killKey < key
  | _ => true

/-- A step of the handle or the worker that needs nobody else to take it. -/
def inner : Move → Bool
  | .daemon l => own l
  | .predict .. => false
  | .worker _ => true

/-- A step below. -/
def lower (w : World σ) (d : Daemon σ) (m : Move) : Option (Daemon σ) :=
  (d.joint.step w m).map fun joint => { d with joint }

/-- What the call has returned, if it is over. -/
def isOver : Call → Bool
  | .readiness (.over _) | .predict _ (.over _) | .shutdown _ .over | .killNow .over => true
  | _ => false

/-- How `main` goes on when the readiness future has returned. -/
def afterStart : Call → Option MainPc
  | .readiness (.over (some (.ok ()))) => some .attaching
  | .readiness (.over (some (.error (.timeout _)))) => some (.startFailed "model load timed out")
  | .readiness (.over (some (.error (.failed detail)))) => some (.startFailed detail)
  | _ => none

/-- The process that is killed when the tasks are dropped: the supervisor has its `Child`. -/
def dropped (sys : Sys) : Option Nat := if sys.sup.pc.gone then none else sys.sh.child.id

/-- One step of `main`. -/
def mainStep (w : World σ) (d : Daemon σ) (ev : MainEv) : Option (Daemon σ) :=
  match d.main, ev with
  | .binding, .go => some { d with main := .starting }
  | .binding, .bindFailed => some { d with exit := some failFastExitCode }
  | .starting, .go => (afterStart (d.sys.calls 0)).map fun main => { d with main }
  -- the readiness future is dropped where it awaits
  | .starting, .signal =>
    if isOver (d.sys.calls 0) then some { d with main := .interrupted }
    else (d.lower w (.daemon (.call 0 .cancel))).map fun d => { d with main := .interrupted }
  | .startFailed reason, .go =>
    some { d with
      app := { d.app with readiness := .failed reason }
      main := .returning failFastExitCode }
  | .interrupted, .go =>
    (d.lower w (.daemon (.call shutdownKey (.begin (.shutdown w.cx.config.shutdownTimeout))))).map
      fun d => { d with main := .awaitInterrupted }
  | .awaitInterrupted, .go =>
    if isOver (d.sys.calls shutdownKey) then some { d with main := .returning 0 } else none
  | .attaching, .go =>
    some { d with
      app := { d.app with attached := true }
      main := .publishing }
  | .publishing, .go =>
    some { d with
      app := { d.app with readiness := .ready }
      main := .spawnWatch }
  | .spawnWatch, .go => some { d with watch := .taking, main := .serving }
  | .serving, .signal => some { d with main := .abortWatch none }
  | .serving, .serverEnded ok => some { d with main := .abortWatch (some ok) }
  | .abortWatch served, .go => some { d with watchAborted := true, main := .setStopping served }
  | .setStopping served, .go =>
    some { d with
      app := { d.app with readiness := .stopping }
      main := .stopping served }
  | .stopping served, .go =>
    (d.lower w (.daemon (.call shutdownKey (.begin (.shutdown w.cx.config.shutdownTimeout))))).map
      fun d => { d with main := .awaitStop served }
  | .awaitStop served, .go =>
    if isOver (d.sys.calls shutdownKey) then
      some { d with
        main := match served with
          | some true => .returning 0
          | some false => .returning failFastExitCode
          -- a client that never finishes its body must not block the exit
          | none => .draining (d.sys.sh.now + w.cx.config.shutdownTimeout) }
    else none
  | .draining _, .serverEnded _ => some { d with main := .returning 0 }
  | .draining deadline, .elapsed =>
    if deadline ≤ d.sys.sh.now then some { d with main := .returning 0 } else none
  | .returning code, .go => some { d with exit := some code, onDrop := dropped d.sys }
  | _, _ => none

/-- One step of the watcher. -/
def watchStep (w : World σ) (d : Daemon σ) (ev : WatchEv) : Option (Daemon σ) :=
  match d.watch, ev with
  | .taking, .go => some { d with watch := .receiving }
  | .receiving, .go =>
    match d.sys.sh.fatal with
    | reason :: _ => some { d with watch := .reporting reason }
    | [] => none
  | .reporting reason, .go =>
    some { d with
      app := { d.app with readiness := .failed reason }
      watch := if w.cx.config.failFast then .killing else .over }
  | .killing, .go =>
    (d.lower w (.daemon (.call killKey (.begin .killNow)))).map fun d =>
      { d with watch := .awaitKill }
  | .awaitKill, .go =>
    if isOver (d.sys.calls killKey) then
      some { d with watch := .over, fuse := some (d.sys.sh.now + failFastGrace) }
    else none
  | .taking, .abort | .receiving, .abort =>
    if d.watchAborted then some { d with watch := .over } else none
  | .awaitKill, .abort =>
    if !d.watchAborted then none
    else if isOver (d.sys.calls killKey) then some { d with watch := .over }
    else (d.lower w (.daemon (.call killKey .cancel))).map fun d => { d with watch := .over }
  | _, _ => none

/-- The exchange `key` is at this stage. -/
def exchange (d : Daemon σ) (key : Nat) (request : HttpRequest) (pc : HttpPc) : Daemon σ :=
  { d with http := Function.update d.http key (some ⟨request, pc⟩) }

/-- A request arrives; its handler runs to where it first awaits. -/
def arrive (w : World σ) (d : Daemon σ) (key : Nat) (request : HttpRequest) :
    Option (Daemon σ) :=
  match request with
  | .predict _ body =>
    match predictImpl w.cx.config w.cx.host d.app.attached body with
    | .error err => some (d.exchange key request (.done (errorResponse err)))
    | .ok (kinds, _) =>
      (body.toOption.bind fun bytes => d.lower w (.predict key bytes)).map fun d =>
        d.exchange key request (.predicting kinds)
  | .readyz =>
    some (d.exchange key request
      (if d.app.attached then .readState else .done (readyzResponse d.app.readiness none none)))
  | .models =>
    some (d.exchange key request
      (if d.app.attached then .readModel else .done (modelsResponse w.cx.config.model)))
  | .unknownPath =>
    some (d.exchange key request (.done (errorResponse ⟨404, "not_found", "unknown path"⟩)))
  | .wrongMethod =>
    some (d.exchange key request
      (.done (errorResponse ⟨405, "method_not_allowed", "wrong method"⟩)))

/-- What the prediction has returned, once it is over. -/
def returned : Call → Option Answer
  | .predict _ (.over answer) => answer
  | _ => none

/-- The handler of an exchange goes on from where it awaits. -/
def handlerStep (w : World σ) (d : Daemon σ) (key : Nat) (e : Exchange) : Option HttpPc :=
  match e.pc, e.request with
  | .predicting kinds, .predict jevShape _ =>
    (returned (d.sys.calls key)).map fun answer =>
      .done (answerResponse w.cx.config jevShape kinds answer)
  | .readState, _ => some (.readInfo d.sys.sh.state)
  | .readInfo state, _ =>
    some (.done (readyzResponse d.app.readiness (some state) d.sys.sh.info))
  | .readModel, _ =>
    some (.done (modelsResponse ((d.sys.sh.info.map WorkerInfo.model).getD w.cx.config.model)))
  | _, _ => none

/-- One step of the process. -/
def step (w : World σ) (d : Daemon σ) (a : Action) : Option (Daemon σ) :=
  if d.exit.isSome then none
  else
    match a with
    | .joint m => if d.main ≠ .binding ∧ inner m then d.lower w m else none
    | .main ev => d.mainStep w ev
    | .watch ev => d.watchStep w ev
    | .fuse =>
      if d.fuse.any (· ≤ d.sys.sh.now) then some { d with exit := some failFastExitCode } else none
    | .request key request =>
      if d.main ≠ .binding ∧ killKey < key ∧ (d.http key).isNone then d.arrive w key request
      else none
    | .respond key =>
      match d.http key with
      | some e => (d.handlerStep w key e).map fun pc => d.exchange key e.request pc
      | none => none

end Daemon

/-- The daemon process as a machine. -/
def daemon {σ : Type} (w : World σ) : Machine (Daemon σ) Action where
  init := Daemon.init w
  step := Daemon.step w

end Layad
