import Layad.Library.Transition
import Layad.Worker.Session

namespace Layad

open Channel Transition

/-!
# The handle and its callers

`WorkerHandle::spawn` starts the supervisor task and returns a handle and a readiness
future; any number of calls then run against the handle.  A call is an automaton like the
supervisor's: `Call.step` gives its next point and its one operation on the shared state.
Every future may be dropped where it awaits (`cancel`).

`Sys` is the shared state, the supervisor and all calls; `handle` is the machine whose
steps interleave them with the clock and with the worker's death.  Call `0` is the
readiness future.
-/

/-- Stages of `kill_now`. -/
inductive KillPc where
  | readPid
  | notifyStop
  | awaitDone (deadline : Nat)
  | over
  deriving DecidableEq, Repr

/-- Stages of `shutdown`. -/
inductive ShutPc where
  | setState
  | wake
  | awaitDone (deadline : Nat)
  | killing (pc : KillPc)
  | leaving
  | over
  deriving DecidableEq, Repr

/-- Stages of `predict`; without an answer the future was dropped. -/
inductive PredictPc where
  | checking
  | sending
  | awaiting
  | leaving (answer : Option Answer)
  | over (answer : Option Answer)

/-- Stages of the readiness future; without an error or a result it was dropped. -/
inductive StartPc where
  | created
  | waiting (deadline : Nat)
  | stopping (err : Option StartError) (pc : ShutPc)
  | over (result : Option (Except StartError Unit))

/-- A call against the handle. -/
inductive Call where
  | idle
  | readiness (pc : StartPc)
  | predict (params : Json) (pc : PredictPc)
  | shutdown (grace : Nat) (pc : ShutPc)
  | killNow (pc : KillPc)
  | markFailed (reason : String) (stage : Option MarkPc)

/-- The calls the API offers. -/
inductive Request where
  | predict (params : Json)
  | shutdown (grace : Nat)
  | killNow
  | markFailed (reason : String)

/-- Events of a call. -/
inductive CallEv where
  | begin (request : Request)
  | go
  /-- The `done` notification arrives. -/
  | notified
  /-- The call's own timeout is over. -/
  | elapsed
  /-- A send without waiting finds no free place: one may be kept for a sender that waits. -/
  | full
  /-- The future is dropped. -/
  | cancel

namespace Call

/-- `kill_now`. -/
def killStep (cx : Ctx) (sh : Shared) : KillPc → CallEv → Option (KillPc × Eff)
  -- without a pid there is nothing to kill
  | .readPid, .go => some (if sh.pid.isSome then .notifyStop else .over, .skip)
  | .notifyStop, .go =>
    some (.awaitDone (sh.now + cx.config.shutdownTimeout), .notifyForceStop)
  -- only the supervisor signals the child: the call waits for it
  | .awaitDone _, .notified => if sh.done then some (.over, .takeDone) else none
  | .awaitDone deadline, .elapsed => if deadline ≤ sh.now then some (.over, .skip) else none
  | .readPid, .cancel | .awaitDone _, .cancel => some (.over, .skip)
  | _, _ => none

/-- `shutdown`, whose wake-up job goes by the reply channel `key`. -/
def shutdownStep (cx : Ctx) (sh : Shared) (key grace : Nat) :
    ShutPc → CallEv → Option (ShutPc × Eff)
  | .setState, .go => some (.wake, .setState .shuttingDown)
  -- `try_send`: without room there is no wake-up job
  | .wake, .go =>
    some (.awaitDone (sh.now + grace),
      if sh.jobs.hasRoom jobCapacity then .push ⟨.null, key⟩ else .skip)
  | .wake, .full => some (.awaitDone (sh.now + grace), .skip)
  | .awaitDone _, .notified => if sh.done then some (.leaving, .takeDone) else none
  | .awaitDone deadline, .elapsed =>
    if deadline ≤ sh.now then some (.killing .readPid, .skip) else none
  -- the grace is over
  | .killing pc, ev =>
    (killStep cx sh pc ev).map fun (pc, eff) =>
      (match pc with
        | .over => .leaving
        | pc => .killing pc, eff)
  | .setState, .cancel | .awaitDone _, .cancel => some (.leaving, .skip)
  -- the receiver of the wake-up job lives as long as the call
  | .leaving, .go => some (.over, .closeReply key)
  | _, _ => none

/-- What `predict` answers when the state is not `Ready`. -/
def refusal : State → Option WorkerError
  | .ready => none
  | .shuttingDown => some .shuttingDown
  | .failed reason => some (.unavailable reason)
  | .starting => some (.unavailable "worker is still loading")
  | .pending reason => some (.unavailable reason)

/-- `predict`, whose job goes by the reply channel `key`. -/
def predictStep (sh : Shared) (key : Nat) (params : Json) :
    PredictPc → CallEv → Option (PredictPc × Eff)
  | .checking, .go =>
    match refusal sh.state with
    | none => some (.sending, .skip)
    | some err => some (.leaving (some (.error err)), .skip)
  -- `send` waits while the channel is full
  | .sending, .go =>
    if sh.jobs.closed then some (.leaving (some (.error .shuttingDown)), .skip)
    else if sh.jobs.hasRoom jobCapacity then some (.awaiting, .push ⟨params, key⟩)
    else none
  | .awaiting, .go =>
    match (sh.replies key).slot with
    | .sent answer => some (.leaving (some answer), .skip)
    | .dropped => some (.leaving (some (.error .shuttingDown)), .skip)
    | .empty => none
  | .checking, .cancel | .sending, .cancel => some (.leaving none, .skip)
  -- a client that disconnects drops the receiver
  | .awaiting, .cancel => some (.leaving none, .closeReply key)
  -- the permit goes last
  | .leaving answer, .go => some (.over answer, .release)
  | _, _ => none

/-- The readiness future. -/
def readinessStep (cx : Ctx) (sh : Shared) (key : Nat) :
    StartPc → CallEv → Option (StartPc × Eff)
  | .created, .go => some (.waiting (sh.now + cx.config.startupTimeout), .skip)
  | .waiting _, .go =>
    match sh.ready.slot with
    | .sent (.ok _) => some (.over (some (.ok ())), .skip)
    | .sent (.error err) => some (.stopping (some err) .setState, .skip)
    | .dropped =>
      some (.stopping
        (some (.failed "worker supervision task ended before readiness")) .setState, .skip)
    | .empty => none
  -- the receiver goes with the future that has timed out
  | .waiting deadline, .elapsed =>
    if deadline ≤ sh.now then
      some (.stopping (some (.timeout cx.config.startupTimeout)) .setState, .closeReady)
    else none
  | .created, .cancel | .waiting _, .cancel => some (.over none, .closeReady)
  -- the worker is stopped before the error is returned
  | .stopping err pc, ev =>
    (shutdownStep cx sh key cx.config.shutdownTimeout pc ev).map fun (pc, eff) =>
      (match pc, ev with
        | .over, _ => .over (err.map .error)
        | pc, .cancel => .stopping none pc
        | pc, _ => .stopping err pc, eff)
  | _, _ => none

/-- `mark_failed`. -/
def markStep (sh : Shared) (reason : String) :
    MarkPc → CallEv → Option (Option MarkPc × Eff)
  -- a shutdown is not overwritten
  | .state, .go =>
    some (some .info, if sh.state = .shuttingDown then .skip else .setState (.failed reason))
  | .info, .go => some (some .pid, .setInfo none)
  | .pid, .go => some (some .fatal, .setPid none)
  | .fatal, .go => some (none, .sendFatal reason)
  -- each lock is a place to be dropped at
  | .state, .cancel | .info, .cancel | .pid, .cancel => some (none, .skip)
  | _, _ => none

/-- A call begins; a prediction takes its admission permit at once. -/
def start (sh : Shared) : Request → Call × Eff
  | .predict params =>
    -- `try_acquire_owned` does not wait
    if 0 < sh.admission then (.predict params .checking, .acquire)
    else (.predict params (.over (some (.error .overloaded))), .skip)
  | .shutdown grace => (.shutdown grace .setState, .skip)
  | .killNow => (.killNow .readPid, .skip)
  | .markFailed reason => (.markFailed reason (some .state), .skip)

/-- One step of the call that goes by `key`. -/
def step (cx : Ctx) (sh : Shared) (key : Nat) (c : Call) (ev : CallEv) : Option (Call × Eff) :=
  match c, ev with
  | .idle, .begin request => some (start sh request)
  | .readiness pc, ev => (readinessStep cx sh key pc ev).map fun (pc, eff) => (.readiness pc, eff)
  | .predict params pc, ev =>
    (predictStep sh key params pc ev).map fun (pc, eff) => (.predict params pc, eff)
  | .shutdown grace pc, ev =>
    (shutdownStep cx sh key grace pc ev).map fun (pc, eff) => (.shutdown grace pc, eff)
  | .killNow pc, ev => (killStep cx sh pc ev).map fun (pc, eff) => (.killNow pc, eff)
  | .markFailed reason (some stage), ev =>
    (markStep sh reason stage ev).map fun (stage, eff) => (.markFailed reason stage, eff)
  | _, _ => none

end Call

/-- The handle, its supervisor task and all calls. -/
structure Sys where
  sh : Shared
  sup : Sup
  calls : Nat → Call

/-- What happens next. -/
inductive Label where
  | sup (ev : SupEv)
  | call (key : Nat) (ev : CallEv)
  /-- Time passes. -/
  | tick (d : Nat)
  /-- The worker process ends. -/
  | exit (status : String)

namespace Sys

/-- `WorkerHandle::spawn`. -/
def init (cx : Ctx) : Sys where
  sh := {
    now := 0
    state := .starting
    info := none
    pid := none
    admission := cx.config.maxConcurrent
    jobs := {}
    replies := fun _ => {}
    ready := {}
    forceStop := false
    done := false
    fatal := []
    child := .absent
    stdin := []
    spawned := []
    signals := [] }
  sup := Sup.init
  calls := fun i => if i = 0 then .readiness .created else .idle

/-- One step of the system. -/
def step (cx : Ctx) (s : Sys) : Label → Option Sys
  | .sup ev =>
    (s.sup.step cx s.sh ev).map fun (sup, eff) => { s with sup, sh := s.sh.apply eff }
  | .call key ev =>
    ((s.calls key).step cx s.sh key ev).map fun (c, eff) =>
      { s with calls := Function.update s.calls key c, sh := s.sh.apply eff }
  | .tick d => some { s with sh := { s.sh with now := s.sh.now + d } }
  | .exit status => some { s with sh := { s.sh with child := s.sh.child.exit status } }

end Sys

/-- The handle as a machine. -/
def handle (cx : Ctx) : Machine Sys Label where
  init := Sys.init cx
  step := Sys.step cx

end Layad
