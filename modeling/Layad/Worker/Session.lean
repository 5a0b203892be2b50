import Layad.Config
import Layad.Worker.Frame
import Layad.Worker.Shared
import Mathlib.Tactic.Simps.Basic

namespace Layad

open Channel

/-!
# The supervisor task

`supervise`, `run_session`, `run_session_inner` and `shutdown_child` as one automaton: a
program point (`Pc`) for every await, lock and channel operation, and the variables of the
session between them (`Sup`).  `Sup.step` gives the next point and the one operation on
the shared state (`Eff`) done on the way; what the code leaves open (which branch of a
`select!`, what a read returns, whether a deadline passed) is in the event.

`rx.recv()` never yields `None` here: the supervisor owns a sender itself.  `pending_job`
is never filled by the code and has no counterpart.
-/

/-- Configuration and library functions of one handle. -/
structure Ctx where
  config : Config
  host : Host

/-- How a session ends. -/
inductive Outcome where
  | restart (reason : String)
  | shutdown
  | kill
  deriving DecidableEq, Repr

/-- The reason of a restart. -/
@[simp]
def Outcome.reason : Outcome → Option String
  | .restart reason => some reason
  | _ => none

/-- What became of a complete line. -/
inductive Fate where
  | ready (info : WorkerInfo)
  | reply (id : String) (body : Reply)
  | ended

/-- A complete line read from the worker. -/
structure LineRead where
  text : String
  fate : Fate

/-- A predict frame whose write was begun at `time`; `wanted` says whether its caller was
    still there. -/
structure Dispatch where
  id : String
  job : Job
  wanted : Bool
  time : Nat

/-- The stages of `mark_failed`. -/
inductive MarkPc where
  | state
  | info
  | pid
  | fatal
  deriving DecidableEq, Repr

/-- Program points of the supervisor task. -/
inductive Pc where
  -- supervise, before the session
  | check
  | spawning
  | spawnFailed (err : String)
  | spawnSettle (err : String)
  | publishPid (pid : Nat)
  -- run_session_inner: the loop head
  | loopHead
  | loopState
  | settleReturn (err : StartError) (outcome : Outcome)
  -- run_session_inner: step 1
  | idle
  | readyState (info : WorkerInfo)
  | readyInfo (info : WorkerInfo)
  | readySettle (info : WorkerInfo)
  | dequeued (job : Job)
  | writing (id : String) (key : Nat) (out : List UInt8)
  -- run_session_inner: step 2
  | wait
  | pollState
  | answer (key : Nat) (answer : Answer) (next : Option Outcome)
  -- run_session_inner returns and drops its variables, then run_session publishes
  | returned (outcome : Outcome)
  | publish (outcome : Outcome)
  -- supervise, after the session; `reason` is there after a restart
  | startKill
  | stopSettle
  | terminate (reason : Option String)
  | reaping (reason : Option String) (deadline : Nat)
  | escalate (reason : Option String)
  | reapingKilled (reason : Option String) (deadline : Nat)
  | stopPid
  | stopInfo
  | failSettle (detail : String)
  | mark (detail : String) (stage : MarkPc)
  | drain (detail : String)
  | drainReply (key : Nat) (detail : String)
  | closing
  | notify
  | finished

/-- The reply channel whose sender is in a local variable at this point. -/
def Pc.held : Pc → List Nat
  | .dequeued job => [job.reply]
  | .writing _ key _ | .answer key _ _ | .drainReply key _ => [key]
  | _ => []

/-- Where `fill_buf` has its bytes from: what the reader still holds, or the pipe. -/
inductive Source where
  | buffered
  | pipe (fill : Fill)

/-- Events of the supervisor task: what the next operation finds. -/
inductive SupEv where
  /-- The operation can go only one way. -/
  | go
  | spawned (pid : Nat)
  | spawnFailed (err : String)
  /-- A job is received. -/
  | recv
  /-- `child.wait()` completes, or fails. -/
  | reap
  | waitFailed (err : String)
  /-- A read takes its next turn. -/
  | read (source : Source)
  /-- The idle sleep, or the poll interval, is over. -/
  | tick
  /-- The pipe takes this many bytes. -/
  | wrote (n : Nat)
  | writeFailed (err : String)
  | deadline
  /-- `run_session` sees the forced stop. -/
  | forceStop

/-- The variables of the supervisor task.  `outcome` is what the session decided to return;
    `frames` and `lines` are histories. -/
structure Sup where
  pc : Pc
  startupDeadline : Nat
  buf : List UInt8
  avail : List UInt8
  nextId : Nat
  inflight : Option (String × Nat)
  inferenceDeadline : Option Nat
  outcome : Option Outcome
  frames : List Dispatch
  lines : List LineRead

namespace Sup

/-- The supervisor task when it is spawned. -/
def init : Sup where
  pc := .check
  startupDeadline := 0
  buf := []
  avail := []
  nextId := 0
  inflight := none
  inferenceDeadline := none
  outcome := none
  frames := []
  lines := []

/-- Decide the session's outcome and go to `pc`, which is on the way out. -/
@[simps]
def leave (p : Sup) (outcome : Outcome) (pc : Pc) : Sup :=
  { p with pc, outcome := some outcome }

/-- `return outcome`. -/
@[simps!]
def ret (p : Sup) (outcome : Outcome) : Sup := p.leave outcome (.returned outcome)

/-- Settle the handshake if it is pending, then `return Restart(reason)`. -/
def settleRestart (p : Sup) (sh : Shared) (err : StartError) (reason : String) : Sup :=
  if sh.ready.isPending then p.leave (.restart reason) (.settleReturn err (.restart reason))
  else p.ret (.restart reason)

/-- Answer the request in flight, if there is one, and `return Restart(reason)`. -/
def failInflight (p : Sup) (err : WorkerError) (reason : String) : Sup :=
  match p.inflight with
  | some (_, key) =>
    { p.leave (.restart reason) (.answer key (.error err) (some (.restart reason))) with
      inflight := none }
  | none => p.ret (.restart reason)

/-- Record a complete line. -/
@[simps]
def saw (p : Sup) (text : String) (fate : Fate) : Sup :=
  { p with lines := p.lines ++ [⟨text, fate⟩] }

/-- One turn of `read_frame_buffered` over the bytes `fill_buf` returned. -/
def turn (cx : Ctx) (p : Sup) (available : List UInt8) :
    Sup × Option (Except String Frame) :=
  let t := readTurn cx.host cx.config.maxResponseBytes p.buf available
  ({ p with buf := t.buf, avail := t.avail }, t.result)

/-- `fill_buf`, which asks the pipe only when the reader holds nothing, and the turn. -/
def read (cx : Ctx) (p : Sup) : Source → Option (Sup × Option (Except String Frame))
  | .buffered => if p.avail.isEmpty then none else some (p.turn cx p.avail)
  | .pipe fill =>
    if p.avail.isEmpty then
      match fill with
      | .data bytes => some (p.turn cx bytes)
      | .interrupted => some (p, none)
      | .failed err => some (p, some (.error err))
    else none

/-- Step 1, a frame while idle: the ready frame, or the end of the session. -/
def onIdleFrame (cx : Ctx) (sh : Shared) (p : Sup) : Except String Frame → Sup
  | .ok (.line text) =>
    if !sh.ready.isPending then (p.saw text .ended).ret (.restart "unsolicited worker output")
    else
      match cx.host.fromStr text with
      | .error err => (p.saw text .ended).ret (.restart s!"worker sent invalid JSON: {err}")
      | .ok value =>
        if carriesId value then
          (p.saw text .ended).ret
            (.restart "worker replied although no request was outstanding")
        else
          match parseReady value with
          | .ok info => { p.saw text (.ready info) with pc := .readyState info }
          | .error err => (p.saw text .ended).ret (.restart err)
  | .ok .eof =>
    p.settleRestart sh (.failed "worker closed stdout (EOF)") "worker closed stdout (EOF)"
  | .ok (.oversized bytes) =>
    p.ret (.restart (s!"worker response exceeded {cx.config.maxResponseBytes} bytes " ++
      s!"(at least {bytes} bytes read)"))
  | .error err => p.ret (.restart s!"worker read error: {err}")

/-- Step 2, a reply line that is JSON, for the request `expected` of call `key`. -/
def onReply (cx : Ctx) (p : Sup) (text : String) (value : Json) (expected : String)
    (key : Nat) : Sup :=
  let p := { p with inflight := none }
  match parseReply cx.host value with
  | .error err =>
    (p.saw text .ended).leave (.restart err)
      (.answer key (.error (.workerFailed err)) (some (.restart err)))
  | .ok parsed =>
    if parsed.id ≠ expected then
      let reason := s!"worker response id {parsed.id} does not match request id {expected}"
      (p.saw text .ended).leave (.restart reason)
        (.answer key
          (.error (.workerFailed
            s!"response id {parsed.id} does not match request id {expected}"))
          (some (.restart reason)))
    else
      let p := p.saw text (.reply parsed.id parsed.body)
      match parsed.body with
      | .ok result => { p with pc := .answer key (.ok result) none }
      | .err body =>
        if body.fatal then
          let reason := "worker reported a fatal error"
          p.leave (.restart reason)
            (.answer key (.error body.toWorkerError) (some (.restart reason)))
        else { p with pc := .answer key (.error body.toWorkerError) none }

/-- Step 2, what is done with the frame that was waited for. -/
def onWaitFrame (cx : Ctx) (sh : Shared) (p : Sup) : Except String Frame → Sup
  | .ok (.line text) =>
    match cx.host.fromStr text with
    | .error err =>
      (p.saw text .ended).failInflight (.workerFailed s!"worker sent invalid JSON: {err}")
        s!"malformed worker frame: {err}"
    | .ok value =>
      if sh.ready.isPending && ((value.get "id").bind Json.asStr).isNone then
        match parseReady value with
        | .ok info => { p.saw text (.ready info) with pc := .readyState info }
        | .error err => (p.saw text .ended).ret (.restart err)
      else
        match p.inflight with
        | none =>
          (p.saw text .ended).ret
            (.restart "worker replied although no request was outstanding")
        | some (expected, key) => p.onReply cx text value expected key
  | .ok .eof =>
    p.failInflight (.workerFailed "worker closed its output stream") "worker closed stdout (EOF)"
  | .ok (.oversized bytes) =>
    p.failInflight (.oversizedResponse cx.config.maxResponseBytes)
      (s!"worker response exceeded {cx.config.maxResponseBytes} bytes " ++
        s!"(at least {bytes} bytes read)")
  | .error err =>
    p.failInflight (.workerFailed s!"worker read error: {err}") s!"worker read error: {err}"

/-- The frame a job is sent as. -/
def predictFrame (id : String) (params : Json) : Json :=
  .obj [("id", .str id), ("method", .str "predict"), ("params", params)]

/-- Step 1, a dequeued job that is sent: the write of its frame begins. -/
@[simps]
def dispatch (cx : Ctx) (sh : Shared) (p : Sup) (job : Job) : Sup :=
  let id := toString (p.nextId + 1)
  { p with
    pc := .writing id job.reply (writeFrame cx.host (predictFrame id job.params))
    nextId := p.nextId + 1
    inferenceDeadline := some (sh.now + cx.config.inferenceTimeout)
    frames := p.frames ++ [⟨id, job, !(sh.replies job.reply).closed, sh.now⟩] }

/-- The points of the session at which it awaits, and `run_session` can drop it. -/
def killable : Pc → Bool
  | .loopHead | .loopState | .idle | .readyState _ | .readyInfo _ | .dequeued _ | .writing ..
  | .wait | .pollState => true
  | _ => false

/-- The reply channels whose senders the task holds, in `inflight` or in a local variable. -/
def held (p : Sup) : List Nat := p.pc.held ++ (p.inflight.map Prod.snd).toList

/-- What `shutdown_child` reports decides how `supervise` goes on. -/
def afterReap (reason : Option String) (result : Except String String) : Pc :=
  match reason with
  | none => .stopPid
  | some _ =>
    .failSettle (match result with
      | .ok status => s!"worker {status}"
      | .error err => err)

/-- One step of the supervisor task. -/
def step (cx : Ctx) (sh : Shared) (p : Sup) (ev : SupEv) : Option (Sup × Eff) :=
  match p.pc, ev with
  -- supervise: the worker is started only from a fresh handle
  | .check, .go =>
    let startupDeadline := sh.now + cx.config.startupTimeout
    if sh.state.isStarting then some ({ p with pc := .spawning, startupDeadline }, .skip)
    else some ({ p with pc := .closing, startupDeadline }, .skip)
  | .spawning, .spawned pid => some ({ p with pc := .publishPid pid }, .spawn pid)
  | .spawning, .spawnFailed err => some ({ p with pc := .spawnFailed err }, .skip)
  | .spawnFailed err, .go =>
    some ({ p with pc := .spawnSettle err },
      .setState (.failed (StartError.failed err).intoWorkerError.message))
  | .spawnSettle err, .go => some ({ p with pc := .closing }, .settle (.error (.failed err)))
  | .publishPid pid, .go => some ({ p with pc := .loopHead }, .setPid (some pid))
  -- run_session_inner: the loop head
  | .loopHead, .go =>
    if sh.ready.isPending && sh.ready.closed then some (p.ret .shutdown, .skip)
    else some ({ p with pc := .loopState }, .skip)
  | .loopState, .go =>
    if sh.state = .shuttingDown then some (p.ret .shutdown, .skip)
    else if sh.ready.isPending && decide (p.startupDeadline ≤ sh.now) then
      let timeout := cx.config.startupTimeout
      let reason := s!"worker did not become ready within {asSecs timeout}s"
      some (p.leave (.restart reason) (.settleReturn (.timeout timeout) (.restart reason)), .skip)
    else if p.inflight.isNone then some ({ p with pc := .idle }, .skip)
    else some ({ p with pc := .wait }, .skip)
  | .settleReturn err outcome, .go => some (p.ret outcome, .settle (.error err))
  -- run_session_inner: step 1, the idle select
  | .idle, .recv =>
    match sh.jobs.buffer with
    | job :: _ => some ({ p with pc := .dequeued job }, .recv)
    | [] => none
  | .idle, .reap =>
    match sh.child.status with
    | some status =>
      let detail := s!"worker exited with {status}"
      some (p.settleRestart sh (.failed detail) detail, .reap)
    | none => none
  | .idle, .waitFailed err =>
    let detail := s!"cannot wait on worker: {err}"
    some (p.settleRestart sh (.failed detail) detail, .skip)
  | .idle, .tick => some ({ p with pc := .loopHead }, .skip)
  | .idle, .read source =>
    match p.read cx source with
    | none => none
    | some (p, none) => some (p, .skip)
    | some (p, some frame) => some (p.onIdleFrame cx sh frame, .skip)
  | .readyState info, .go => some ({ p with pc := .readyInfo info }, .setState .ready)
  | .readyInfo info, .go => some ({ p with pc := .readySettle info }, .setInfo (some info))
  | .readySettle info, .go => some ({ p with pc := .loopHead }, .settle (.ok info))
  -- run_session_inner: step 1, a job
  | .dequeued job, .go =>
    if sh.state = .shuttingDown then
      some (p.leave .shutdown (.answer job.reply (.error .shuttingDown) (some .shutdown)), .skip)
    else some (p.dispatch cx sh job, .skip)
  | .writing id key out, .wrote n =>
    if 0 < n ∧ n ≤ out.length then
      some ({ p with pc := .writing id key (out.drop n) }, .write (out.take n))
    else none
  | .writing id key [], .go => some ({ p with pc := .wait, inflight := some (id, key) }, .skip)
  | .writing _ key _, .writeFailed err =>
    let reason := s!"cannot write to worker: {err}"
    some (p.leave (.restart reason)
      (.answer key (.error (.workerFailed "worker write failed")) (some (.restart reason))), .skip)
  | .writing _ key _, .deadline =>
    if p.inferenceDeadline.any (· ≤ sh.now) then
      let reason := "worker input deadline exceeded"
      some (p.leave (.restart reason)
        (.answer key (.error (.inferenceTimeout cx.config.inferenceTimeout))
          (some (.restart reason))), .skip)
    else none
  -- run_session_inner: step 2
  | .wait, .read source =>
    match p.read cx source with
    | none => none
    | some (p, none) => some (p, .skip)
    | some (p, some frame) => some (p.onWaitFrame cx sh frame, .skip)
  | .wait, .tick =>
    if p.inferenceDeadline.isSome then some ({ p with pc := .pollState }, .skip) else none
  | .wait, .deadline =>
    if p.inferenceDeadline.any (· ≤ sh.now) then
      let timeout := cx.config.inferenceTimeout
      some (p.failInflight (.inferenceTimeout timeout)
        s!"worker did not answer within {asSecs timeout}s", .skip)
    else none
  | .pollState, .go =>
    if sh.state = .shuttingDown then some (p.ret .shutdown, .skip)
    else
      match p.inflight with
      | some (id, key) =>
        if (sh.replies key).closed then
          some (p.ret (.restart s!"request {id} was canceled by the caller"), .skip)
        else some ({ p with pc := .wait }, .skip)
      | none => some ({ p with pc := .wait }, .skip)
  | .answer key answer (some outcome), .go =>
    some ({ p with pc := .returned outcome }, .reply key answer)
  | .answer key answer none, .go => some ({ p with pc := .loopHead }, .reply key answer)
  -- run_session_inner is over: a request still in flight is dropped with the variables
  | .returned outcome, .go =>
    some ({ p with pc := .publish outcome, inflight := none },
      match p.inflight with
      | some (_, key) => .abandon key
      | none => .skip)
  -- run_session: a restart is published before it returns
  | .publish (.restart reason), .go =>
    some ({ p with pc := .terminate (some reason) },
      if sh.state.isClosed then .skip else .setState (.failed reason))
  | .publish .shutdown, .go => some ({ p with pc := .stopSettle }, .skip)
  | .publish .kill, .go => some ({ p with pc := .startKill }, .skip)
  -- supervise: a stop
  | .startKill, .go => some ({ p with pc := .stopSettle }, .signal .kill)
  | .stopSettle, .go =>
    some ({ p with pc := .terminate none }, .settle (.error (.failed "worker stopped")))
  | .stopPid, .go => some ({ p with pc := .stopInfo }, .setPid none)
  | .stopInfo, .go => some ({ p with pc := .closing }, .setInfo none)
  -- shutdown_child
  | .terminate reason, .go =>
    some ({ p with pc := .reaping reason (sh.now + cx.config.shutdownTimeout) }, .signal .term)
  | .reaping reason _, .reap =>
    match sh.child.status with
    | some status => some ({ p with pc := afterReap reason (.ok status) }, .reap)
    | none => none
  | .reaping reason _, .waitFailed err =>
    some ({ p with pc := afterReap reason (.error s!"cannot reap worker: {err}") }, .skip)
  | .reaping reason deadline, .deadline =>
    if deadline ≤ sh.now then some ({ p with pc := .escalate reason }, .skip) else none
  | .escalate reason, .go =>
    some ({ p with pc := .reapingKilled reason (sh.now + max cx.config.shutdownTimeout 200) },
      .signal .kill)
  | .reapingKilled reason _, .reap =>
    match sh.child.status with
    | some status => some ({ p with pc := afterReap reason (.ok status) }, .reap)
    | none => none
  | .reapingKilled reason _, .waitFailed err =>
    some ({ p with pc := afterReap reason (.error s!"cannot reap worker: {err}") }, .skip)
  | .reapingKilled reason deadline, .deadline =>
    if deadline ≤ sh.now then
      some ({ p with pc := afterReap reason (.error "worker did not exit after SIGKILL") }, .skip)
    else none
  -- supervise: a restart
  | .failSettle detail, .go =>
    some ({ p with pc := .mark detail .state },
      if sh.ready.isPending then .settle (.error (.failed detail)) else .skip)
  | .mark detail .state, .go =>
    some ({ p with pc := .mark detail .info },
      if sh.state = .shuttingDown then .skip else .setState (.failed detail))
  | .mark detail .info, .go => some ({ p with pc := .mark detail .pid }, .setInfo none)
  | .mark detail .pid, .go => some ({ p with pc := .mark detail .fatal }, .setPid none)
  | .mark detail .fatal, .go => some ({ p with pc := .drain detail }, .sendFatal detail)
  | .drain detail, .recv =>
    match sh.jobs.buffer with
    | job :: _ => some ({ p with pc := .drainReply job.reply detail }, .recv)
    | [] => none
  | .drain _, .go =>
    if sh.jobs.buffer.isEmpty then some ({ p with pc := .closing }, .skip) else none
  | .drainReply key detail, .go =>
    some ({ p with pc := .drain detail }, .reply key (.error (.workerFailed detail)))
  -- the end of the task
  | .closing, .go => some ({ p with pc := .notify }, .dropReceiver)
  | .notify, .go => some ({ p with pc := .finished }, .notifyDone)
  -- run_session: the forced stop drops the session where it awaits
  | pc, .forceStop =>
    if killable pc && sh.forceStop then
      some ({ p.leave .kill (.publish .kill) with inflight := none }, .kill p.held)
    else none
  | _, _ => none

variable {cx : Ctx} {sh : Shared} {p p' : Sup} {ev : SupEv}

/-- A read that yields a frame while idle. -/
theorem step_idle_read {source : Source} {p₁ : Sup} {frame : Except String Frame}
    (hpc : p.pc = .idle) (hr : p.read cx source = some (p₁, some frame)) :
    p.step cx sh (.read source) = some (p₁.onIdleFrame cx sh frame, .skip) := by
  simp only [Sup.step, hpc, hr]

/-- A read that yields a frame while a reply is waited for. -/
theorem step_wait_read {source : Source} {p₁ : Sup} {frame : Except String Frame}
    (hpc : p.pc = .wait) (hr : p.read cx source = some (p₁, some frame)) :
    p.step cx sh (.read source) = some (p₁.onWaitFrame cx sh frame, .skip) := by
  simp only [Sup.step, hpc, hr]

/-- The session is dropped only where a forced stop was asked for. -/
theorem step_kill {keys : List Nat} (h : p.step cx sh ev = some (p', .kill keys)) :
    sh.forceStop = true := by
  revert h
  fun_cases Sup.step cx sh p ev
  all_goals intro h
  all_goals simp only [Option.some.injEq, Prod.mk.injEq, reduceCtorEq, and_false] at h
  all_goals try simp_all
  -- an operation that depends on the state found
  all_goals
    obtain ⟨-, h⟩ := h
    split at h <;> cases h

end Sup

end Layad
