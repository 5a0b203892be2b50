import Layad.Python.Main
import Layad.Worker.Reading

namespace Layad

open Channel Transition

/-!
# The daemon and its worker

The handle of the daemon and the process of `worker.py` as one machine: each takes its own
steps, and all they share are the two pipes between them, the signals, and what the system
knows of the process.  A prediction begins with the body of a request.

The daemon steps as in `Layad.handle`, except that what it reads is what the worker has
written.  The worker steps as in `worker.py`: it starts, reads a line once the line is
complete, handles it, and writes its frame in pieces.  It may die at any time, and what it
has not written is lost.
-/

/-- The daemon, the worker, and the libraries of both. -/
structure World (σ : Type) where
  cx : Ctx
  py : PyHost
  runtime : Runtime
  args : Args
  agent : Agent σ
  startup : Startup σ

/-- What the worker is doing. -/
inductive Phase (σ : Type) where
  | loading
  | serving (agent : σ)
  /-- `main` has returned or raised; the agent, if it came to serve. -/
  | over (agent : Option σ)

/-- The agent, once it serves. -/
def Phase.agent {σ : Type} : Phase σ → Option σ
  | .loading => none
  | .serving s => some s
  | .over agent => agent

/-- `main` has returned or raised. -/
def Phase.isOver {σ : Type} : Phase σ → Bool
  | .over _ => true
  | _ => false

/-- The process of the worker: the bytes of its last frame still to be written, and those that
    lie in the pipe.  `lines` and `frames` are histories: the lines read and the frames
    emitted. -/
structure Proc (σ : Type) where
  phase : Phase σ
  pending : List UInt8
  out : List UInt8
  lines : List (List UInt8)
  frames : List PyVal

/-- Events of the worker. -/
inductive WorkerEv where
  /-- `main`, up to the loop of `serve`. -/
  | start
  /-- A complete line is read and handled. -/
  | line
  /-- The end of the input: what is left of it is the last line. -/
  | eof
  /-- The pipe takes this many bytes of the frame. -/
  | write (n : Nat)
  /-- The pipe has no reader any more. -/
  | brokenPipe

/-- Where a line of the input ends, with universal newlines. -/
def endsLine (b : UInt8) : Bool := b = newline || b = carriageReturn

/-- The first complete line of the input. -/
def nextLine (input : List UInt8) : Option (List UInt8) :=
  (input.findIdx? endsLine).map fun i => input.take (i + 1)

namespace Proc

variable {σ : Type}

/-- The process when it is spawned. -/
def init : Proc σ where
  phase := .loading
  pending := []
  out := []
  lines := []
  frames := []

/-- What the lines read leave of the input. -/
def unread (p : Proc σ) (input : List UInt8) : List UInt8 := input.drop p.lines.flatten.length

/-- `emit` a frame and go on, or raise if it cannot be written. -/
def emit (w : World σ) (p : Proc σ) (frame : PyVal) (phase : Phase σ) : Proc σ :=
  match Worker.emit w.py frame with
  | some bytes => { p with phase, pending := p.pending ++ bytes, frames := p.frames ++ [frame] }
  | none => { p with phase := .over phase.agent }

/-- One pass of the loop of `serve`, on the bytes of a line. -/
def serve (w : World σ) (p : Proc σ) (s : σ) (bytes : List UInt8) : Proc σ :=
  let p := { p with lines := p.lines ++ [bytes] }
  match PyStr.decode bytes with
  -- a line that is no UTF-8 raises where it is read
  | none => { p with phase := .over (some s) }
  | some raw =>
    match Worker.serveLine w.py w.agent s raw with
    | .skip s => { p with phase := .serving s }
    | .answer frame s => p.emit w frame (.serving s)
    | .last frame s => p.emit w frame (.over (some s))
    | .shutdown s | .raised s => { p with phase := .over (some s) }

/-- One step of the worker with process id `pid`, on what was written to its input so far;
    `closed` says that the daemon has let go of the pipes. -/
def step (w : World σ) (pid : Nat) (input : List UInt8) (closed : Bool) (p : Proc σ) :
    WorkerEv → Option (Proc σ)
  | .start =>
    match p.phase with
    | .loading =>
      match Worker.main { w.runtime with pid } w.args w.agent w.startup with
      | .ready frame s => some (p.emit w frame (.serving s))
      | .failed frame => some (p.emit w frame (.over none))
    | _ => none
  | .line =>
    -- the next line is read once the last frame is written
    match p.phase, p.pending, nextLine (p.unread input) with
    | .serving s, [], some bytes => some (p.serve w s bytes)
    | _, _, _ => none
  | .eof =>
    match p.phase, p.pending, closed && (nextLine (p.unread input)).isNone with
    | .serving s, [], true =>
      -- a last line may lack its line feed
      if (p.unread input).isEmpty then some { p with phase := .over (some s) }
      else some (p.serve w s (p.unread input))
    | _, _, _ => none
  | .write n =>
    if 0 < n ∧ n ≤ p.pending.length then
      some { p with pending := p.pending.drop n, out := p.out ++ p.pending.take n }
    else none
  | .brokenPipe =>
    if closed && !p.pending.isEmpty then
      some { p with phase := .over p.phase.agent, pending := [] }
    else none

end Proc

/-- The points of the supervisor after a session, which has dropped its end of the pipes. -/
def Pc.dropped : Pc → Bool
  | .publish _ | .startKill | .stopSettle | .terminate _ | .reaping .. | .escalate _
  | .reapingKilled .. | .stopPid | .stopInfo | .failSettle _ | .mark .. | .drain _
  | .drainReply .. | .closing | .notify | .finished => true
  | _ => false

/-- The session has let go of the pipes. -/
def Sup.released (p : Sup) : Bool := p.outcome.isSome && p.pc.dropped

/-- The handle and the worker. -/
structure Joint (σ : Type) where
  sys : Sys
  proc : Proc σ

/-- What happens next. -/
inductive Move where
  /-- A step of the daemon other than the beginning of a prediction. -/
  | daemon (l : Label)
  /-- A request with this body arrives and begins call `key`. -/
  | predict (key : Nat) (body : List UInt8)
  | worker (ev : WorkerEv)

/-- The running process. -/
def Child.isRunning : Child → Bool
  | .running _ => true
  | _ => false

namespace Joint

variable {σ : Type}

/-- Nothing more comes from the worker: its process has ended, or its `main` is over and every
    frame of it is written. -/
def silent (j : Joint σ) : Bool :=
  !j.sys.sh.child.isRunning || (j.proc.phase.isOver && j.proc.pending.isEmpty)

/-- What the system can answer: from the pipe what the worker has written, its end once nothing
    more comes, and process ids of 32 bits. -/
def admits (j : Joint σ) : Label → Bool
  | .sup (.read (.pipe (.data bytes))) =>
    if bytes.isEmpty then j.proc.out.isEmpty && j.silent
    else bytes.isPrefixOf j.proc.out
  | .sup (.spawned pid) => 0 < pid && pid < 2 ^ 32
  | .call _ (.begin (.predict _)) => false
  | _ => true

/-- The bytes the daemon takes from the pipe. -/
def delivered : Label → List UInt8
  | .sup (.read source) => source.delivered
  | _ => []

/-- One step of the joint system. -/
def step (w : World σ) (j : Joint σ) : Move → Option (Joint σ)
  | .daemon l =>
    if j.admits l then
      (j.sys.step w.cx l).map fun sys =>
        { sys, proc := { j.proc with out := j.proc.out.drop (delivered l).length } }
    else none
  | .predict key body =>
    match predictImpl w.cx.config w.cx.host true (.ok body) with
    | .error _ => none
    | .ok (_, params) =>
      (j.sys.step w.cx (.call key (.begin (.predict params)))).map fun sys => { j with sys }
  | .worker ev =>
    match j.sys.sh.child with
    | .running pid =>
      (j.proc.step w pid j.sys.sh.stdin j.sys.sup.released ev).map fun proc => { j with proc }
    | _ => none

end Joint

/-- The joint system as a machine. -/
def joint {σ : Type} (w : World σ) : Machine (Joint σ) Move where
  init := ⟨Sys.init w.cx, Proc.init⟩
  step := Joint.step w

end Layad
