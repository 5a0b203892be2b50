import Layad.Library.Channel
import Layad.Worker.Protocol

namespace Layad

open Channel

/-!
# What the tasks share

`Shared` is everything more than one task can see: the fields of the handle's `Inner`,
the two kinds of reply channel, the child process and the clock.  A task acts on it one
lock, one channel operation or one system call at a time; `Eff` lists these operations and
`Shared.apply` carries one out.

The reply channel of a job is named by the call that waits on it (`Job.reply`), since a
call sends at most one job.  `spawned`, `signals`, `stdin`, `fatal` and the `accepted` part
of the job channel are histories.
-/

/-- What a caller is answered. -/
abbrev Answer := Except WorkerError Json

/-- One queued prediction, with the reply channel its outcome goes to. -/
structure Job where
  params : Json
  reply : Nat

/-- The signals the supervisor sends the child. -/
inductive Signal where
  | term
  | kill
  deriving DecidableEq, Repr

/-- The child process.  A reaped child keeps answering `wait` with its status. -/
inductive Child where
  | absent
  | running (pid : Nat)
  | exited (pid : Nat) (status : String)
  | reaped (status : String)
  deriving DecidableEq, Repr

namespace Child

/-- `Child::id`: nothing once the child was reaped. -/
def id : Child → Option Nat
  | .running pid => some pid
  | .exited pid _ => some pid
  | _ => none

/-- The status `wait` completes with, once there is one. -/
def status : Child → Option String
  | .exited _ status => some status
  | .reaped status => some status
  | _ => none

/-- `wait` has completed. -/
def reap : Child → Child
  | .exited _ status => .reaped status
  | c => c

/-- The process ends, by itself or by a signal. -/
def exit (c : Child) (status : String) : Child :=
  match c with
  | .running pid => .exited pid status
  | c => c

end Child

/-- Capacity of the job channel. -/
def jobCapacity : Nat := 64

/-- The state the tasks share. -/
structure Shared where
  now : Nat
  state : State
  info : Option WorkerInfo
  pid : Option Nat
  admission : Nat
  jobs : Mpsc Job
  replies : Nat → Oneshot Answer
  ready : Oneshot (Except StartError WorkerInfo)
  forceStop : Bool
  done : Bool
  fatal : List String
  child : Child
  stdin : List UInt8
  spawned : List Nat
  signals : List (Nat × Signal)

/-- The operations on the shared state. -/
inductive Eff where
  | skip
  -- the mutexes
  | setState (state : State)
  | setInfo (info : Option WorkerInfo)
  | setPid (pid : Option Nat)
  -- the job channel
  | push (job : Job)
  | recv
  | dropReceiver
  -- the reply channels
  | reply (key : Nat) (answer : Answer)
  | abandon (key : Nat)
  | closeReply (key : Nat)
  -- the handshake channel
  | settle (result : Except StartError WorkerInfo)
  | closeReady
  -- admission
  | acquire
  | release
  -- notifications
  | notifyForceStop
  | notifyDone
  | takeDone
  | kill (held : List Nat)
  | sendFatal (reason : String)
  -- the child
  | spawn (pid : Nat)
  | write (bytes : List UInt8)
  | reap
  | signal (signal : Signal)

/-- Drop the senders of these reply channels. -/
def dropReplies (replies : Nat → Oneshot Answer) (keys : List Nat) : Nat → Oneshot Answer :=
  fun k => if k ∈ keys then (replies k).dropSender else replies k

namespace Shared

/-- Send a signal to the child, unless it was reaped. -/
def signalChild (sh : Shared) (signal : Signal) : Shared :=
  { sh with signals := sh.signals ++ (sh.child.id.map fun pid => (pid, signal)).toList }

/-- Carry out one operation. -/
def apply (sh : Shared) : Eff → Shared
  | .skip => sh
  | .setState state => { sh with state }
  | .setInfo info => { sh with info }
  | .setPid pid => { sh with pid }
  | .push job => { sh with jobs := sh.jobs.push job }
  | .recv => { sh with jobs := sh.jobs.pop }
  -- the end of `supervise`: the receiver goes with its jobs, then the handshake sender, and
  -- `kill_on_drop` fires for a child that was never reaped
  | .dropReceiver =>
    { sh.signalChild .kill with
      jobs := sh.jobs.dropReceiver
      replies := dropReplies sh.replies (sh.jobs.buffer.map Job.reply)
      ready := sh.ready.dropSender }
  | .reply key answer =>
    { sh with replies := Function.update sh.replies key ((sh.replies key).send answer) }
  | .abandon key => { sh with replies := dropReplies sh.replies [key] }
  | .closeReply key =>
    { sh with replies := Function.update sh.replies key (sh.replies key).close }
  | .settle result => { sh with ready := sh.ready.send result }
  | .closeReady => { sh with ready := sh.ready.close }
  | .acquire => { sh with admission := sh.admission - 1 }
  | .release => { sh with admission := sh.admission + 1 }
  | .notifyForceStop => { sh with forceStop := true }
  | .notifyDone => { sh with done := true }
  | .takeDone => { sh with done := false }
  -- the session future is dropped, and with it the reply senders it holds
  | .kill held => { sh with forceStop := false, replies := dropReplies sh.replies held }
  | .sendFatal reason => { sh with fatal := sh.fatal ++ [reason] }
  | .spawn pid => { sh with child := .running pid, spawned := sh.spawned ++ [pid] }
  | .write bytes => { sh with stdin := sh.stdin ++ bytes }
  | .reap => { sh with child := sh.child.reap }
  | .signal signal => sh.signalChild signal

/-- Only the clock moves the time. -/
theorem apply_now (sh : Shared) (eff : Eff) : (sh.apply eff).now = sh.now := by
  cases eff <;> rfl

end Shared

end Layad
