import Layad.Host

namespace Layad

/-!
# Runtime configuration

The validated configuration (`Config`) and the checks that reject one
(`Config.validate`), with the texts of their errors.  Durations are milliseconds.
-/

/-- Which checkpoint inside the model repository to run. -/
inductive Checkpoint where
  | english
  | multilingual
  | typedDecisions
  deriving DecidableEq, Repr

/-- Device requested for the resident model. -/
inductive Device where
  | cpu
  | gpu
  | mps
  | cuda
  | auto
  deriving DecidableEq, Repr

/-- The name of a device, for a message. -/
def Device.asStr : Device → String
  | .cpu => "cpu"
  | .gpu => "gpu"
  | .mps => "mps"
  | .cuda => "cuda"
  | .auto => "auto"

/-- Inference backend for the resident model. -/
inductive Backend where
  | mlx
  | torch
  deriving DecidableEq, Repr

/-- `std::net::IpAddr`; an IPv6 address by its eight segments. -/
inductive IpAddr where
  | v4 (a b c d : UInt8)
  | v6 (segments : Vector UInt16 8)
  deriving DecidableEq

namespace IpAddr

/-- `IpAddr::is_loopback`. -/
def isLoopback : IpAddr → Bool
  | .v4 a _ _ _ => a = 127
  | .v6 segments => segments.toList = [0, 0, 0, 0, 0, 0, 0, 1]

/-- A segment in lower-case hexadecimal. -/
def hex (n : UInt16) : String := String.ofList (Nat.toDigits 16 n.toNat)

/-- Start and length of the first longest run of zero segments: `i` is the index of the
    next segment, `run` the length of the run that ends there, `best` the answer so far. -/
def zeroRun : List UInt16 → Nat → Nat → Nat × Nat → Nat × Nat
  | [], _, _, best => best
  | x :: xs, i, run, best =>
    if x = 0 then
      zeroRun xs (i + 1) (run + 1) (if best.2 < run + 1 then (i - run, run + 1) else best)
    else zeroRun xs (i + 1) 0 best

/-- `Display` of an address. -/
def display : IpAddr → String
  | .v4 a b c d => s!"{a}.{b}.{c}.{d}"
  | .v6 segments =>
    match segments.toList with
    | [0, 0, 0, 0, 0, 0xffff, ab, cd] =>
      s!"::ffff:{ab.toNat / 256}.{ab.toNat % 256}.{cd.toNat / 256}.{cd.toNat % 256}"
    | xs =>
      let (start, len) := zeroRun xs 0 0 (0, 0)
      if 1 < len then
        ":".intercalate ((xs.take start).map hex) ++ "::" ++
          ":".intercalate ((xs.drop (start + len)).map hex)
      else ":".intercalate (xs.map hex)

end IpAddr

/-- `std::net::SocketAddr`; `scopeId` is zero for IPv4. -/
structure SocketAddr where
  ip : IpAddr
  scopeId : UInt32
  port : UInt16
  deriving DecidableEq

/-- `Display` of a socket address. -/
def SocketAddr.display (addr : SocketAddr) : String :=
  match addr.ip with
  | .v4 .. => s!"{addr.ip.display}:{addr.port}"
  | .v6 _ =>
    if addr.scopeId = 0 then s!"[{addr.ip.display}]:{addr.port}"
    else s!"[{addr.ip.display}%{addr.scopeId}]:{addr.port}"

/-- Validated configuration used by the rest of the daemon. -/
structure Config where
  bind : SocketAddr
  python : String
  workerScript : String
  workerArgs : List String
  model : String
  checkpoint : Checkpoint
  backend : Backend
  device : Device
  memoryMb : Nat
  pythonEnv : List (String × String)
  maxBodyBytes : Nat
  maxQuestions : Nat
  maxConcurrent : Nat
  maxResponseBytes : Nat
  startupTimeout : Nat
  inferenceTimeout : Nat
  shutdownTimeout : Nat
  failFast : Bool
  log : String

/-- Smallest budget that still fits the resident checkpoint and the stack. -/
def minMemoryMb : Nat := 512

namespace Config

variable (host : Host)

/-- The `--python-env` check: refuses the first entry whose name is empty or holds a `=`. -/
def validatePythonEnv : List (String × String) → Except String Unit
  | [] => .ok ()
  | (name, value) :: rest =>
    if name.isEmpty || name.contains '=' then
      .error s!"--python-env expects KEY=VALUE, got {host.debugStr value}"
    else validatePythonEnv rest

/-- The device check: a device name only means something under its own backend. -/
def validateDevice (backend : Backend) (device : Device) : Except String Unit :=
  match backend, device with
  | .mlx, .mps | .mlx, .cuda =>
    .error s!"--device {device.asStr} is a PyTorch device and only works with --backend torch"
  | .torch, .gpu =>
    .error ("--device gpu is the MLX device name and only works with --backend mlx " ++
      "(use --device cuda or --device mps for PyTorch)")
  | _, _ => .ok ()

/-- Reject configurations that would break the daemon's safety properties. -/
def validate (cfg : Config) : Except String Unit := do
  if !cfg.bind.ip.isLoopback then
    throw (s!"refusing to bind {cfg.bind.display}: layad is an unauthenticated local service " ++
      "and only serves loopback addresses")
  if cfg.maxBodyBytes = 0 then
    throw "--max-body-bytes must be greater than zero"
  if cfg.maxQuestions = 0 then
    throw "--max-questions must be greater than zero"
  if cfg.maxConcurrent = 0 then
    throw "--max-concurrent must be greater than zero"
  if cfg.maxResponseBytes = 0 then
    throw "--max-response-bytes must be greater than zero"
  if cfg.memoryMb ≠ 0 ∧ cfg.memoryMb < minMemoryMb then
    throw (s!"--memory-mb {cfg.memoryMb} is below the {minMemoryMb} MiB a resident checkpoint " ++
      "needs; raise it or pass 0 to disable layad's memory cap")
  validatePythonEnv host cfg.pythonEnv
  if cfg.python.isEmpty then
    throw "--python must not be empty"
  validateDevice cfg.backend cfg.device

end Config

/-- The daemon's defaults. -/
def Replay.config : Config where
  bind := ⟨.v4 127 0 0 1, 0, 8787⟩
  python := "python3"
  workerScript := "python/worker.py"
  workerArgs := []
  model := "resident"
  checkpoint := .english
  backend := .mlx
  device := .auto
  memoryMb := 0
  pythonEnv := []
  maxBodyBytes := 1048576
  maxQuestions := 256
  maxConcurrent := 64
  maxResponseBytes := 8388608
  startupTimeout := 600000
  inferenceTimeout := 60000
  shutdownTimeout := 10000
  failFast := true
  log := "info"

/-- The defaults pass the check. -/
theorem Replay.validate_config (host : Host) : config.validate host = .ok () := by
  simp [Config.validate, config, IpAddr.isLoopback, minMemoryMb]
  rfl

end Layad
