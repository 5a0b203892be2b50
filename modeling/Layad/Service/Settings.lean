import Layad.Library.Glob

/-!
# `service.sh`: the settings of an invocation

The script reads its settings from the environment, with a default for each one that is unset
or empty, derives the paths it works with and refuses what its `case` patterns do not admit.

* `Environment.settings` — the settings with their defaults;
* `Settings.refusal` — the message the script dies with before it looks at the command;
* `plistPaths` — what `plist_paths` dies with: all four paths must be absolute.
-/

namespace Layad.Service

open Glob (Piece accepts)

/-- What the script finds: its repository, the user's home and the overrides. -/
structure Environment where
  root : String
  HOME : String
  LAYAD_LABEL : Option String
  LAYAD_BIND : Option String
  LAYAD_BACKEND : Option String
  LAYAD_DEVICE : Option String
  LAYAD_CHECKPOINT : Option String
  LAYAD_LOG : Option String
  LAYAD_MEMORY_MB : Option String
  LAYAD_HOME_DIR : Option String
  LAYAD_PLIST_DIR : Option String

/-- The script's own variables. -/
structure Settings where
  root : String
  label : String
  bind : String
  backend : String
  device : String
  checkpoint : String
  logFilter : String
  memoryMb : String
  layadHomeDir : String
  plistDir : String

/-- `${NAME:-default}`: an empty value counts as none. -/
def orDefault (value : Option String) (default : String) : String :=
  match value with
  | none => default
  | some text => if text = "" then default else text

/-- The variables from the environment, each with its default. -/
def Environment.settings (e : Environment) : Settings where
  root := e.root
  label := orDefault e.LAYAD_LABEL "dev.layad.daemon"
  bind := orDefault e.LAYAD_BIND "127.0.0.1:8787"
  backend := orDefault e.LAYAD_BACKEND "mlx"
  device := orDefault e.LAYAD_DEVICE "auto"
  checkpoint := orDefault e.LAYAD_CHECKPOINT "english"
  logFilter := orDefault e.LAYAD_LOG "info"
  memoryMb := orDefault e.LAYAD_MEMORY_MB "2048"
  layadHomeDir := orDefault e.LAYAD_HOME_DIR (e.root ++ "/.layad")
  plistDir := orDefault e.LAYAD_PLIST_DIR (e.HOME ++ "/Library/LaunchAgents")

/-! ### Derived paths -/

namespace Settings

variable (s : Settings)

/-- The name of the plist within the plist directory. -/
def plistName : String := s.label ++ ".plist"

/-- The name the plist is written under before it is moved into place. -/
def scratchName : String := s.plistName ++ ".tmp"

/-- `PLIST`: where launchd finds the service. -/
def plist : String := s.plistDir ++ "/" ++ s.plistName

/-- `PYTHON`: the interpreter of the repository's environment. -/
def python : String := s.root ++ "/.venv/bin/python"

/-- `WORKER`: the worker's script. -/
def worker : String := s.root ++ "/python/worker.py"

/-- `BINARY`: the release build. -/
def binary : String := s.root ++ "/target/release/layad"

/-- `MODEL_DIR`: where the model is stored. -/
def modelDir : String := s.layadHomeDir ++ "/model"

/-- `HF_HOME_DIR`: the cache of the model hub. -/
def hfHomeDir : String := s.layadHomeDir ++ "/hf"

/-- `STDOUT_LOG`: where launchd writes the standard output. -/
def stdoutLog : String := s.layadHomeDir ++ "/layad.log"

/-- `STDERR_LOG`: where launchd writes the standard error. -/
def stderrLog : String := s.layadHomeDir ++ "/layad.err.log"

/-! ### Validation -/

/-- `[A-Za-z0-9._-]`. -/
def labelCharacter (c : Char) : Bool := c.isAlphanum || c == '.' || c == '_' || c == '-'

/-- `'' | *[!A-Za-z0-9._-]* | .* | *..* | *.` -/
def refusedLabels : List (List Piece) :=
  [[], [.star, .one fun c => !labelCharacter c, .star], [Glob.char '.', .star],
    [.star, Glob.char '.', Glob.char '.', .star], [.star, Glob.char '.']]

/-- `'' | *[!0-9]*` -/
def refusedMemory : List (List Piece) := [[], [.star, .one fun c => !c.isDigit, .star]]

/-- The checks the script makes before anything else, in its order. -/
def refusal : Option String :=
  if refusedLabels.any (accepts · s.label.toList) then
    some s!"LAYAD_LABEL must be dotted components of letters, digits, '_' and '-' (got '{s.label}')"
  else if !(["mlx", "torch"].contains s.backend) then
    some s!"LAYAD_BACKEND must be mlx or torch (got '{s.backend}')"
  else if refusedMemory.any (accepts · s.memoryMb.toList) then
    some s!"LAYAD_MEMORY_MB must be a whole number of MiB (got '{s.memoryMb}')"
  else if !(["auto", "cpu", "gpu", "mps", "cuda"].contains s.device) then
    some s!"LAYAD_DEVICE must be auto, cpu, gpu, mps or cuda (got '{s.device}')"
  else if !(["english", "multilingual", "typed-decisions"].contains s.checkpoint) then
    some ("LAYAD_CHECKPOINT must be english, multilingual or typed-decisions " ++
      s!"(got '{s.checkpoint}')")
  else none

/-- `[[ path == /* ]]` -/
def absolute (path : String) : Bool := accepts [Glob.char '/', .star] path.toList

/-- The message of the first path that is not absolute. -/
def plistPaths : Option String :=
  if !absolute s.python then some s!"python path must be absolute: {s.python}"
  else if !absolute s.worker then some s!"worker path must be absolute: {s.worker}"
  else if !absolute s.binary then some s!"binary path must be absolute: {s.binary}"
  else if !absolute s.layadHomeDir then
    some s!"runtime home must be absolute: {s.layadHomeDir}"
  else none

/-! ### The names in the plist directory -/

/-- Labels that differ have plists that differ in name. -/
theorem plistName_ne {s : Settings} {label : String} (h : s.label ≠ label) :
    s.plistName ≠ label ++ ".plist" := by
  intro hname
  have hname := congrArg String.toList hname
  rw [plistName, String.toList_append, String.toList_append] at hname
  exact h (String.toList_injective (List.append_cancel_right hname))

/-- A scratch file is no plist, whatever the labels. -/
theorem scratchName_ne (s : Settings) (label : String) : s.scratchName ≠ label ++ ".plist" := by
  intro h
  have h := congrArg (fun name => name.toList.getLast?) h
  simp [scratchName, plistName] at h

end Settings

end Layad.Service
