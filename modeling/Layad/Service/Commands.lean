import Layad.Service.Plist
import Mathlib.Logic.Function.Basic

/-!
# `service.sh`: the commands

A command works on a `World`: the regular files of the plist directory by their names, and the
labels `launchctl` has loaded.  Whatever the script cannot decide itself is an `Outcomes` record
of the invocation: the platform, what is executable, which file operations succeed and what
`launchctl` answers.  An unload that exits 0 has unloaded the label; nothing else is assumed of
`launchctl`.

A run is a list of invocations, each from its own environment (`perform`).
-/

namespace Layad.Service

/-! ### The world and what comes back -/

/-- The plist directory and the loaded labels. -/
structure World where
  files : String → Option String
  loaded : String → Bool

namespace World

/-- A file of the plist directory is written. -/
def write (w : World) (name text : String) : World :=
  { w with files := Function.update w.files name (some text) }

/-- A file of the plist directory is removed. -/
def remove (w : World) (name : String) : World :=
  { w with files := Function.update w.files name none }

variable {w : World} {name other text : String}

/-- What was written is in the file. -/
@[simp] theorem files_write_self : (w.write name text).files name = some text :=
  Function.update_self _ _ _

/-- The other files stay as they were. -/
theorem files_write_of_ne (h : other ≠ name) : (w.write name text).files other = w.files other :=
  Function.update_of_ne h _ _

/-- A removed file is gone. -/
@[simp] theorem files_remove_self : (w.remove name).files name = none :=
  Function.update_self _ _ _

/-- The other files stay as they were. -/
theorem files_remove_of_ne (h : other ≠ name) : (w.remove name).files other = w.files other :=
  Function.update_of_ne h _ _

/-- Taking a file away undoes writing it. -/
theorem remove_write : (w.write name text).remove name = w.remove name := by
  rw [write, remove, remove, Function.update_idem]

end World

/-- A line on standard error. -/
inductive Line where
  | log (text : String)
  | error (text : String)
deriving DecidableEq

/-- What is printed: `log` and `die`. -/
def Line.text : Line → String
  | .log text => "[service] " ++ text
  | .error text => "[service] ERROR: " ++ text

/-- How an invocation ends. -/
structure Report where
  world : World
  lines : List Line
  status : Nat
  output : String := ""

/-- `die`, where nothing has been printed yet. -/
def die (w : World) (text : String) : Report := ⟨w, [.error text], 1, ""⟩

/-- A command that fails where nothing catches it: `set -e`. -/
def abort (w : World) : Report := ⟨w, [], 1, ""⟩

/-! ### What the script cannot decide -/

/-- What becomes of a file written through a redirection. -/
inductive Writing where
  /-- The file cannot be opened. -/
  | refused
  /-- Only the first characters arrive. -/
  | cut (n : Nat)
  | whole

/-- A `launchctl load`: its exit status and the labels loaded afterwards. -/
structure Load where
  ok : Bool
  loaded : String → Bool

/-- A `launchctl unload` of the plist of a label. -/
structure Unload (label : String) extends Load where
  unloaded : ok = true → loaded label = false

/-- One outcome for each thing an invocation may ask of the system. -/
structure Outcomes (label : String) where
  /-- `uname -s` prints `Darwin`. -/
  darwin : Bool
  binaryExecutable : Bool
  pythonExecutable : Bool
  /-- `mkdir -p "$PLIST_DIR" "$LAYAD_HOME_DIR"` -/
  mkdir : Bool
  writing : Writing
  /-- `mv "$PLIST.tmp" "$PLIST"` -/
  mv : Bool
  /-- `rm -f "$PLIST"` -/
  rm : Bool
  unload : Unload label
  load : Load

/-! ### Ownership -/

variable (s : Settings) (w : World)

/-- `launchctl list "$LABEL"` -/
def isLoaded : Bool := w.loaded s.label

/-- `[[ -f "$PLIST" ]]` -/
def isInstalled : Bool := (w.files s.plistName).isSome

/-- Our marker and our exact runtime home. -/
def isOurs : Bool :=
  match w.files s.plistName with
  | none => false
  | some text => owned s.layadHomeDir text

/-- Looks generated by this project but names another worktree's runtime home. -/
def isForeignPlist : Bool :=
  match w.files s.plistName with
  | none => false
  | some text => grepF MARKER text && !isOurs s w

/-- What every command says of a foreign plist. -/
def foreignPlist : String :=
  s!"{s.plist} belongs to another layad worktree (home not '{s.layadHomeDir}')"

/-! ### The commands -/

/-- The lines it prints, `.error` if it dies. -/
def unloadOrFail (unload : Unload s.label) (context : String) (w : World) :
    World × Except (List Line) (List Line) :=
  let after := { w with loaded := unload.loaded }
  if unload.ok then (after, .ok [])
  else if isLoaded s after then
    (after,
      .error [.error s!"{context}: launchctl unload failed and {s.label} is still loaded"])
  else
    (after, .ok [.log
      s!"{context}: launchctl unload reported failure but {s.label} is not loaded; continuing"])

/-- `render_plist >"$PLIST.tmp"`, and the report if that ends the script. -/
def renderScratch (writing : Writing) : World × Option Report :=
  match writing with
  | .refused => (w, some (abort w))
  | .cut n =>
    let w := w.write s.scratchName <|
      if s.plistPaths.isSome then "" else String.ofList ((renderPlist s).toList.take n)
    (w, some ((s.plistPaths.map (die w)).getD (abort w)))
  | .whole =>
    match s.plistPaths with
    | some text =>
      let w := w.write s.scratchName ""
      (w, some (die w text))
    | none => (w.write s.scratchName (renderPlist s), none)

/-- The end of `cmd_install`, once the plist is in place. -/
def loadPlist (o : Outcomes s.label) : Report :=
  -- `|| true`: what the unload answers is ignored
  let w := { w with loaded := o.unload.loaded }
  let w := { w with loaded := o.load.loaded }
  if o.load.ok then
    ⟨w, [.log s!"wrote {s.plist}", .log s!"loaded {s.label}"], 0, ""⟩
  else
    ⟨w, [.log s!"wrote {s.plist}",
      .log s!"could not load {s.label}; inspect with: launchctl load -w '{s.plist}'"], 1, ""⟩

/-- The part of `cmd_install` that writes. -/
def writePlist (o : Outcomes s.label) : Report :=
  match renderScratch s w o.writing with
  | (_, some report) => report
  | (w, none) =>
    if o.mv then loadPlist s ((w.remove s.scratchName).write s.plistName (renderPlist s)) o
    else abort w

/-- `cmd_install`: its checks in the script's order, then what it writes. -/
def cmdInstall (o : Outcomes s.label) : Report :=
  if !o.darwin then
    die w "launchd integration is macOS-only; run the daemon in the foreground instead"
  else if !o.binaryExecutable then die w s!"{s.binary} is missing; run scripts/setup.sh first"
  else if !o.pythonExecutable then die w s!"{s.python} is missing; run scripts/setup.sh first"
  else if !o.mkdir then abort w
  else if isInstalled s w && !isOurs s w then
    if isForeignPlist s w then
      die w (foreignPlist s ++ "; refusing to touch it")
    else die w s!"{s.plist} exists and is not managed by layad; refusing to overwrite it"
  else if !isInstalled s w && isLoaded s w then
    die w (s!"{s.label} is loaded but {s.plist} is not a layad plist; " ++
      "refusing to take over a service we do not own")
  else writePlist s w o

/-- The part of `cmd_uninstall` that removes. -/
def removePlist (o : Outcomes s.label) : Report :=
  match unloadOrFail s o.unload "uninstall" w with
  | (w, .error lines) => ⟨w, lines, 1, ""⟩
  | (w, .ok lines) =>
    if o.rm then ⟨w.remove s.plistName, lines ++ [.log s!"removed {s.plist}"], 0, ""⟩
    else ⟨w, lines, 1, ""⟩

/-- `cmd_uninstall`: its checks in the script's order, then what it removes. -/
def cmdUninstall (o : Outcomes s.label) : Report :=
  if !isInstalled s w then ⟨w, [.log s!"no plist at {s.plist}; nothing to remove"], 0, ""⟩
  else if !isOurs s w then
    if isForeignPlist s w then
      die w (foreignPlist s ++ "; refusing to touch it")
    else die w s!"{s.plist} is not managed by layad; refusing to touch it"
  else removePlist s w o

/-- `cmd_status`: whether the plist is installed, whose it is and whether it is loaded. -/
def cmdStatus : Report :=
  if !isInstalled s w then ⟨w, [.log s!"not installed (no {s.plist})"], 1, ""⟩
  else if !isOurs s w then
    if isForeignPlist s w then
      die w (foreignPlist s)
    else die w s!"{s.plist} exists but is not managed by layad"
  else
    ⟨w, [.log s!"installed at {s.plist} (checkpoint: {s.checkpoint}, home: {s.layadHomeDir})",
      .log (if isLoaded s w then "loaded" else "not loaded")], 0, ""⟩

/-- `cmd_plist`: the rendered plist, if its paths are absolute. -/
def cmdPlist : Report :=
  match s.plistPaths with
  | some text => die w text
  | none => ⟨w, [], 0, renderPlist s⟩

/-- The commands of the script. -/
inductive Command where
  | install
  | uninstall
  | status
  | plist
deriving DecidableEq

/-- The script's validation, then the command. -/
def service (command : Command) (o : Outcomes s.label) : Report :=
  match s.refusal with
  | some text => die w text
  | none =>
    match command with
    | .install => cmdInstall s w o
    | .uninstall => cmdUninstall s w o
    | .status => cmdStatus s w
    | .plist => cmdPlist s w

/-! ### Runs -/

/-- One run of the script, from its environment. -/
structure Invocation where
  environment : Environment
  command : Command
  outcomes : Outcomes environment.settings.label

namespace Invocation

variable (i : Invocation)

/-- The script's variables. -/
def settings : Settings := i.environment.settings

/-- The runtime home, which is what tells worktrees apart. -/
def home : String := i.settings.layadHomeDir

/-- What the invocation does, and how it ends. -/
def report (w : World) : Report := service i.settings w i.command i.outcomes

end Invocation

/-- The world after a list of invocations. -/
def perform (w : World) (run : List Invocation) : World :=
  run.foldl (fun w i => (i.report w).world) w

/-- The empty run changes nothing. -/
theorem perform_nil : perform w [] = w := rfl

/-- A run goes on where its first invocation has left the world. -/
theorem perform_cons (i : Invocation) (run : List Invocation) :
    perform w (i :: run) = perform (i.report w).world run := rfl

end Layad.Service
