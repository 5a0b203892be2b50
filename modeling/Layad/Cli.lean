import Layad.Api
import Layad.SocketAddr
import Mathlib.Data.List.DropRight

namespace Layad

/-!
# The command line

The options the daemon declares (`Cli`), with the defaults that stand in for them, and
`Config::try_from`, which turns them into a validated configuration.  Splitting the command
line is clap's work: `ArgumentParser` is any parser, and `ArgumentParser.Documented` what clap
documents of one, for options that take one value each.
-/

/-- Command line interface. -/
structure Cli where
  bind : String
  python : String
  workerScript : String
  workerArgs : List String
  model : String
  checkpoint : Checkpoint
  backend : Backend
  device : Device
  memoryMb : Nat
  pythonEnv : List String
  maxBodyBytes : Nat
  maxQuestions : Nat
  maxConcurrent : Nat
  maxResponseBytes : Nat
  startupTimeoutMs : Nat
  inferenceTimeoutMs : Nat
  shutdownTimeoutMs : Nat
  noFailFast : Bool
  log : String

/-! ### Values -/

/-- `str::trim`. -/
def trim (text : List Char) : List Char := (text.dropWhile isWhitespace).rdropWhile isWhitespace

/-- The number the digits of a decimal numeral stand for. -/
def ofDecimal (digits : List Char) : Nat := Nat.ofDigitChars 10 digits 0

/-- `str::parse` at an unsigned 64-bit type. -/
def parseU64 (text : List Char) : Option Nat :=
  let digits := if text.head? = some '+' then text.tail else text
  if digits.isEmpty || !digits.all Char.isDigit then none
  else if ofDecimal digits < 2 ^ 64 then some (ofDecimal digits)
  else none

/-- The checkpoint of a name. -/
def Checkpoint.ofName : String → Option Checkpoint
  | "english" => some .english
  | "multilingual" => some .multilingual
  | "typed-decisions" => some .typedDecisions
  | _ => none

/-- The device of a name. -/
def Device.ofName : String → Option Device
  | "cpu" => some .cpu
  | "gpu" => some .gpu
  | "mps" => some .mps
  | "cuda" => some .cuda
  | "auto" => some .auto
  | _ => none

/-- The backend of a name. -/
def Backend.ofName : String → Option Backend
  | "mlx" => some .mlx
  | "torch" => some .torch
  | _ => none

/-! ### Defaults -/

/-- Environment variables, unset or set. -/
abbrev Variables := String → Option String

/-- The project-local copies that are there: the interpreter and the model tree. -/
structure LocalCopies where
  python : Bool
  model : Bool

/-- The memory ceiling where nothing sets one. -/
def DEFAULT_MEMORY_MB : Nat := 2048

/-- Default for `--memory-mb`: an unset, empty or non-numeric variable means the default. -/
def defaultMemoryMb (env : Variables) : Nat :=
  ((env "LAYAD_MEMORY_MB").bind fun raw => parseU64 (trim raw.toList)).getD DEFAULT_MEMORY_MB

/-- A text without white space is trimmed to itself. -/
theorem trim_eq {text : List Char} (h : ∀ c ∈ text, isWhitespace c = false) :
    trim text = text := by
  have hdrop : text.dropWhile isWhitespace = text := by
    rw [List.dropWhile_eq_self_iff]
    exact fun hlen hspace => absurd hspace (by simp [h _ (List.getElem_mem hlen)])
  rw [trim, hdrop, List.rdropWhile_eq_self_iff]
  exact fun hne hspace => absurd hspace (by simp [h _ (List.getLast_mem hne)])

/-- Digits are read as their number if it has 64 bits. -/
theorem parseU64_digits {text : List Char} (hne : text ≠ [])
    (hdigits : ∀ c ∈ text, c.isDigit = true) :
    parseU64 text = if ofDecimal text < 2 ^ 64 then some (ofDecimal text) else none := by
  have hhead : text.head? ≠ some '+' := fun hplus =>
    absurd (hdigits '+' (List.mem_of_mem_head? hplus)) (by decide)
  have hall : (text.isEmpty || !text.all Char.isDigit) = false := by
    rw [List.all_eq_true.mpr hdigits, List.isEmpty_eq_false_iff.mpr hne]
    rfl
  rw [parseU64, if_neg hhead]
  simp only [hall, Bool.false_eq_true, if_false]

/-- A digit is no white space. -/
theorem not_whitespace_of_isDigit {c : Char} (h : c.isDigit = true) : isWhitespace c = false := by
  rw [Char.isDigit, Bool.and_eq_true, decide_eq_true_eq, decide_eq_true_eq] at h
  have hrange : 48 ≤ c.toNat ∧ c.toNat ≤ 57 := h
  simp only [isWhitespace, Bool.or_eq_false_iff, Bool.and_eq_false_iff, decide_eq_false_iff_not]
  omega

/-- A decimal number is the budget if it fits; otherwise the default is. -/
theorem defaultMemoryMb_eq_iff {env : Variables} {raw : String}
    (henv : env "LAYAD_MEMORY_MB" = some raw) (hne : raw ≠ "")
    (hdigits : ∀ c ∈ raw.toList, c.isDigit = true) :
    defaultMemoryMb env = ofDecimal raw.toList ↔ ofDecimal raw.toList < 2 ^ 64 := by
  have hlist : raw.toList ≠ [] := fun hnil => hne (String.toList_eq_nil_iff.mp hnil)
  rw [defaultMemoryMb, henv, Option.bind_some,
    trim_eq fun c hc => not_whitespace_of_isDigit (hdigits c hc), parseU64_digits hlist hdigits]
  split
  · rename_i hfits
    exact iff_of_true rfl hfits
  · rename_i hfits
    refine iff_of_false (fun hsame => hfits ?_) hfits
    rw [← hsame]
    decide

/-- The interpreter where no option names one. -/
def defaultPython (copies : LocalCopies) : String :=
  if copies.python then ".venv/bin/python" else "python3"

/-- The model where no option names one. -/
def defaultModel (copies : LocalCopies) : String :=
  if copies.model then ".layad/model" else "aac6fef/laya-mlx"

namespace Cli

/-- What the options are if none is given, on the command line or by its variable. -/
def defaults (copies : LocalCopies) (env : Variables) : Cli where
  bind := "127.0.0.1:8787"
  python := defaultPython copies
  workerScript := "python/worker.py"
  workerArgs := []
  model := defaultModel copies
  checkpoint := .english
  backend := .mlx
  device := .auto
  memoryMb := defaultMemoryMb env
  pythonEnv := []
  maxBodyBytes := 1048576
  maxQuestions := 256
  maxConcurrent := 64
  maxResponseBytes := 8388608
  startupTimeoutMs := 600000
  inferenceTimeoutMs := 60000
  shutdownTimeoutMs := 10000
  noFailFast := false
  log := "info"

/-- No limit is zero by default. -/
theorem limits_defaults (copies : LocalCopies) (env : Variables) :
    (defaults copies env).maxBodyBytes ≠ 0 ∧ (defaults copies env).maxQuestions ≠ 0 ∧
      (defaults copies env).maxConcurrent ≠ 0 ∧ (defaults copies env).maxResponseBytes ≠ 0 := by
  simp [defaults]

/-- The variables clap reads where an option is not given. -/
def fallbacks : List String :=
  ["LAYAD_BIND", "LAYAD_PYTHON", "LAYAD_WORKER_SCRIPT", "LAYAD_WORKER_ARG", "LAYAD_MODEL",
    "LAYAD_CHECKPOINT", "LAYAD_BACKEND", "LAYAD_DEVICE", "LAYAD_PYTHON_ENV",
    "LAYAD_MAX_BODY_BYTES", "LAYAD_MAX_QUESTIONS", "LAYAD_MAX_CONCURRENT",
    "LAYAD_MAX_RESPONSE_BYTES", "LAYAD_STARTUP_TIMEOUT_MS", "LAYAD_INFERENCE_TIMEOUT_MS",
    "LAYAD_SHUTDOWN_TIMEOUT_MS", "LAYAD_NO_FAIL_FAST", "LAYAD_LOG"]

/-- The options that take one value. -/
def options : List String :=
  ["bind", "python", "worker-script", "worker-arg", "model", "checkpoint", "backend", "device",
    "memory-mb", "python-env", "max-body-bytes", "max-questions", "max-concurrent",
    "max-response-bytes", "startup-timeout-ms", "inference-timeout-ms", "shutdown-timeout-ms",
    "log"]

/-- One option with its value, read as the option's type; nothing for an option that is not
    declared or takes no value. -/
def set (cli : Cli) (option value : String) : Option Cli :=
  let number := parseU64 value.toList
  match option with
  | "bind" => some { cli with bind := value }
  | "python" => if value = "" then none else some { cli with python := value }
  | "worker-script" => some { cli with workerScript := value }
  | "worker-arg" => some { cli with workerArgs := cli.workerArgs ++ [value] }
  | "model" => some { cli with model := value }
  | "checkpoint" => (Checkpoint.ofName value).map fun checkpoint => { cli with checkpoint }
  | "backend" => (Backend.ofName value).map fun backend => { cli with backend }
  | "device" => (Device.ofName value).map fun device => { cli with device }
  | "memory-mb" => number.map fun n => { cli with memoryMb := n }
  | "python-env" => some { cli with pythonEnv := cli.pythonEnv ++ [value] }
  | "max-body-bytes" => number.map fun n => { cli with maxBodyBytes := n }
  | "max-questions" => number.map fun n => { cli with maxQuestions := n }
  | "max-concurrent" => number.map fun n => { cli with maxConcurrent := n }
  | "max-response-bytes" => number.map fun n => { cli with maxResponseBytes := n }
  | "startup-timeout-ms" => number.map fun n => { cli with startupTimeoutMs := n }
  | "inference-timeout-ms" => number.map fun n => { cli with inferenceTimeoutMs := n }
  | "shutdown-timeout-ms" => number.map fun n => { cli with shutdownTimeoutMs := n }
  | "log" => some { cli with log := value }
  | _ => none

end Cli

/-! ### The parser of the command line -/

/-- A parser: the arguments after the program's name, and the environment. -/
abbrev ArgumentParser := List String → Variables → Option Cli

/-- Options with one value each, as two arguments. -/
def commandLine (options : List (String × String)) : List String :=
  options.flatMap fun option => ["--" ++ option.1, option.2]

/-- An argument that is not taken for an option or for the end of the options. -/
def plainArgument (argument : String) : Bool :=
  !(argument.toList.head? == some '-' && decide (1 < argument.toList.length))

/-- What clap documents, for the options the daemon declares: different options with plain
    values are set, those not given have their defaults while no variable stands in for them;
    and where an option wants its value, an argument that is not plain is not taken for it,
    unless the option allows that (`--worker-arg` does). -/
structure ArgumentParser.Documented (copies : LocalCopies) (parse : ArgumentParser) : Prop where
  takes : ∀ options env, (∀ option ∈ options, option.1 ∈ Cli.options) →
    (options.map Prod.fst).Nodup → (∀ option ∈ options, plainArgument option.2 = true) →
    (∀ name ∈ Cli.fallbacks, env name = none) →
    parse (commandLine options) env =
      options.foldlM (fun cli option => cli.set option.1 option.2) (Cli.defaults copies env)
  refuses : ∀ options env,
    (∀ option ∈ options, option.1 ∈ Cli.options ∧ option.1 ≠ "worker-arg") →
    (∃ option ∈ options, plainArgument option.2 = false) → parse (commandLine options) env = none

/-- Options read one after another. -/
def Cli.read (cli : Cli) : List String → Option Cli
  | [] => some cli
  | [_] => none
  | option :: value :: rest =>
    match option.toList with
    | '-' :: '-' :: name =>
      if plainArgument value || String.ofList name == "worker-arg" then
        (cli.set (String.ofList name) value).bind fun cli => cli.read rest
      else none
    | _ => none

/-- The options are read one after the other. -/
theorem Cli.read_commandLine_cons (cli : Cli) (option : String × String)
    (rest : List (String × String)) : cli.read (commandLine (option :: rest)) =
      if plainArgument option.2 || option.1 == "worker-arg" then
        (cli.set option.1 option.2).bind fun cli => cli.read (commandLine rest)
      else none := by
  have hname : ("--" ++ option.1).toList = '-' :: '-' :: option.1.toList := String.toList_append
  have hline : commandLine (option :: rest) =
      ("--" ++ option.1) :: option.2 :: commandLine rest := rfl
  rw [hline, Cli.read, hname]
  simp only [String.ofList_toList]

/-- A parser that does as documented. -/
def optionReader (copies : LocalCopies) : ArgumentParser := fun arguments env =>
  (Cli.defaults copies env).read arguments

/-- There is a reader that does what is documented. -/
theorem optionReader_documented (copies : LocalCopies) :
    (optionReader copies).Documented copies where
  -- option by option, from any settings
  takes := by
    rintro options env - - hplain -
    rw [optionReader]
    generalize Cli.defaults copies env = cli
    induction options generalizing cli with
    | nil => rfl
    | cons option rest ih =>
      have hrest : ∀ option ∈ rest, plainArgument option.2 = true :=
        fun option hmem => hplain option (List.mem_cons_of_mem _ hmem)
      rw [Cli.read_commandLine_cons, hplain option List.mem_cons_self, Bool.true_or, if_pos rfl,
        List.foldlM_cons]
      exact congrArg _ (funext fun cli => ih hrest cli)
  -- a value that looks like an option is the last that is read
  refuses := by
    intro options env hnames hplain
    rw [optionReader]
    generalize Cli.defaults copies env = cli
    induction options generalizing cli with
    | nil => exact absurd hplain (by simp)
    | cons option rest ih =>
      rw [Cli.read_commandLine_cons, beq_false_of_ne (hnames option List.mem_cons_self).2,
        Bool.or_false]
      obtain ⟨late, hlate, hnot⟩ := hplain
      rcases List.mem_cons.mp hlate with rfl | hlate
      · rw [hnot]
        rfl
      · split
        · exact Option.bind_eq_none_iff.mpr fun cli _ =>
            ih (fun option hmem => hnames option (List.mem_cons_of_mem _ hmem))
              ⟨late, hlate, hnot⟩ cli
        · rfl

/-! ### `Config::try_from` -/

/-- `split_once('=')`. -/
def splitOnce (item : String) : Option (String × String) :=
  let name := item.toList.takeWhile (· != '=')
  if item.toList.contains '=' then
    some (String.ofList name, String.ofList (item.toList.drop (name.length + 1)))
  else none

/-- The `KEY=VALUE` items. -/
def parsePythonEnv (host : Host) : List String → Except String (List (String × String))
  | [] => .ok []
  | item :: rest =>
    match splitOnce item with
    | none => .error s!"--python-env expects KEY=VALUE, got {host.debugStr item}"
    | some (name, value) =>
      (parsePythonEnv host rest).map ((String.ofList (trim name.toList), value) :: ·)

/-- The configuration an option list asks for. -/
def Cli.config (cli : Cli) (bind : SocketAddr) (pythonEnv : List (String × String)) : Config where
  bind
  python := cli.python
  workerScript := cli.workerScript
  workerArgs := cli.workerArgs
  model := cli.model
  checkpoint := cli.checkpoint
  backend := cli.backend
  device := cli.device
  memoryMb := cli.memoryMb
  pythonEnv
  maxBodyBytes := cli.maxBodyBytes
  maxQuestions := cli.maxQuestions
  maxConcurrent := cli.maxConcurrent
  maxResponseBytes := cli.maxResponseBytes
  startupTimeout := cli.startupTimeoutMs
  inferenceTimeout := cli.inferenceTimeoutMs
  shutdownTimeout := cli.shutdownTimeoutMs
  failFast := !cli.noFailFast
  log := cli.log

namespace Config

/-- `Config::try_from`. -/
def tryFrom (host : Host) (cli : Cli) : Except String Config :=
  match SocketAddr.fromStr cli.bind with
  | none => .error s!"invalid --bind {host.debugStr cli.bind}: invalid socket address syntax"
  | some bind => do
    let pythonEnv ← parsePythonEnv host cli.pythonEnv
    let config := cli.config bind pythonEnv
    config.validate host
    return config

/-- A check is passed if its condition fails. -/
theorem unless_ok {α : Type} {c : Prop} [Decidable c] {err : String} {k : Except String α}
    {a : α} : (if c then (do throw err; k) else k) = .ok a ↔ ¬c ∧ k = .ok a := by
  by_cases h : c
  · rw [if_pos h]
    exact iff_of_false (by rintro ⟨⟩) fun hk => hk.1 h
  · rw [if_neg h]
    exact (and_iff_right h).symm

/-- What two steps come to, if neither fails. -/
theorem bind_ok {α β : Type} {x : Except String α} {k : α → Except String β} {b : β} :
    (x >>= k) = .ok b ↔ ∃ a, x = .ok a ∧ k a = .ok b := by
  cases x with
  | error err => exact iff_of_false (by rintro ⟨⟩) (by rintro ⟨a, ⟨⟩, -⟩)
  | ok a =>
    constructor
    · exact fun h => ⟨a, rfl, h⟩
    · rintro ⟨a', h, hk⟩
      obtain rfl := Except.ok.inj h
      exact hk

/-- A configuration is valid if it passes each check. -/
theorem validate_ok {host : Host} {cfg : Config} :
    cfg.validate host = .ok () ↔
      cfg.bind.ip.isLoopback = true ∧ cfg.maxBodyBytes ≠ 0 ∧ cfg.maxQuestions ≠ 0 ∧
      cfg.maxConcurrent ≠ 0 ∧ cfg.maxResponseBytes ≠ 0 ∧
      (cfg.memoryMb ≠ 0 → minMemoryMb ≤ cfg.memoryMb) ∧
      validatePythonEnv host cfg.pythonEnv = .ok () ∧ cfg.python ≠ "" ∧
      validateDevice cfg.backend cfg.device = .ok () := by
  rw [validate, unless_ok, unless_ok, unless_ok, unless_ok, unless_ok, unless_ok, bind_ok]
  dsimp only
  simp only [unless_ok, Bool.not_eq_true', Bool.not_eq_false, not_and, not_lt,
    String.isEmpty_iff, Unique.exists_iff, PUnit.default_eq_unit, ne_eq]

/-- The daemon starts on a configuration that is valid. -/
theorem tryFrom_ok {host : Host} {cli : Cli} {config : Config} :
    tryFrom host cli = .ok config ↔
      ∃ bind pythonEnv, SocketAddr.fromStr cli.bind = some bind ∧
        parsePythonEnv host cli.pythonEnv = .ok pythonEnv ∧
        (cli.config bind pythonEnv).validate host = .ok () ∧
        cli.config bind pythonEnv = config := by
  rw [tryFrom]
  cases hbind : SocketAddr.fromStr cli.bind with
  | none => exact iff_of_false (by rintro ⟨⟩) (by rintro ⟨_, _, ⟨⟩, -⟩)
  | some bind =>
    simp only [bind_ok, Option.some.injEq, Unique.exists_iff, PUnit.default_eq_unit]
    constructor
    · rintro ⟨pythonEnv, henv, hvalid, hconfig⟩
      exact ⟨bind, pythonEnv, rfl, henv, hvalid, Except.ok.inj hconfig⟩
    · rintro ⟨_, pythonEnv, rfl, henv, hvalid, hconfig⟩
      exact ⟨pythonEnv, henv, hvalid, congrArg Except.ok hconfig⟩

end Config

end Layad
