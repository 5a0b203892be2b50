import Layad.Cli
import Layad.Library.Xml
import Layad.Service.Escaping

/-!
# `service.sh`: whether an installed service starts

The script checks each setting by itself, with shell patterns; the daemon parses the values the
plist passes on and checks them together.  What the script accepts starts with the pinned
memory budget just if the settings are `Startable`: the script lets through characters that no
XML document may hold, addresses that are no loopback socket addresses, devices of the other
backend, budgets the daemon refuses or cannot read, and a log filter that looks like an option
(`installed_starts_iff`).  Reading the plist is launchd's work: an `Xml.Reader` is any reader of
its strings.
-/

namespace Layad.Service

open Escape

/-! ### What the plist passes on -/

/-- What a command substitution leaves of a value. -/
def captured (value : String) : String := String.ofList (commandOutput value.toList)

/-- What is left of a value once the plist is read. -/
def passedOn (value : String) : String := String.ofList (Xml.normalize (captured value).toList)

/-- What a reader of the plist makes of a value's element. -/
def elementValue (read : Xml.Reader) (value : String) : Option String :=
  (read (commandOutput (xmlEscape value.toList))).map String.ofList

/-- What launchd finds in the plist: the arguments after the program, and
    `EnvironmentVariables`; nothing if some string of the document cannot be read. -/
def launch (read : Xml.Reader) (s : Settings) : Option (List String × Variables) := do
  let _ ← elementValue read s.label
  let arguments ← (programArguments s).mapM (elementValue read)
  let hfHome ← elementValue read s.hfHomeDir
  let memoryMb ← elementValue read s.memoryMb
  let _ ← [s.root, s.stdoutLog, s.stderrLog].mapM (elementValue read)
  some (arguments.tail, ([("HF_HOME", hfHome), ("LAYAD_MEMORY_MB", memoryMb),
    ("HF_HUB_OFFLINE", "1"), ("TRANSFORMERS_OFFLINE", "1")].lookup ·))

/-- A value that may stand in a document. -/
def Xmlable (value : String) : Prop := value.toList.all Xml.isChar = true

instance (value : String) : Decidable (Xmlable value) := inferInstanceAs (Decidable (_ = true))

/-- Escaping and cutting off line breaks at the end commute. -/
theorem commandOutput_xmlEscape_comm (text : List Char) :
    commandOutput (xmlEscape text) = xmlEscape (commandOutput text) := by
  induction text using List.reverseRecOn with
  | nil => rfl
  | append_singleton init c ih =>
    by_cases hc : c = '\n'
    · subst hc
      have hescape : xmlEscape (init ++ ['\n']) = xmlEscape init ++ ['\n'] := by
        rw [xmlEscape_eq, xmlEscape_eq, List.flatMap_append]
        rfl
      rw [hescape, commandOutput, commandOutput, List.rdropWhile_concat_pos _ _ _ rfl,
        List.rdropWhile_concat_pos _ _ _ rfl]
      exact ih
    · have hlast : (init ++ [c]).getLast? ≠ some '\n' := by simpa using hc
      rw [commandOutput_xmlEscape hlast, commandOutput, List.rdropWhile_concat_neg]
      simpa using hc

/-- The line breaks that are cut off may stand in a document. -/
theorem all_isChar_commandOutput (text : List Char) :
    (commandOutput text).all Xml.isChar = text.all Xml.isChar := by
  have hsplit : commandOutput text ++ text.rtakeWhile (· == '\n') = text :=
    List.rdropWhile_append_rtakeWhile
  have hbreaks : (text.rtakeWhile (· == '\n')).all Xml.isChar = true := by
    rw [List.all_eq_true]
    intro c hc
    have hbreak : (c == '\n') = true := List.mem_rtakeWhile_imp (p := (· == '\n')) hc
    rw [eq_of_beq hbreak]
    decide
  conv_rhs => rw [← hsplit]
  rw [List.all_append, hbreaks, Bool.and_true]

/-- What comes back of a value's element. -/
theorem elementValue_eq {read : Xml.Reader} (hread : read.Documented) (value : String) :
    elementValue read value = if Xmlable value then some (passedOn value) else none := by
  have hescape : commandOutput (xmlEscape value.toList) =
      (captured value).toList.flatMap (encode Xml.predefined) := by
    rw [commandOutput_xmlEscape_comm, xmlEscape_eq, captured, String.toList_ofList]
    rfl
  have hchars : (captured value).toList.all Xml.isChar = value.toList.all Xml.isChar := by
    rw [captured, String.toList_ofList, all_isChar_commandOutput]
  rw [elementValue, hescape, hread.read_encode, hchars, passedOn]
  by_cases hvalue : Xmlable value
  · rw [if_pos hvalue, if_pos (show value.toList.all Xml.isChar = true from hvalue),
      Option.map_some]
  · rw [if_neg hvalue, if_neg (show ¬ value.toList.all Xml.isChar = true from hvalue),
      Option.map_none]

/-- Strings are read one by one, and all of them or none. -/
theorem mapM_elementValue {read : Xml.Reader} (hread : read.Documented) (values : List String) :
    values.mapM (elementValue read) =
      if ∀ value ∈ values, Xmlable value then some (values.map passedOn) else none := by
  induction values with
  | nil => simp
  | cons value values ih =>
    rw [List.mapM_cons, ih, elementValue_eq hread]
    by_cases hvalue : Xmlable value
    · by_cases hvalues : ∀ value ∈ values, Xmlable value
      · rw [if_pos hvalue, if_pos hvalues, if_pos (List.forall_mem_cons.mpr ⟨hvalue, hvalues⟩)]
        rfl
      · rw [if_pos hvalue, if_neg hvalues, if_neg fun h => hvalues (List.forall_mem_cons.mp h).2]
        rfl
    · rw [if_neg hvalue, if_neg fun h => hvalue (List.forall_mem_cons.mp h).1]
      rfl

/-- A value that does not end in a line break is captured as it is. -/
theorem captured_eq {value : String} (h : value.toList.getLast? ≠ some '\n') :
    captured value = value := by
  have hsame : commandOutput value.toList = value.toList := by
    rw [commandOutput, List.rdropWhile_eq_self_iff]
    intro hne hlast
    refine h ?_
    rw [List.getLast?_eq_some_getLast hne, eq_of_beq hlast]
  rw [captured, hsame, String.ofList_toList]

/-- A value without line breaks is passed on as it is. -/
theorem passedOn_eq {value : String} (h : ∀ c ∈ ['\r', '\n'], c ∉ value.toList) :
    passedOn value = value := by
  have hlast : value.toList.getLast? ≠ some '\n' := fun he =>
    h '\n' (by decide) (List.mem_of_getLast? he)
  have hsame := Xml.normalize_append (h '\r' (by decide)) []
  rw [List.append_nil, Xml.normalize, List.append_nil] at hsame
  rw [passedOn, captured_eq hlast, hsame, String.ofList_toList]

/-! ### What the script has checked -/

/-- What a setting is once the script has not refused it. -/
structure Checked (s : Settings) : Prop where
  label : ∀ c ∈ s.label.toList, Settings.labelCharacter c = true
  backend : s.backend ∈ ["mlx", "torch"]
  memory : s.memoryMb ≠ "" ∧ ∀ c ∈ s.memoryMb.toList, c.isDigit = true
  device : s.device ∈ ["auto", "cpu", "gpu", "mps", "cuda"]
  checkpoint : s.checkpoint ∈ ["english", "multilingual", "typed-decisions"]

/-- A refused label is one of these. -/
theorem labelCharacter_of_not_refused {text : List Char}
    (h : ¬ Settings.refusedLabels.any (Glob.accepts · text) = true) :
    ∀ c ∈ text, Settings.labelCharacter c = true := by
  simp only [Settings.refusedLabels, List.any_cons, List.any_nil, Bool.or_false, Bool.or_eq_true,
    Glob.accepts_somewhere, not_or] at h
  intro c hc
  by_contra hno
  exact h.2.1 ⟨c, hc, by simpa using hno⟩

/-- What the patterns of the memory bound say. -/
theorem refusedMemory_iff {text : List Char} :
    Settings.refusedMemory.any (Glob.accepts · text) = true ↔
      text = [] ∨ ∃ c ∈ text, c.isDigit = false := by
  simp only [Settings.refusedMemory, List.any_cons, List.any_nil, Bool.or_false, Bool.or_eq_true,
    Glob.accepts_nil, Glob.accepts_somewhere, Bool.not_eq_true']

/-- One of the patterns of a `case` was taken. -/
theorem mem_of_contains {names : List String} {name : String}
    (h : ¬ (!(names.contains name)) = true) : name ∈ names := by
  rw [Bool.not_eq_true', Bool.not_eq_false] at h
  exact List.contains_iff_mem.mp h

/-- What the script's checks make sure of. -/
theorem checked_of_refusal {s : Settings} (h : s.refusal = none) : Checked s := by
  unfold Settings.refusal at h
  split at h
  · cases h
  · rename_i hlabel
    split at h
    · cases h
    · rename_i hbackend
      split at h
      · cases h
      · rename_i hmemory
        split at h
        · cases h
        · rename_i hdevice
          split at h
          · cases h
          · rename_i hcheckpoint
            rw [refusedMemory_iff, not_or] at hmemory
            refine ⟨labelCharacter_of_not_refused hlabel, mem_of_contains hbackend, ⟨?_, ?_⟩,
              mem_of_contains hdevice, mem_of_contains hcheckpoint⟩
            · exact fun hempty => hmemory.1 (by rw [hempty]; rfl)
            · intro c hc
              by_contra hdigit
              exact hmemory.2 ⟨c, hc, by simpa using hdigit⟩

/-- An absolute path begins with a slash. -/
theorem absolute_iff {path : String} :
    Settings.absolute path = true ↔ path.toList.head? = some '/' :=
  (Glob.accepts_beginning ['/']).trans List.singleton_prefix_iff_head?_eq_some

/-- A path of the plist: absolute, and not ending in a line break. -/
structure Path (path : String) : Prop where
  head : path.toList.head? = some '/'
  last : path.toList.getLast? ≠ some '\n'

/-- A path ends as its last name does. -/
theorem last_append (dir : String) {name : String}
    (h : name.toList ≠ [] ∧ name.toList.getLast? ≠ some '\n') :
    (dir ++ name).toList.getLast? ≠ some '\n' := by
  rw [String.toList_append, List.getLast?_append_of_ne_nil _ h.1]
  exact h.2

/-- The paths among the arguments. -/
theorem paths_of_plistPaths {s : Settings} (h : s.plistPaths = none) :
    Path s.python ∧ Path s.worker ∧ Path s.modelDir := by
  unfold Settings.plistPaths at h
  split at h
  · cases h
  · rename_i hpython
    split at h
    · cases h
    · rename_i hworker
      split at h
      · cases h
      · split at h
        · cases h
        · rename_i hhome
          simp only [Bool.not_eq_true', Bool.not_eq_false, absolute_iff] at hpython hworker hhome
          refine ⟨⟨hpython, last_append _ (by decide)⟩, ⟨hworker, last_append _ (by decide)⟩,
            ?_, last_append _ (by decide)⟩
          rw [Settings.modelDir, String.toList_append, List.head?_append, hhome]
          rfl

/-- A path is passed on as an absolute one. -/
theorem Path.passedOn {path : String} (h : Path path) :
    (passedOn path).toList.head? = some '/' := by
  rw [Service.passedOn, captured_eq h.last, String.toList_ofList, Xml.head?_normalize, h.head]
  rfl

/-- A path is taken for a value. -/
theorem Path.plain {path : String} (h : Path path) :
    plainArgument (Service.passedOn path) = true := by
  rw [plainArgument, h.passedOn]
  rfl

/-- A path is not passed on as an empty value. -/
theorem Path.ne_empty {path : String} (h : Path path) : Service.passedOn path ≠ "" := by
  intro hempty
  have hhead := h.passedOn
  rw [hempty] at hhead
  exact absurd hhead (by decide)

/-! ### The command line of the plist -/

/-- The options of the command line. -/
def plistOptions (s : Settings) : List (String × String) :=
  [("bind", passedOn s.bind), ("python", passedOn s.python), ("worker-script", passedOn s.worker),
    ("model", passedOn s.modelDir), ("checkpoint", passedOn s.checkpoint),
    ("device", passedOn s.device), ("backend", passedOn s.backend), ("log", passedOn s.logFilter)]

/-- The environment of the plist. -/
def plistVariables (s : Settings) : Variables :=
  ([("HF_HOME", passedOn s.hfHomeDir), ("LAYAD_MEMORY_MB", passedOn s.memoryMb),
    ("HF_HUB_OFFLINE", "1"), ("TRANSFORMERS_OFFLINE", "1")].lookup ·)

/-- The options are passed on as they stand. -/
theorem passedOn_arguments (s : Settings) :
    ((programArguments s).map passedOn).tail = commandLine (plistOptions s) := by
  have hnames : ∀ name ∈ ["--bind", "--python", "--worker-script", "--model", "--checkpoint",
      "--device", "--backend", "--log"], passedOn name = name := by
    have hplain : ["--bind", "--python", "--worker-script", "--model", "--checkpoint", "--device",
        "--backend", "--log"].all (fun name => ['\r', '\n'].all fun c =>
          !name.toList.contains c) = true := by decide
    intro name hname
    refine passedOn_eq fun c hc => ?_
    simpa using List.all_eq_true.mp (List.all_eq_true.mp hplain name hname) c hc
  simp only [List.forall_mem_cons] at hnames
  obtain ⟨hbind, hpython, hworker, hmodel, hcheckpoint, hdevice, hbackend, hlog, -⟩ := hnames
  simp only [programArguments, List.map_cons, List.map_nil, List.tail_cons, hbind, hpython,
    hworker, hmodel, hcheckpoint, hdevice, hbackend, hlog]
  rfl

/-- The values the script takes as they are. -/
def freeValues (s : Settings) : List String := [s.root, s.bind, s.layadHomeDir, s.logFilter]

/-- Two values that may stand in a document may stand there together. -/
theorem xmlable_append {text name : String} (htext : Xmlable text) (hname : Xmlable name) :
    Xmlable (text ++ name) := by
  rw [Xmlable, String.toList_append, List.all_append, Bool.and_eq_true]
  exact ⟨htext, hname⟩

/-- The characters of a label may stand in a document. -/
theorem isChar_of_labelCharacter {c : Char} (h : Settings.labelCharacter c = true) :
    Xml.isChar c = true := by
  have hrange : 0x20 ≤ c.toNat ∧ c.toNat < 0x80 := by
    rw [Settings.labelCharacter] at h
    delta Char.isAlphanum Char.isAlpha Char.isUpper Char.isLower Char.isDigit at h
    simp only [Bool.or_eq_true, Bool.and_eq_true, decide_eq_true_eq, beq_iff_eq, ge_iff_le,
      UInt32.le_iff_toNat_le] at h
    rcases h with ((h | rfl) | rfl) | rfl
    · have hvalue : c.toNat = c.val.toNat := rfl
      have hends : 'A'.val.toNat = 65 ∧ 'Z'.val.toNat = 90 ∧ 'a'.val.toNat = 97 ∧
          'z'.val.toNat = 122 ∧ '0'.val.toNat = 48 ∧ '9'.val.toNat = 57 := by decide
      omega
    all_goals decide
  simp only [Xml.isChar, Bool.or_eq_true, Bool.and_eq_true, decide_eq_true_eq]
  omega

/-- A value of a label's characters may stand in a document. -/
theorem xmlable_of_labelCharacter {value : String}
    (h : ∀ c ∈ value.toList, Settings.labelCharacter c = true) : Xmlable value :=
  List.all_eq_true.mpr fun c hc => isChar_of_labelCharacter (h c hc)

/-- Where the values the script does not check may stand in a document, all of it is read. -/
theorem launch_of_xmlable {read : Xml.Reader} (hread : read.Documented) {s : Settings}
    (hchecked : Checked s) (h : ∀ value ∈ freeValues s, Xmlable value) :
    launch read s = some (commandLine (plistOptions s), plistVariables s) := by
  -- the values that were checked
  have hlabel := xmlable_of_labelCharacter hchecked.label
  have hmemory : Xmlable s.memoryMb := xmlable_of_labelCharacter fun c hc => by
    simp [Settings.labelCharacter, Char.isAlphanum, hchecked.memory.2 c hc]
  simp only [freeValues, List.forall_mem_cons] at h
  obtain ⟨hroot, hbind, hhome, hlog, -⟩ := h
  have hnames : (["mlx", "torch"] ++ ["auto", "cpu", "gpu", "mps", "cuda"] ++
      ["english", "multilingual", "typed-decisions"]).all fun name => decide (Xmlable name) := by
    decide
  have hname {name : String} (hmem : name ∈ ["mlx", "torch"] ++
      ["auto", "cpu", "gpu", "mps", "cuda"] ++ ["english", "multilingual", "typed-decisions"]) :
      Xmlable name := of_decide_eq_true (List.all_eq_true.mp hnames _ hmem)
  -- the arguments, and the strings beside them
  have harguments : ∀ value ∈ programArguments s, Xmlable value := by
    simp only [programArguments, List.forall_mem_cons]
    exact ⟨xmlable_append hroot (by decide), by decide, hbind, by decide,
      xmlable_append hroot (by decide), by decide, xmlable_append hroot (by decide), by decide,
      xmlable_append hhome (by decide), by decide,
      hname (List.mem_append_right _ hchecked.checkpoint), by decide,
      hname (List.mem_append_left _ (List.mem_append_right _ hchecked.device)), by decide,
      hname (List.mem_append_left _ (List.mem_append_left _ hchecked.backend)), by decide, hlog,
      by simp⟩
  have hhf : Xmlable s.hfHomeDir := xmlable_append hhome (by decide)
  have hothers : ∀ value ∈ [s.root, s.stdoutLog, s.stderrLog], Xmlable value := by
    simp only [List.forall_mem_cons]
    exact ⟨hroot, xmlable_append hhome (by decide), xmlable_append hhome (by decide), by simp⟩
  rw [launch, elementValue_eq hread, elementValue_eq hread, elementValue_eq hread,
    mapM_elementValue hread, mapM_elementValue hread, if_pos hlabel, if_pos harguments,
    if_pos hhf, if_pos hmemory, if_pos hothers, ← passedOn_arguments]
  rfl

/-- What launchd can read holds no character that may be in no document. -/
theorem xmlable_of_launch {read : Xml.Reader} (hread : read.Documented) {s : Settings}
    {launched : List String × Variables} (h : launch read s = some launched) :
    ∀ value ∈ freeValues s, Xmlable value := by
  simp only [launch, elementValue_eq hread, mapM_elementValue hread, Option.bind_eq_bind,
    Option.bind_eq_some_iff, Option.ite_none_right_eq_some] at h
  obtain ⟨-, -, -, ⟨harguments, -⟩, -, ⟨hhf, -⟩, -, -, -, ⟨hothers, -⟩, -⟩ := h
  have hhome : Xmlable s.layadHomeDir := by
    rw [Settings.hfHomeDir, Xmlable, String.toList_append, List.all_append,
      Bool.and_eq_true] at hhf
    exact hhf.1
  simp only [freeValues, List.forall_mem_cons]
  exact ⟨hothers _ (by simp), harguments _ (by simp [programArguments]), hhome,
    harguments _ (by simp [programArguments]), by simp⟩

/-- A socket address does not look like an option. -/
theorem plain_of_fromStr {text : String} {addr : SocketAddr}
    (h : SocketAddr.fromStr text = some addr) : plainArgument text = true := by
  by_contra hplain
  obtain ⟨rest, hrest⟩ : ∃ rest, text.toList = '-' :: rest := by
    rw [← List.head?_eq_some_iff]
    by_contra hhead
    exact hplain (by simp [plainArgument, hhead])
  -- neither an octet nor a bracket begins with a hyphen
  have hdigit : SocketAddr.toDigit 10 '-' = none := by decide
  have hnone : SocketAddr.fromStr text = none := by
    simp [SocketAddr.fromStr, hrest, SocketAddr.readSocketAddrV4, SocketAddr.readIpv4Addr,
      SocketAddr.readSeparator, SocketAddr.readNumber, hdigit, SocketAddr.readSocketAddrV6,
      SocketAddr.readGivenChar]
  rw [hnone] at h
  cases h

/-- What clap makes of it. -/
def plistCli (copies : LocalCopies) (s : Settings) (checkpoint : Checkpoint) (device : Device)
    (backend : Backend) : Cli :=
  { Cli.defaults copies (plistVariables s) with
    bind := passedOn s.bind
    python := passedOn s.python
    workerScript := passedOn s.worker
    model := passedOn s.modelDir
    checkpoint
    device
    backend
    log := passedOn s.logFilter }

/-- The memory bound comes from the plist's environment. -/
theorem memoryMb_plistCli {copies : LocalCopies} {s : Settings} {checkpoint : Checkpoint}
    {device : Device} {backend : Backend} (bind : SocketAddr)
    (pythonEnv : List (String × String)) :
    ((plistCli copies s checkpoint device backend).config bind pythonEnv).memoryMb =
      defaultMemoryMb (plistVariables s) := by
  rw [Cli.config, plistCli, Cli.defaults]

/-- The pairs the daemon refuses. -/
def mismatched : List (String × String) := [("mlx", "mps"), ("mlx", "cuda"), ("torch", "gpu")]

/-- The names the script admits are names of the daemon's, which checks the pair. -/
theorem names_of_checked {s : Settings} (h : Checked s) : ∃ checkpoint device backend,
    Checkpoint.ofName (passedOn s.checkpoint) = some checkpoint ∧
      Device.ofName (passedOn s.device) = some device ∧
      Backend.ofName (passedOn s.backend) = some backend ∧
      (Config.validateDevice backend device = .ok () ↔ (s.backend, s.device) ∉ mismatched) := by
  have hall : ["english", "multilingual", "typed-decisions"].all
      (fun name => (Checkpoint.ofName (passedOn name)).isSome) = true := by decide
  obtain ⟨checkpoint, hcheckpoint⟩ :=
    Option.isSome_iff_exists.mp (List.all_eq_true.mp hall _ h.checkpoint)
  have hdevice := h.device
  have hbackend := h.backend
  simp only [List.mem_cons, List.not_mem_nil, or_false] at hdevice hbackend
  rcases hbackend with hbackend | hbackend
  all_goals
    rcases hdevice with hdevice | hdevice | hdevice | hdevice | hdevice
    all_goals
      rw [hdevice, hbackend]
      refine ⟨checkpoint, _, _, hcheckpoint, rfl, rfl, ?_⟩
      first
        | exact iff_of_true rfl (by decide)
        | exact iff_of_false (by simp [Config.validateDevice]) (by decide)

/-- A name the script admits is plain if they all are. -/
theorem plain_of_mem {names : List String} {name : String} (h : name ∈ names)
    (hall : names.all (fun name => plainArgument (passedOn name)) = true) :
    plainArgument (passedOn name) = true :=
  List.all_eq_true.mp hall name h

/-- The values that are not paths are plain if the two free ones are. -/
theorem plain_options {s : Settings} (hchecked : Checked s) (hpaths : s.plistPaths = none)
    (hbind : plainArgument (passedOn s.bind) = true)
    (hlog : plainArgument (passedOn s.logFilter) = true) :
    ∀ option ∈ plistOptions s, plainArgument option.2 = true := by
  obtain ⟨hpython, hworker, hmodel⟩ := paths_of_plistPaths hpaths
  have hcheckpoint := plain_of_mem hchecked.checkpoint (by decide)
  have hdevice := plain_of_mem hchecked.device (by decide)
  have hbackend := plain_of_mem hchecked.backend (by decide)
  simp only [plistOptions, List.forall_mem_cons]
  exact ⟨hbind, hpython.plain, hworker.plain, hmodel.plain, hcheckpoint, hdevice, hbackend, hlog,
    by simp⟩

/-- None of the variables that stand in for an option is in the plist. -/
theorem plistVariables_fallback (s : Settings) : ∀ name ∈ Cli.fallbacks,
    plistVariables s name = none := by
  intro name hname
  have hkeys : ∀ name ∈ Cli.fallbacks,
      name ∉ ["HF_HOME", "LAYAD_MEMORY_MB", "HF_HUB_OFFLINE", "TRANSFORMERS_OFFLINE"] := by decide
  rw [plistVariables, List.lookup_eq_none_iff]
  intro entry hentry
  rw [bne_iff_ne]
  rintro rfl
  exact hkeys _ hname (List.mem_map.mpr ⟨entry, hentry, rfl⟩)

/-- What clap makes of the command line. -/
theorem parse_plist {parse : ArgumentParser} {copies : LocalCopies}
    (hclap : parse.Documented copies) {s : Settings} (hpaths : s.plistPaths = none)
    (hplain : ∀ option ∈ plistOptions s, plainArgument option.2 = true)
    {checkpoint : Checkpoint} {device : Device} {backend : Backend}
    (hcheckpoint : Checkpoint.ofName (passedOn s.checkpoint) = some checkpoint)
    (hdevice : Device.ofName (passedOn s.device) = some device)
    (hbackend : Backend.ofName (passedOn s.backend) = some backend) :
    parse (commandLine (plistOptions s)) (plistVariables s) =
      some (plistCli copies s checkpoint device backend) := by
  obtain ⟨hpython, hworker, hmodel⟩ := paths_of_plistPaths hpaths
  have hnodup : ((plistOptions s).map Prod.fst).Nodup :=
    show ["bind", "python", "worker-script", "model", "checkpoint", "device", "backend",
      "log"].Nodup by decide
  have hnames : ∀ option ∈ plistOptions s, option.1 ∈ Cli.options := by
    simp only [plistOptions, List.forall_mem_cons]
    decide
  rw [hclap.takes _ _ hnames hnodup hplain (plistVariables_fallback s)]
  simp [plistOptions, Cli.set, hcheckpoint, hdevice, hbackend, hpython.ne_empty, plistCli]

/-- **The configuration clap's options make is valid** if the address is a loopback one, the
    pair of backend and device matches and the budget is one the daemon takes. -/
theorem tryFrom_plistCli {host : Host} {copies : LocalCopies} {s : Settings}
    (hpaths : s.plistPaths = none) {checkpoint : Checkpoint} {device : Device}
    {backend : Backend} :
    (∃ config, Config.tryFrom host (plistCli copies s checkpoint device backend) = .ok config ∧
        config.memoryMb = ofDecimal s.memoryMb.toList) ↔
      (∃ addr, SocketAddr.fromStr (passedOn s.bind) = some addr ∧ addr.ip.isLoopback = true) ∧
        Config.validateDevice backend device = .ok () ∧
        (defaultMemoryMb (plistVariables s) ≠ 0 →
          minMemoryMb ≤ defaultMemoryMb (plistVariables s)) ∧
        defaultMemoryMb (plistVariables s) = ofDecimal s.memoryMb.toList := by
  have hpython := (paths_of_plistPaths hpaths).1.ne_empty
  constructor
  · rintro ⟨config, hconfig, hmemory⟩
    obtain ⟨addr, pythonEnv, haddr, -, hvalid, rfl⟩ := Config.tryFrom_ok.mp hconfig
    obtain ⟨hloopback, -, -, -, -, hbudget, -, -, hdevice⟩ := Config.validate_ok.mp hvalid
    rw [memoryMb_plistCli] at hbudget hmemory
    exact ⟨⟨addr, haddr, hloopback⟩, hdevice, hbudget, hmemory⟩
  · rintro ⟨⟨addr, haddr, hloopback⟩, hdevice, hbudget, hmemory⟩
    rw [← memoryMb_plistCli addr []] at hbudget hmemory
    refine ⟨_, Config.tryFrom_ok.mpr ⟨addr, [], haddr, rfl, ?_, rfl⟩, hmemory⟩
    obtain ⟨hbody, hquestions, hconcurrent, hresponse⟩ :=
      Cli.limits_defaults copies (plistVariables s)
    exact Config.validate_ok.mpr ⟨hloopback, hbody, hquestions, hconcurrent, hresponse, hbudget,
      rfl, hpython, hdevice⟩

/-! ### Starting -/

/-- The daemon accepts what the plist passes on, with the budget pinned there. -/
def Starts (host : Host) (read : Xml.Reader) (parse : ArgumentParser) (s : Settings) : Prop :=
  ∃ launched cli config, launch read s = some launched ∧
    parse launched.1 launched.2 = some cli ∧ Config.tryFrom host cli = .ok config ∧
    config.memoryMb = ofDecimal s.memoryMb.toList

/-- What the script does not check. -/
structure Startable (s : Settings) : Prop where
  xml : ∀ value ∈ freeValues s, Xmlable value
  bind : ∃ addr, SocketAddr.fromStr (passedOn s.bind) = some addr ∧ addr.ip.isLoopback = true
  device : (s.backend, s.device) ∉ mismatched
  memory : ofDecimal s.memoryMb.toList = 0 ∨
    minMemoryMb ≤ ofDecimal s.memoryMb.toList ∧ ofDecimal s.memoryMb.toList < 2 ^ 64
  log : plainArgument (passedOn s.logFilter) = true

/-- The daemon's two conditions on the budget, as one on the number. -/
theorem budget_iff {s : Settings} (h : Checked s) :
    ((defaultMemoryMb (plistVariables s) ≠ 0 →
          minMemoryMb ≤ defaultMemoryMb (plistVariables s)) ∧
        defaultMemoryMb (plistVariables s) = ofDecimal s.memoryMb.toList) ↔
      (ofDecimal s.memoryMb.toList = 0 ∨
        minMemoryMb ≤ ofDecimal s.memoryMb.toList ∧
          ofDecimal s.memoryMb.toList < 2 ^ 64) := by
  -- digits are passed on as they are
  have hbreaks : ∀ c ∈ ['\r', '\n'], c ∉ s.memoryMb.toList := by
    intro c hc hmem
    have hdigit := h.memory.2 c hmem
    simp only [List.mem_cons, List.not_mem_nil, or_false] at hc
    rcases hc with rfl | rfl
    all_goals exact absurd hdigit (by decide)
  have hvariable : plistVariables s "LAYAD_MEMORY_MB" = some s.memoryMb := by
    have helement : plistVariables s "LAYAD_MEMORY_MB" = some (passedOn s.memoryMb) := rfl
    rw [helement, passedOn_eq hbreaks]
  have hpinned := defaultMemoryMb_eq_iff hvariable h.memory.1 h.memory.2
  constructor
  · rintro ⟨hbudget, hsame⟩
    rw [hsame] at hbudget
    by_cases hzero : ofDecimal s.memoryMb.toList = 0
    · exact .inl hzero
    · exact .inr ⟨hbudget hzero, hpinned.mp hsame⟩
  · -- the script allows zero, which switches the budget off
    rintro (hzero | ⟨hmin, hfits⟩)
    · have hsame := hpinned.mpr (by rw [hzero]; decide)
      rw [hsame]
      exact ⟨fun hne => absurd hzero hne, rfl⟩
    · have hsame := hpinned.mpr hfits
      rw [hsame]
      exact ⟨fun _ => hmin, rfl⟩

/-- With both free values plain, starting is `tryFrom` on what clap makes of the plist. -/
theorem starts_iff_tryFrom {host : Host} {read : Xml.Reader} (hread : read.Documented)
    {parse : ArgumentParser} {copies : LocalCopies} (hclap : parse.Documented copies)
    {s : Settings} (hchecked : Checked s) (hpaths : s.plistPaths = none)
    (hxml : ∀ value ∈ freeValues s, Xmlable value)
    (hbind : plainArgument (passedOn s.bind) = true)
    (hlog : plainArgument (passedOn s.logFilter) = true) {checkpoint : Checkpoint}
    {device : Device} {backend : Backend}
    (hcheckpoint : Checkpoint.ofName (passedOn s.checkpoint) = some checkpoint)
    (hdevice : Device.ofName (passedOn s.device) = some device)
    (hbackend : Backend.ofName (passedOn s.backend) = some backend) :
    Starts host read parse s ↔ ∃ config,
      Config.tryFrom host (plistCli copies s checkpoint device backend) = .ok config ∧
        config.memoryMb = ofDecimal s.memoryMb.toList := by
  have hplain := plain_options hchecked hpaths hbind hlog
  have hparse := parse_plist hclap hpaths hplain hcheckpoint hdevice hbackend
  rw [Starts, launch_of_xmlable hread hchecked hxml]
  simp only [Option.some.injEq, exists_eq_left', exists_and_left, hparse]

/-- A service that starts is given values, not options. -/
theorem plain_of_starts {host : Host} {read : Xml.Reader} (hread : read.Documented)
    {parse : ArgumentParser} {copies : LocalCopies} (hclap : parse.Documented copies)
    {s : Settings} (hchecked : Checked s) (h : Starts host read parse s) :
    ∀ option ∈ plistOptions s, plainArgument option.2 = true := by
  intro option hoption
  by_contra hnot
  have hnames : ∀ option ∈ plistOptions s,
      option.1 ∈ Cli.options ∧ option.1 ≠ "worker-arg" := by
    simp only [plistOptions, List.forall_mem_cons]
    decide
  have hnone := hclap.refuses (plistOptions s) (plistVariables s) hnames
    ⟨option, hoption, by simpa using hnot⟩
  obtain ⟨launched, cli, config, hlaunch, hcli, -⟩ := h
  rw [launch_of_xmlable hread hchecked (xmlable_of_launch hread hlaunch)] at hlaunch
  obtain rfl := Option.some.inj hlaunch
  rw [hnone] at hcli
  cases hcli

/-- A service that starts meets the conditions. -/
theorem startable_of_starts {host : Host} {read : Xml.Reader} (hread : read.Documented)
    {parse : ArgumentParser} {copies : LocalCopies} (hclap : parse.Documented copies)
    {s : Settings} (hchecked : Checked s) (hpaths : s.plistPaths = none)
    (hstarts : Starts host read parse s) : Startable s := by
  obtain ⟨checkpoint, device, backend, hcheckpoint, hdevice, hbackend, hpair⟩ :=
    names_of_checked hchecked
  obtain ⟨launched, -, -, hlaunch, -⟩ := id hstarts
  have hxml := xmlable_of_launch hread hlaunch
  have hplain := plain_of_starts hread hclap hchecked hstarts
  simp only [plistOptions, List.forall_mem_cons] at hplain
  obtain ⟨hbind, -, -, -, -, -, -, hlog, -⟩ := hplain
  obtain ⟨haddr, hdevices, hbudget⟩ := (tryFrom_plistCli hpaths).mp
    ((starts_iff_tryFrom hread hclap hchecked hpaths hxml hbind hlog hcheckpoint hdevice
      hbackend).mp hstarts)
  exact ⟨hxml, haddr, hpair.mp hdevices, (budget_iff hchecked).mp hbudget, hlog⟩

/-- A service that meets the conditions starts. -/
theorem starts_of_startable {host : Host} {read : Xml.Reader} (hread : read.Documented)
    {parse : ArgumentParser} {copies : LocalCopies} (hclap : parse.Documented copies)
    {s : Settings} (hchecked : Checked s) (hpaths : s.plistPaths = none) (h : Startable s) :
    Starts host read parse s := by
  obtain ⟨checkpoint, device, backend, hcheckpoint, hdevice, hbackend, hpair⟩ :=
    names_of_checked hchecked
  obtain ⟨hxml, ⟨addr, haddr, hloopback⟩, hdevices, hmemory, hlog⟩ := h
  have hbind := plain_of_fromStr haddr
  exact (starts_iff_tryFrom hread hclap hchecked hpaths hxml hbind hlog hcheckpoint hdevice
    hbackend).mpr ((tryFrom_plistCli hpaths).mpr
      ⟨⟨addr, haddr, hloopback⟩, hpair.mpr hdevices, (budget_iff hchecked).mpr hmemory⟩)

/-- **What the script installs starts just if it is `Startable`**, with the pinned budget. -/
theorem installed_starts_iff {host : Host} {read : Xml.Reader} (hread : read.Documented)
    {parse : ArgumentParser} {copies : LocalCopies} (hclap : parse.Documented copies)
    (e : Environment) (hscript : e.settings.refusal = none)
    (hpaths : e.settings.plistPaths = none) :
    Starts host read parse e.settings ↔ Startable e.settings :=
  ⟨startable_of_starts hread hclap (checked_of_refusal hscript) hpaths,
    starts_of_startable hread hclap (checked_of_refusal hscript) hpaths⟩

/-- A checkout whose environment sets the backend and the device, or nothing. -/
def checkoutOn (backend device : Option String) : Environment :=
  ⟨"/opt/layad", "/Users/me", none, none, backend, device, none, none, none, none, none⟩

/-- A service with the script's own defaults starts. -/
theorem installed_starts_iff_defaults :
    Starts Replay.host Xml.strict (optionReader ⟨true, true⟩) (checkoutOn none none).settings := by
  have hbind : passedOn (checkoutOn none none).settings.bind = "127.0.0.1:8787" := by
    decide +kernel
  have haddr : SocketAddr.fromStr "127.0.0.1:8787" = some ⟨.v4 127 0 0 1, 0, 8787⟩ := by
    decide +kernel
  refine (installed_starts_iff Xml.strict_documented (optionReader_documented _)
    (checkoutOn none none) (by decide +kernel) (by decide +kernel)).mpr ⟨?_, ?_, ?_, ?_, ?_⟩
  · decide +kernel
  · exact ⟨_, hbind ▸ haddr, rfl⟩
  · decide +kernel
  · decide +kernel
  · decide +kernel

/-- The script installs a service for the device of the other backend, which no parser of
    the command line lets start. -/
theorem mismatched_device_installed :
    (checkoutOn (some "torch") (some "gpu")).settings.refusal = none ∧
      (checkoutOn (some "torch") (some "gpu")).settings.plistPaths = none ∧
      ¬ Starts Replay.host Xml.strict (optionReader ⟨true, true⟩)
        (checkoutOn (some "torch") (some "gpu")).settings := by
  have hscript : (checkoutOn (some "torch") (some "gpu")).settings.refusal = none := by
    decide +kernel
  have hpaths : (checkoutOn (some "torch") (some "gpu")).settings.plistPaths = none := by
    decide +kernel
  refine ⟨hscript, hpaths, fun hstarts => ?_⟩
  have hstartable := startable_of_starts Xml.strict_documented (optionReader_documented _)
    (checked_of_refusal hscript) hpaths hstarts
  exact hstartable.device (by decide)

end Layad.Service
