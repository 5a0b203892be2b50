import Layad.Python.Frames

namespace Layad

/-!
# The start of the worker

`main` of `worker.py` up to the loop of `serve`: the checkpoint is loaded, the memory budget
applied, a warm-up pass made, and one frame says how it went.  The daemon reads in the ready
frame what the worker reports (`Worker.parseReady_ready`), and in any other the text of what
went wrong (`Worker.parseReady_failure`).
-/

/-- The parsed arguments of the worker. -/
structure Args where
  model : PyStr
  backend : PyStr
  device : PyStr
  subfolder : Option PyStr
  memoryMb : Int
  noWarmup : Bool

/-- An exception: the name of its class and its own text. -/
structure Exc where
  name : PyStr
  text : PyStr

/-- `f"{type(err).__name__}: {err}"`. -/
def Exc.display (err : Exc) : PyStr := err.name ++ .ofString ": " ++ err.text

/-- `mlx.core` as the memory budget uses it; what is not callable is missing. -/
structure Mlx where
  imported : Except Exc Unit
  getActiveMemory : Option (Except Exc Int)
  setWiredLimit : Option (Int → Except Exc Unit)
  setCacheLimit : Int → Except Exc Unit
  clearCache : Option (Except Exc Unit)

/-- An attribute that `device_label` looks at: a string, or another object by its `str`. -/
structure DeviceAttr where
  isStr : Bool
  text : PyStr

/-- The device of an agent: two attributes and its own `str`. -/
structure DeviceObj where
  type : Option DeviceAttr
  device : Option DeviceAttr
  text : PyStr

/-- The process the worker runs in: `sys.modules` by the versions of the modules that have one,
    and `str` of an exception of the agent. -/
structure Runtime where
  pid : Nat
  version : String → Option PyStr
  pythonVersion : PyStr
  strOf : Raised → PyStr

/-- What the worker finds when it starts: the agent that is loaded, with its device. -/
structure Startup (σ : Type) where
  load : Except Exc σ
  mlx : Mlx
  device : Option DeviceObj

namespace Worker

/-! ### The memory budget -/

/-- Cache the worker keeps even when the budget is tiny. -/
def minCacheMb : Int := 128

/-- The least cache limit, in bytes. -/
def mlxMinCacheBytes : Int := minCacheMb * 1024 * 1024

/-- Interpreter, imported stack and allocator slack. -/
def processOverheadMb : Int := 384

/-- `_reported_accelerator_bytes`. -/
def reportedAcceleratorBytes (mlx : Mlx) : Option Int :=
  mlx.getActiveMemory.bind Except.toOption

/-- The limits `apply_memory_budget` has set. -/
structure Limits where
  wired : Option Int
  cache : Int

/-- `apply_memory_budget`; nothing where the allocator is left alone. -/
def applyMemoryBudget (args : Args) (mlx : Mlx) : Except Exc (Option Limits) :=
  if args.backend ≠ .ofString "mlx" then .ok none
  else if args.memoryMb ≤ 0 then .ok none
  else do
    mlx.imported
    let budget := args.memoryMb * 1024 * 1024
    let overhead := processOverheadMb * 1024 * 1024
    let held := (reportedAcceleratorBytes mlx).getD 0
    let cacheLimit := max mlxMinCacheBytes (budget - overhead - held)
    let wiredLimit := max (held + mlxMinCacheBytes) (budget - overhead)
    -- a wired limit that cannot be set is only logged
    let wired := mlx.setWiredLimit.bind fun setWired =>
      ((setWired wiredLimit).toOption).map fun _ => wiredLimit
    mlx.setCacheLimit cacheLimit
    mlx.clearCache.getD (.ok ())
    .ok (some ⟨wired, cacheLimit⟩)

/-! ### The device -/

/-- `str.rstrip()`. -/
def rstrip (s : PyStr) : PyStr := (s.reverse.dropWhile PyStr.isSpace).reverse

/-- `str.rindex` of a character that is there. -/
def rindex (c : Char) (s : PyStr) : Nat := s.length - 1 - s.reverse.idxOf (PyStr.ofChar c)

/-- `text[i:j]`. -/
def slice (i j : Nat) (s : PyStr) : PyStr := (s.take j).drop i

/-- `text or "unknown"`. -/
def orUnknown (text : PyStr) : PyStr := if text.isEmpty then .ofString "unknown" else text

/-- `_plain_device_name`. -/
def plainDeviceName (text : PyStr) : PyStr :=
  orUnknown
    (if text.contains (PyStr.ofChar '(') ∧ (rstrip text).getLast? = some (PyStr.ofChar ')') then
      let inner := slice (text.idxOf (PyStr.ofChar '(') + 1) (rindex ')' text) text
      PyStr.strip (inner.takeWhile (· ≠ PyStr.ofChar ','))
    else if text.contains (PyStr.ofChar '.') then
      (text.reverse.takeWhile (· ≠ PyStr.ofChar '.')).reverse
    else text)

/-- `_looks_like_repr`. -/
def looksLikeRepr (text : PyStr) : Bool := (PyStr.ofString "Device(").isPrefixOf text

/-- One turn of the loop of `device_label`. -/
def candidateName (candidate : DeviceAttr) : Option PyStr :=
  if !candidate.isStr && looksLikeRepr candidate.text then none
  else if candidate.text.isEmpty then none
  else some (plainDeviceName candidate.text)

/-- `device_label`. -/
def deviceLabel : Option DeviceObj → PyStr
  | none => .ofString "unknown"
  | some value =>
    ((value.type.bind candidateName).orElse fun _ => value.device.bind candidateName).getD
      (plainDeviceName value.text)

/-! ### The warm-up -/

/-- `WARMUP_STATE`. -/
def warmupState : PyVal :=
  .text ("Customer: I was charged twice for my subscription and nobody has replied " ++
    "to my emails for a week. I want this fixed today.")

/-- `WARMUP_QUESTIONS`. -/
def warmupQuestions : List (String × PyVal) :=
  [("intent", dict [("type", .text "choice"),
      ("instructions", .text "What does the customer want?"),
      ("criteria", dict [("refund", .text "a refund for the duplicate charge"),
        ("cancel", .text "to cancel the subscription"), ("other", .text "something else")])]),
    ("urgency", dict [("type", .text "score"),
      ("instructions", .text "How urgent is this request?"),
      ("criteria", .list [.text "not urgent", .text "somewhat urgent", .text "very urgent"])]),
    ("human", dict [("type", .text "noul"),
      ("instructions", .text "Does the customer want to speak to a human agent?")])]

/-- `WARMUP_QUESTIONS[name]["type"]`. -/
def questionType : PyVal → PyVal
  | .dict members => PyVal.get members "type"
  | _ => .null

/-- `Worker.warmup`: the types of the questions that were asked. -/
def warmup {σ : Type} (args : Args) (agent : Agent σ) (s : σ) : Except Raised (List PyVal) × σ :=
  if args.noWarmup then (.ok [], s)
  else
    let questions := warmupQuestions.map fun m => (PyStr.ofString m.1, m.2)
    match agent.predict s warmupState questions with
    | (.ok _, t) => (.ok (warmupQuestions.map fun m => questionType m.2), t)
    | (.error err, t) => (.error err, t)

/-! ### The first frame -/

/-- `PROTOCOL_VERSION`. -/
def protocolVersion : Int := 1

/-- The frame of a start that failed. -/
def failureFrame (rt : Runtime) (code : String) (message : PyStr) : PyVal :=
  dict [("ready", .bool false), ("protocol", .int protocolVersion), ("pid", .int rt.pid),
    ("error", dict [("code", .text code), ("message", .str message)])]

/-- `module_version`. -/
def moduleVersion (rt : Runtime) (name : String) : PyStr :=
  (rt.version name).getD (.ofString "unknown")

/-- `backend_version`. -/
def backendVersion (rt : Runtime) (backend : PyStr) : PyStr :=
  let names := if backend = .ofString "mlx" then ["laya_mlx", "mlx.core"] else ["laya", "torch"]
  ((names.map (moduleVersion rt)).find? (· ≠ .ofString "unknown")).getD (.ofString "unknown")

/-- `args.subfolder or "english"`. -/
def checkpointName (args : Args) : PyStr :=
  match args.subfolder with
  | some name => if name.isEmpty then .ofString "english" else name
  | none => .ofString "english"

/-- The members of the ready frame. -/
def readyMembers (rt : Runtime) (args : Args) (device : PyStr) (warmup : List PyVal) :
    List (String × PyVal) :=
  [("ready", .bool true), ("protocol", .int protocolVersion), ("pid", .int rt.pid),
    ("model", .str args.model), ("checkpoint", .str (checkpointName args)),
    ("device", .str device), ("requested_device", .str args.device),
    ("backend", .str args.backend),
    ("laya_version", .str (backendVersion rt args.backend)),
    ("mlx_version", .str (moduleVersion rt "mlx.core")),
    ("python_version", .str rt.pythonVersion),
    ("warmup", .list warmup), ("memory_budget_mb", .int args.memoryMb)]

/-- The ready frame. -/
def readyFrame (rt : Runtime) (args : Args) (device : PyStr) (warmup : List PyVal) : PyVal :=
  dict (readyMembers rt args device warmup)

/-- How the start went, with the frame that says so. -/
inductive Started (σ : Type) where
  | ready (frame : PyVal) (agent : σ)
  | failed (frame : PyVal)

/-- `main`, up to the loop of `serve`. -/
def main {σ : Type} (rt : Runtime) (args : Args) (agent : Agent σ) (startup : Startup σ) :
    Started σ :=
  match startup.load with
  | .error err => .failed (failureFrame rt "load_failed" err.display)
  | .ok s =>
    match applyMemoryBudget args startup.mlx with
    | .error err =>
      .failed (failureFrame rt "load_failed"
        (.ofString "memory budget could not be applied: " ++ err.display))
    | .ok _ =>
      match warmup args agent s with
      | (.error err, _) =>
        .failed (failureFrame rt "warmup_failed" (.ofString "warmup failed: " ++ rt.strOf err))
      | (.ok warmup, s) => .ready (readyFrame rt args (deviceLabel startup.device) warmup) s

/-! ### What the daemon reads -/

/-- The names of the question types that the warm-up pass has asked. -/
def warmupNames (args : Args) : List String :=
  if args.noWarmup then [] else ["choice", "score", "noul"]

/-- A warm-up that returns has asked for the types of `warmupNames`. -/
theorem warmup_ok {σ : Type} {args : Args} {agent : Agent σ} {s t : σ} {types : List PyVal}
    (h : warmup args agent s = (.ok types, t)) : types = (warmupNames args).map PyVal.text := by
  unfold warmup at h
  unfold warmupNames
  split at h
  · rename_i hno
    rw [if_pos hno]
    cases h
    rfl
  · rename_i hno
    rw [if_neg hno]
    dsimp only at h
    split at h
    · cases h
      rfl
    · cases h

/-- A text, or a default if it is empty. -/
def orDefault (text default : String) : String := if text.isEmpty then default else text

/-- What the worker reports about itself. -/
def reported (rt : Runtime) (args : Args) (device : PyStr) : WorkerInfo where
  pid := rt.pid
  model := args.model.text
  checkpoint := orDefault (checkpointName args).text "english"
  device := orDefault device.text "unknown"
  requestedDevice := args.device.text
  backend := args.backend.text
  layaVersion := (backendVersion rt args.backend).text
  warmup := warmupNames args

variable {host : Host} {f64Text : String → Option String} {rt : Runtime} {args : Args}

/-- Names are read as strings. -/
theorem itemsToJson_text : ∀ names : List String,
    Document.itemsToJson f64Text (PyVal.documentItems (names.map PyVal.text)) =
      some (names.map Json.str)
  | [] => rfl
  | name :: rest => by
    rw [List.map_cons, PyVal.documentItems, List.map_cons]
    exact Document.itemsToJson_cons.mpr ⟨.str name, _, by
      rw [PyVal.text, PyVal.document, PyStr.text_ofString]
      rfl, itemsToJson_text rest, rfl⟩

/-- All of them are strings. -/
theorem filterMap_asStr (names : List String) :
    (names.map Json.str).filterMap Json.asStr = names := by
  rw [List.filterMap_map]
  exact List.filterMap_some

/-- A ready frame with a pid is taken just if its device is known. -/
theorem parseReady_true {value : Json} {pid : Nat}
    (hready : (value.get "ready").bind Json.asBool = some true) (hid : carriesId value = false)
    (hget : (value.get "pid").bind Json.asU64 = some pid) (hpos : 0 < pid)
    (hmax : pid ≤ 2 ^ 32 - 1) :
    parseReady value =
      if (WorkerInfo.fromReady value).device.isEmpty ||
          (WorkerInfo.fromReady value).device = "unknown" then
        .error "ready frame is missing the actual device"
      else .ok (WorkerInfo.fromReady value) := by
  rw [parseReady, hready]
  dsimp only
  rw [hid, hget, Option.any_some, if_neg Bool.false_ne_true, decide_eq_true hpos,
    decide_eq_true hmax]
  rfl

/-- **The daemon takes the ready frame for what the worker reports**, unless the device is
    unknown. -/
theorem parseReady_ready {device : PyStr} (hpid : 0 < rt.pid ∧ rt.pid < 2 ^ 32) {value : Json}
    (h : (readyFrame rt args device ((warmupNames args).map PyVal.text)).document.toJson
      f64Text = some value) :
    carriesId value = false ∧ (value.get "id").isNone = true ∧
      parseReady value =
        if (reported rt args device).device = "unknown" then
          .error "ready frame is missing the actual device"
        else .ok (reported rt args device) := by
  -- the fields of the frame, one by one
  have hget := get_dict (by simp [readyMembers, Json.keys]) h
  have hstr : ∀ {key : String} {text : PyStr},
      (readyMembers rt args device ((warmupNames args).map PyVal.text)).lookup key =
        some (.str text) → value.get key = some (.str text.text) := by
    intro key text hlookup
    rw [hget, hlookup, Option.bind_some, PyVal.document, Document.toJson]
  have hready : value.get "ready" = some (.bool true) := by
    rw [hget, show List.lookup "ready" _ = some (PyVal.bool true) from rfl]
    rfl
  have hid : value.get "id" = none := by
    rw [hget, show List.lookup "id" _ = none from rfl, Option.bind_none]
  have hpidget : value.get "pid" = some (.int rt.pid) := by
    have hrange : (-2 ^ 63 : Int) ≤ rt.pid ∧ (rt.pid : Int) < 2 ^ 64 := by omega
    rw [hget, show List.lookup "pid" _ = some (PyVal.int rt.pid) from rfl, Option.bind_some,
      PyVal.document, Document.toJson, if_pos hrange]
  have hwarmup : value.get "warmup" = some (.arr ((warmupNames args).map Json.str)) := by
    rw [hget, show List.lookup "warmup" _ =
      some (PyVal.list ((warmupNames args).map PyVal.text)) from rfl, Option.bind_some,
      PyVal.document, Document.toJson, itemsToJson_text, Option.map_some]
  have hmodel : value.get "model" = some (.str args.model.text) := hstr rfl
  have hcheckpoint : value.get "checkpoint" = some (.str (checkpointName args).text) := hstr rfl
  have hdevice : value.get "device" = some (.str device.text) := hstr rfl
  have hrequested : value.get "requested_device" = some (.str args.device.text) := hstr rfl
  have hbackend : value.get "backend" = some (.str args.backend.text) := hstr rfl
  have hversion : value.get "laya_version" = some (.str (backendVersion rt args.backend).text) :=
    hstr rfl
  have hasU64 : Json.asU64 (.int rt.pid) = some rt.pid := by
    have hrange : (0 : Int) ≤ rt.pid ∧ (rt.pid : Int) < 2 ^ 64 := by omega
    rw [Json.asU64, if_pos hrange, Int.toNat_natCast]
  -- the pid has 32 bits, as the daemon reads it
  have hpid32 : (((value.get "pid").bind Json.asU64).getD 0) % 2 ^ 32 = rt.pid := by
    rw [hpidget, Option.bind_some, hasU64, Option.getD_some]
    omega
  -- so the daemon reads what the worker reported
  have hinfo : WorkerInfo.fromReady value = reported rt args device := by
    rw [WorkerInfo.fromReady, hpid32, reported, orDefault, orDefault]
    simp only [WorkerInfo.text, hwarmup, hmodel, hcheckpoint, hdevice, hrequested, hbackend,
      hversion, Option.bind_some, Option.map_some, Option.getD_some, Json.asStr, Json.asArray,
      filterMap_asStr]
  have hnoid : carriesId value = false := by rw [carriesId, hid]; rfl
  refine ⟨hnoid, by rw [hid]; rfl, ?_⟩
  have hnonempty : (reported rt args device).device.isEmpty = false := by
    unfold reported orDefault
    dsimp only
    split
    · rfl
    · exact Bool.eq_false_iff.mpr ‹_›
  have hmax : rt.pid ≤ 2 ^ 32 - 1 := by omega
  rw [parseReady_true (by rw [hready]; rfl) hnoid (by rw [hpidget, Option.bind_some, hasU64])
    hpid.1 hmax, hinfo, hnonempty]
  simp only [Bool.false_or, decide_eq_true_eq]

/-- **The daemon takes the frame of a start that failed for the message it carries.** -/
theorem parseReady_failure {code : String} {message : PyStr} {value : Json}
    (h : (failureFrame rt code message).document.toJson f64Text = some value) :
    carriesId value = false ∧ (value.get "id").isNone = true ∧
      parseReady value = .error message.text := by
  have hkeys : (Json.keys [("ready", PyVal.bool false), ("protocol", .int protocolVersion),
      ("pid", .int rt.pid),
      ("error", dict [("code", .text code), ("message", .str message)])]).Nodup := by
    simp [Json.keys]
  have hget := get_dict hkeys h
  have hready : value.get "ready" = some (.bool false) := by rw [hget]; rfl
  have hid : value.get "id" = none := by rw [hget]; rfl
  have herror : (value.get "error").bind (·.get "message") = some (.str message.text) := by
    have herr := hget "error"
    cases he : (dict [("code", .text code), ("message", .str message)]).document.toJson
        f64Text with
    | none => simp [document_dict, documents, PyVal.text, PyVal.document, Document.toJson,
        Document.membersToJson] at he
    | some error =>
      have herr : value.get "error" = some error := by
        rw [herr, ← he]
        rfl
      rw [herr, Option.bind_some, get_dict (by simp [Json.keys]) he]
      rfl
  refine ⟨by rw [carriesId, hid]; rfl, by rw [hid]; rfl, ?_⟩
  simp only [parseReady, hready, herror, Option.bind_some, Json.asBool, Json.asStr,
    Option.getD_some]

/-- The frame of a start. -/
def Started.frame {σ : Type} : Started σ → PyVal
  | .ready frame _ | .failed frame => frame

/-- What a start tells the daemon: why it failed, or what the worker is. -/
def greeting {σ : Type} (rt : Runtime) (args : Args) (agent : Agent σ) (startup : Startup σ) :
    Except String WorkerInfo :=
  match startup.load with
  | .error err => .error err.display.text
  | .ok s =>
    match applyMemoryBudget args startup.mlx with
    | .error err =>
      .error (PyStr.text (.ofString "memory budget could not be applied: " ++ err.display))
    | .ok _ =>
      match (warmup args agent s).1 with
      | .error err => .error (PyStr.text (.ofString "warmup failed: " ++ rt.strOf err))
      | .ok _ =>
        let info := reported rt args (deviceLabel startup.device)
        if info.device = "unknown" then .error "ready frame is missing the actual device"
        else .ok info

/-- **The daemon takes the first frame for what the start came to.** -/
theorem parseReady_main {σ : Type} {agent : Agent σ} {startup : Startup σ}
    (hpid : 0 < rt.pid ∧ rt.pid < 2 ^ 32) {value : Json}
    (h : (main rt args agent startup).frame.document.toJson f64Text = some value) :
    carriesId value = false ∧ (value.get "id").isNone = true ∧
      parseReady value = greeting rt args agent startup := by
  unfold main at h
  unfold greeting
  split at h
  · exact parseReady_failure h
  · split at h
    · exact parseReady_failure h
    · split at h
      · rename_i hwarm
        rw [hwarm]
        exact parseReady_failure h
      · rename_i hwarm
        rw [Started.frame, warmup_ok hwarm] at h
        rw [hwarm]
        exact parseReady_ready hpid h

end Worker

end Layad
