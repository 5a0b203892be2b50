import Layad.Python.Value

namespace Layad

/-!
# The worker process

`Worker.serve` of `worker.py`, one line of its input at a time: `serveLine` is the body of
its loop, from the raw line to the frame it emits and whether the loop goes on.  The model
behind `agent.predict` may keep a state of any type.
-/

/-- The Python library functions the worker calls.  Where a value is nested too deeply for the
    interpreter, `repr` and `json.dumps` raise a `RecursionError`, which nothing catches. -/
structure PyHost where
  /-- `json.loads`, or the text of the `ValueError` it raises. -/
  loads : PyStr → Except PyStr PyVal
  /-- `repr(value)`; nothing if it raises. -/
  repr : PyVal → Option PyStr
  /-- Whether `json.dumps` raises; if not, its text is that of `PyVal.dumps`. -/
  dumpsRaises : PyVal → Bool

/-- An exception raised by the agent: whether it is a `ValueError` or a `KeyError`, and the
    text `{type(err).__name__}: {err}`; nothing if its `str` raises. -/
structure Raised where
  requestScoped : Bool
  text : Option PyStr

/-- The loaded agent. -/
structure Agent (σ : Type) where
  predict : σ → PyVal → List (PyStr × PyVal) → Except Raised PyVal × σ

namespace Worker

/-- Frames larger than this are refused instead of parsed. -/
def maxInputBytes : Nat := 4 * 1024 * 1024

/-- Question types. -/
def questionTypes : List String := ["choice", "score", "noul"]

/-! ### Frames -/

/-- A dict with constant keys. -/
def dict (members : List (String × PyVal)) : PyVal :=
  .dict (members.map fun (key, value) => (.ofString key, value))

/-- The frame of `fatal`. -/
def fatal (code : String) (message : PyStr) (requestId : PyVal) : PyVal :=
  dict [("id", requestId), ("ok", .bool false), ("fatal", .bool true),
    ("error", dict [("code", .text code), ("message", .str message)])]

/-- The frame of `reject`. -/
def reject (requestId : PyVal) (code : String) (message : PyStr) : PyVal :=
  dict [("id", requestId), ("ok", .bool false),
    ("error", dict [("code", .text code), ("message", .str message)])]

/-- The frame of a result. -/
def ok (requestId result : PyVal) : PyVal :=
  dict [("id", requestId), ("ok", .bool true), ("result", result)]

/-- `emit`: the line of a frame; nothing if `json.dumps` raises, or the stream cannot encode the
    line. -/
def emit (py : PyHost) (frame : PyVal) : Option (List UInt8) :=
  if py.dumpsRaises frame then none else (frame.dumps ++ .ofString "\n").encode

/-! ### Validation -/

/-- `validate_params` on the questions; `repr` is Python's.  It fails with the text of a
    `ValueError`, or with none if a `repr` that the text quotes raises. -/
def validateQuestions (repr : PyVal → Option PyStr) :
    List (PyStr × PyVal) → Except (Option PyStr) Unit
  | [] => .ok ()
  | (name, question) :: rest =>
    let label := (repr (.str name)).map (.ofString "question " ++ ·)
    match question with
    | .dict members =>
      let qtype := PyVal.get members "type"
      if !questionTypes.any qtype.isText then
        .error do
          let label ← label
          let qtype ← repr qtype
          some (label ++ .ofString " has unsupported type " ++ qtype ++
            .ofString ("; expected one of " ++ ", ".intercalate questionTypes))
      else if !PyVal.contains members "instructions" then
        .error (label.map (· ++ .ofString " needs instructions"))
      else validateQuestions repr rest
    | _ => .error (label.map (· ++ .ofString " must be an object"))

/-- `validate_params` on the state. -/
def validateState : PyVal → Except PyStr Unit
  | .null => .ok ()
  | .str s =>
    if s.strip.isEmpty then .error (.ofString "state must not be an empty string") else .ok ()
  | .dict members =>
    if members.isEmpty then .error (.ofString "state must not be empty") else .ok ()
  | .list items =>
    if items.isEmpty then .error (.ofString "state must not be empty") else .ok ()
  | _ => .error (.ofString "state must be a string, object or list")

/-- `validate_params`: the state and the questions, or the text of a `ValueError`, or none for
    another exception. -/
def validateParams (repr : PyVal → Option PyStr) (params : PyVal) :
    Except (Option PyStr) (PyVal × List (PyStr × PyVal)) :=
  match params with
  | .dict members => do
    let state := PyVal.get members "state"
    (validateState state).mapError some
    match PyVal.get members "questions" with
    | .dict questions =>
      if questions.isEmpty then .error (some (.ofString "questions must be a nonempty object"))
      else do
        validateQuestions repr questions
        .ok (state, questions)
    | _ => .error (some (.ofString "questions must be a nonempty object"))
  | _ => .error (some (.ofString "params must be an object"))

/-! ### The loop -/

/-- What one pass of the loop does, with the agent's state after it. -/
inductive Pass (σ : Type) where
  /-- A blank line. -/
  | skip (agent : σ)
  /-- A frame is emitted and the loop goes on. -/
  | answer (frame : PyVal) (agent : σ)
  /-- A frame is emitted and `serve` returns 1. -/
  | last (frame : PyVal) (agent : σ)
  /-- `serve` returns 0. -/
  | shutdown (agent : σ)
  /-- An exception that `serve` does not catch. -/
  | raised (agent : σ)

/-- The refusal of a line that is too long. -/
def frameTooLarge : PyVal :=
  fatal "frame_too_large" (.ofString "request frame exceeds the worker limit") .null

/-- A predict request, or another method, once its line was decoded. -/
def serveMessage {σ : Type} (py : PyHost) (agent : Agent σ) (s : σ)
    (message : List (PyStr × PyVal)) : Pass σ :=
  let method := PyVal.get message "method"
  let requestId := PyVal.get message "id"
  if method.isText "shutdown" then .shutdown s
  else if !method.isText "predict" then
    match py.repr method with
    | none => .raised s
    | some text =>
      .answer (reject requestId "invalid_request" (.ofString "unsupported method " ++ text)) s
  else
    match validateParams py.repr (PyVal.get message "params") with
    | .error none => .raised s
    | .error (some err) => .answer (reject requestId "invalid_request" err) s
    | .ok (state, questions) =>
      match agent.predict s state questions with
      | (.ok result, s) => .answer (ok requestId result) s
      | (.error err, s) =>
        if err.requestScoped then
          match err.text with
          | none => .raised s
          | some text => .answer (reject requestId "invalid_request" text) s
        else
          .last (fatal "inference_failed"
            (.ofString "inference failed, see worker stderr") requestId) s

/-- One pass of the loop of `serve`, on a raw line. -/
def serveLine {σ : Type} (py : PyHost) (agent : Agent σ) (s : σ) (raw : PyStr) : Pass σ :=
  let line := raw.strip
  if line.isEmpty then .skip s
  else if maxInputBytes < line.encodeReplace.length then .last frameTooLarge s
  else
    match py.loads line with
    | .error err =>
      .last (fatal "invalid_frame"
        (.ofString "could not parse the request frame: " ++ err) .null) s
    | .ok (.dict message) => serveMessage py agent s message
    | .ok _ =>
      .last (fatal "invalid_frame" (.ofString "request frame must be a JSON object") .null) s

end Worker

end Layad
