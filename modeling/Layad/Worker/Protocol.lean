import Layad.Host
import Layad.Worker.Error

namespace Layad

/-!
# The worker's frames

`parseReady` validates the ready frame, `parseReply` one reply frame.  Both work on the
decoded line; a reply's error object goes through the decoder derived for `ErrorBody`.
-/

/-- Readiness and metadata reported by the worker's ready frame. -/
structure WorkerInfo where
  pid : Nat
  model : String
  checkpoint : String
  device : String
  requestedDevice : String
  backend : String
  layaVersion : String
  warmup : List String
  deriving DecidableEq, Repr

namespace WorkerInfo

/-- A string member of the ready frame, empty when absent or not a string. -/
def text (value : Json) (key : String) : String := ((value.get key).bind Json.asStr).getD ""

/-- Parse the free-form ready frame, tolerating a worker that omits fields. -/
def fromReady (value : Json) : WorkerInfo where
  pid := (((value.get "pid").bind Json.asU64).getD 0) % 2 ^ 32
  model := text value "model"
  checkpoint :=
    if (text value "checkpoint").isEmpty then "english" else text value "checkpoint"
  device := if (text value "device").isEmpty then "unknown" else text value "device"
  requestedDevice := text value "requested_device"
  backend := text value "backend"
  layaVersion := text value "laya_version"
  warmup := (((value.get "warmup").bind Json.asArray).map (·.filterMap Json.asStr)).getD []

end WorkerInfo

/-- `value.get("id").map(|id| !id.is_null()).unwrap_or(false)`. -/
def carriesId (value : Json) : Bool := ((value.get "id").map (!·.isNull)).getD false

/-- Ready frame validation. -/
def parseReady (value : Json) : Except String WorkerInfo :=
  match (value.get "ready").bind Json.asBool with
  | some false =>
    .error ((((value.get "error").bind (·.get "message")).bind Json.asStr).getD
      "worker reported that it could not start")
  | none => .error "worker frame is missing ready=true"
  | some true =>
    if carriesId value then .error "ready frame must not carry a request id"
    else if !(((value.get "pid").bind Json.asU64).any fun pid => 0 < pid && pid ≤ 2 ^ 32 - 1) then
      .error "ready frame is missing a valid worker pid"
    else
      let info := WorkerInfo.fromReady value
      if info.device.isEmpty || info.device = "unknown" then
        .error "ready frame is missing the actual device"
      else .ok info

/-- The error object of a rejected request. -/
structure ErrorBody where
  code : Option String
  message : Option String
  fatal : Bool
  deriving DecidableEq, Repr

namespace ErrorBody

/-- The derived decoder of an `Option<String>` field: `null` is absent. -/
def optString : Json → Option (Option String)
  | .null => some none
  | .str s => some (some s)
  | _ => none

/-- The decoder derived for `ErrorBody`.  An object's absent fields take their defaults and
    its unknown ones are skipped; an array is read field by field, of which only the last,
    `#[serde(default)]`, may be missing. -/
def fromValue : Json → Option ErrorBody
  | .obj members => do
    let code ← ((members.lookup "code").map optString).getD (some none)
    let message ← ((members.lookup "message").map optString).getD (some none)
    let fatal ← ((members.lookup "fatal").map Json.asBool).getD (some false)
    some ⟨code, message, fatal⟩
  | .arr [c, m] => do
    let code ← optString c
    let message ← optString m
    some ⟨code, message, false⟩
  | .arr [c, m, f] => do
    let code ← optString c
    let message ← optString m
    let fatal ← f.asBool
    some ⟨code, message, fatal⟩
  | _ => none

end ErrorBody

/-- The body of a reply. -/
inductive Reply where
  | ok (result : Json)
  | err (body : ErrorBody)

/-- A reply frame: the id it names, and its body. -/
structure ParsedReply where
  id : String
  body : Reply

/-- Validate one reply frame. -/
def parseReply (host : Host) (value : Json) : Except String ParsedReply :=
  match (value.get "id").bind Json.asStr with
  | none => .error "reply frame has no string id"
  | some id =>
    match (value.get "ok").bind Json.asBool with
    | some true =>
      match value.get "result" with
      | some result => .ok ⟨id, .ok result⟩
      | none => .error "ok reply has no result"
    | some false =>
      let fatal := ((value.get "fatal").bind Json.asBool).getD false
      match value.get "error" with
      | none => .ok ⟨id, .err ⟨none, none, fatal⟩⟩
      | some error =>
        match ErrorBody.fromValue error with
        | some body => .ok ⟨id, .err { body with fatal := body.fatal || fatal }⟩
        | none => .error s!"malformed error object: {host.errorBodyError error}"
    | none => .error "reply frame has no boolean ok field"

/-- The error a caller receives for the error object of its reply. -/
def ErrorBody.toWorkerError (body : ErrorBody) : WorkerError :=
  let message := body.message.getD "worker rejected the request"
  match body.code with
  | some "invalid_request" | some "validation" => .invalidRequest message
  | _ => .workerFailed message

/-- A ready frame that is accepted carries no request id. -/
theorem parseReady_ok_id {value : Json} {info : WorkerInfo} (h : parseReady value = .ok info) :
    carriesId value = false := by
  unfold parseReady at h
  split at h
  · cases h
  · cases h
  · by_cases hid : carriesId value
    · rw [if_pos hid] at h
      cases h
    · simpa using hid

/-- A reply that is accepted carries the string id it is filed under. -/
theorem parseReply_ok_id {host : Host} {value : Json} {parsed : ParsedReply}
    (h : parseReply host value = .ok parsed) :
    (value.get "id").bind Json.asStr = some parsed.id := by
  unfold parseReply at h
  split at h
  · cases h
  · rename_i id hid
    rw [hid]
    split at h
    · split at h <;> cases h
      rfl
    · simp only at h
      split at h
      · cases h
        rfl
      · split at h <;> cases h
        rfl
    · cases h

/-- An accepted ok reply says `ok: true` and carries the result handed on. -/
theorem parseReply_ok_result {host : Host} {value v : Json} {id : String}
    (h : parseReply host value = .ok ⟨id, .ok v⟩) :
    (value.get "ok").bind Json.asBool = some true ∧ value.get "result" = some v := by
  unfold parseReply at h
  split at h
  · cases h
  · split at h
    · split at h <;> simp_all
    · simp only at h
      split at h
      · simp at h
      · split at h <;> simp at h
    · cases h

end Layad
