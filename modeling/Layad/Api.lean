import Layad.Config

namespace Layad

/-!
# Prediction requests

What `predict_impl` does before it calls the worker: the body is read, deserialised into a
`PredictRequest`, validated, and its state and questions are forwarded.  Every refusal
carries its HTTP status, its code and its message.
-/

/-- An error response. -/
structure ErrorResponse where
  status : Nat
  code : String
  message : String
  deriving DecidableEq, Repr

/-- The prediction request `{"state": ..., "questions": {...}}`. -/
structure PredictRequest where
  state : Json
  questions : List (String × Json)
  extra : List (String × Json)

namespace PredictRequest

/-- The decoder derived for `PredictRequest`: each field once, questions as a map, and every
    other member collected. -/
def ofMembers (members : List (String × Json)) : Option PredictRequest :=
  match members.filter (·.1 = "state"), members.filter (·.1 = "questions") with
  | [(_, state)], [(_, .obj questions)] =>
    some ⟨state, questions,
      Json.toMap (members.filter fun m => m.1 ≠ "state" && m.1 ≠ "questions")⟩
  | _, _ => none

/-- `serde_json::from_slice::<PredictRequest>`. -/
def fromSlice (host : Host) (body : List UInt8) : Except String PredictRequest :=
  match host.document body with
  | .error err => .error err
  | .ok (.obj members) =>
    match (Document.membersToJson host.f64Text members).bind ofMembers with
    | some request => .ok request
    | none => .error (host.requestError body)
  | .ok _ => .error (host.requestError body)

end PredictRequest

/-- `char::is_whitespace`. -/
def isWhitespace (c : Char) : Bool :=
  let n := c.toNat
  (0x09 ≤ n && n ≤ 0x0d) || n = 0x20 || n = 0x85 || n = 0xa0 || n = 0x1680 ||
    (0x2000 ≤ n && n ≤ 0x200a) || n = 0x2028 || n = 0x2029 || n = 0x202f || n = 0x205f ||
    n = 0x3000

/-- `text.trim().is_empty()`. -/
def trimIsEmpty (text : String) : Bool := text.toList.all isWhitespace

/-- Question types supported by the pinned upstream release. -/
def questionTypes : List String := ["choice", "score", "noul"]

/-- What a value is, for a message. -/
def kindOf : Json → String
  | .null => "null"
  | .bool _ => "a boolean"
  | .int _ | .float _ => "a number"
  | .str _ => "a string"
  | .arr _ => "a list"
  | .obj _ => "an object"

/-- The check of the state. -/
def validateState : Json → Except String Unit
  | .null => .ok ()
  | .str text =>
    if trimIsEmpty text then .error "state must not be an empty string" else .ok ()
  | .obj members =>
    if members.isEmpty then .error "state object must not be empty" else .ok ()
  | .arr items => if items.isEmpty then .error "state list must not be empty" else .ok ()
  | other => .error s!"state must be a string, object or list, got {kindOf other}"

/-- The check of the criteria of a question of type `kind`; `label` is how messages name the
    question. -/
def validateCriteria (host : Host) (label kind : String) (criteria : Option Json) :
    Except String Unit :=
  match kind, criteria with
  | "choice", some (.obj members) =>
    if members.isEmpty then .error s!"question {label} needs at least one choice criterion"
    else .ok ()
  | "choice", some (.arr items) =>
    if items.isEmpty then .error s!"question {label} needs at least one choice criterion"
    else .ok ()
  | "choice", some other =>
    .error (s!"question {label} criteria must be an object or list of option names, " ++
      s!"got {kindOf other}")
  | "choice", none => .error s!"question {label} of type choice is missing \"criteria\""
  | "score", some (.arr items) =>
    if items.isEmpty then .error s!"question {label} needs at least one score criterion"
    else .ok ()
  | "score", some other =>
    .error (s!"question {label} criteria must be a list of ordered levels, " ++
      s!"got {kindOf other}")
  | "score", none => .error s!"question {label} of type score is missing \"criteria\""
  | "noul", _ => .ok ()
  | kind, _ => .error s!"question {label} has unsupported type {host.debugStr kind}"

/-- The check of one named question. -/
def validateQuestion (host : Host) (name : String) (question : Json) : Except String Unit :=
  if trimIsEmpty name then .error "question names must not be empty"
  else
    let label := host.debugStr name
    match question with
    | .obj object =>
      match (object.lookup "type").bind Json.asStr with
      | none => .error s!"question {label} is missing a string \"type\""
      | some kind =>
        if !questionTypes.contains kind then
          .error (s!"question {label} has unsupported type {host.debugStr kind}, " ++
            "expected one of " ++ ", ".intercalate questionTypes)
        else if (object.lookup "instructions").isNone then
          .error s!"question {label} is missing \"instructions\""
        else validateCriteria host label kind (object.lookup "criteria")
    | other => .error s!"question {label} must be an object, got {kindOf other}"

/-- The checks of all questions, in key order; the first failure counts. -/
def validateQuestions (host : Host) : List (String × Json) → Except String Unit
  | [] => .ok ()
  | (name, question) :: rest =>
    match validateQuestion host name question with
    | .error err => .error err
    | .ok () => validateQuestions host rest

/-- Question name and declared type, for the projection of the reply. -/
def questionKinds (questions : List (String × Json)) : List (String × String) :=
  questions.map fun (name, question) =>
    (name, ((question.get "type").bind Json.asStr).getD "")

/-- What is forwarded to the worker. -/
def PredictRequest.params (request : PredictRequest) : Json :=
  .obj [("questions", .obj request.questions), ("state", request.state)]

/-- `predict_impl` up to the call of the worker: the body, or the status it was rejected
    with, to the question kinds and the parameters that are forwarded.  `attached` says
    whether a worker is there. -/
def predictImpl (cfg : Config) (host : Host) (attached : Bool) (body : Except Nat (List UInt8)) :
    Except ErrorResponse (List (String × String) × Json) :=
  match body with
  | .error status =>
    if status = 413 then
      .error ⟨status, "body_too_large",
        s!"request body exceeds the {cfg.maxBodyBytes} byte limit"⟩
    else .error ⟨status, "invalid_body", "could not read the request body"⟩
  | .ok bytes =>
    match PredictRequest.fromSlice host bytes with
    | .error err =>
      .error ⟨400, "invalid_json", s!"request body is not a valid prediction request: {err}"⟩
    | .ok request =>
      match validateState request.state with
      | .error err => .error ⟨400, "invalid_request", err⟩
      | .ok () =>
        if request.questions.isEmpty then
          .error ⟨400, "invalid_request", "questions must contain at least one named question"⟩
        else if cfg.maxQuestions < request.questions.length then
          .error ⟨400, "invalid_request",
            s!"questions contains {request.questions.length} entries, " ++
              s!"the limit is {cfg.maxQuestions}"⟩
        else
          match validateQuestions host request.questions with
          | .error err => .error ⟨400, "invalid_request", err⟩
          | .ok () =>
            -- the worker is looked for last, so a refusal does not depend on it
            if attached then .ok (questionKinds request.questions, request.params)
            else .error ⟨503, "unavailable", "the resident model is still loading"⟩

/-- What is forwarded comes from a request the body was read as. -/
theorem predictImpl_ok {cfg : Config} {host : Host} {attached : Bool} {body : List UInt8}
    {kinds : List (String × String)} {params : Json}
    (h : predictImpl cfg host attached (.ok body) = .ok (kinds, params)) :
    ∃ request, PredictRequest.fromSlice host body = .ok request ∧ params = request.params ∧
      kinds = questionKinds request.questions := by
  unfold predictImpl at h
  cases hreq : PredictRequest.fromSlice host body with
  | error err => simp [hreq] at h
  | ok request =>
    simp only [hreq] at h
    repeat' split at h
    all_goals cases h
    exact ⟨request, rfl, rfl, rfl⟩

end Layad
