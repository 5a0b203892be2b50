import Layad.SystemOne
import Layad.Validation
import Layad.Worker.Handle

namespace Layad

open Transition

/-!
# The request language

What a prediction request has to be (`RequestLanguage`), apart from the checks that decide it,
and the whole of `predict_impl` as a program over the handle (`Handling`).  It calls the worker
for exactly the requests of the language, once (`predict_accepts_language`); any other request
is answered without a step of the handle.
-/

/-! ### The handlers -/

/-- An HTTP response with a JSON body. -/
structure Response where
  status : Nat
  body : Json

/-- Canonical JSON error body. -/
def errorResponse (err : ErrorResponse) : Response :=
  ⟨err.status,
    .obj [("error", .obj [("code", .str err.code), ("message", .str err.message)])]⟩

/-- The HTTP status of an error of the worker. -/
def workerErrorStatus : WorkerError → Nat
  | .invalidRequest _ => 400
  | .overloaded => 429
  | .unavailable _ | .shuttingDown => 503
  | .startupFailed _ | .startupTimeout _ => 503
  | .inferenceTimeout _ => 504
  | .workerFailed _ | .oversizedResponse _ => 502

/-- The response to an error of the worker. -/
def workerErrorResponse (err : WorkerError) : Response :=
  errorResponse ⟨workerErrorStatus err, err.kind, err.message⟩

/-- A handler: it answers, or calls `worker.predict` and goes on with what that returns. -/
inductive Handling where
  | respond (response : Response)
  | predict (params : Json) (next : Answer → Handling)

namespace Handling

/-- The worker is called. -/
def CallsWorker : Handling → Prop
  | respond _ => False
  | predict _ _ => True

/-- The handle once a call that goes by `key` has begun, if the handler makes one. -/
def begin (cx : Ctx) (s : Sys) (key : Nat) : Handling → Option Sys
  | respond _ => some s
  | predict params _ => (handle cx).step s (.call key (.begin (.predict params)))

end Handling

/-- What the worker's answer is turned into: on Jev's path the result is projected. -/
def answerResponse (cfg : Config) (jevShape : Bool) (kinds : List (String × String)) :
    Answer → Response
  | .ok result => ⟨200, if jevShape then jevResult kinds result cfg.model else result⟩
  | .error err => workerErrorResponse err

/-- `predict_impl`, the whole of it; `jevShape` tells the two paths apart. -/
def handlePredict (cfg : Config) (host : Host) (attached jevShape : Bool)
    (body : Except Nat (List UInt8)) : Handling :=
  match predictImpl cfg host attached body with
  | .error err => .respond (errorResponse err)
  | .ok (kinds, params) =>
    .predict params fun answer => .respond (answerResponse cfg jevShape kinds answer)

/-! ### The language -/

/-- Some character is not white space. -/
def NonBlank (text : String) : Prop := ∃ c ∈ text.toList, isWhitespace c = false

/-- A state: nothing, a text that says something, or an object or list that is not empty. -/
inductive StateLanguage : Json → Prop where
  | null : StateLanguage .null
  | text {text : String} (h : NonBlank text) : StateLanguage (.str text)
  | object {members : List (String × Json)} (h : members ≠ []) : StateLanguage (.obj members)
  | list {items : List Json} (h : items ≠ []) : StateLanguage (.arr items)

/-- The criteria each type of question asks for. -/
def CriteriaLanguage (kind : String) (criteria : Option Json) : Prop :=
  (kind = "choice" ∧ ∃ members, criteria = some (.obj members) ∧ members ≠ []) ∨
  (kind = "choice" ∧ ∃ items, criteria = some (.arr items) ∧ items ≠ []) ∨
  (kind = "score" ∧ ∃ items, criteria = some (.arr items) ∧ items ≠ []) ∨
  kind = "noul"

/-- A question under its name: an object with a type, instructions of any value, and the
    criteria its type asks for. -/
inductive QuestionLanguage (name : String) : Json → Prop where
  | object {members : List (String × Json)} {kind : String} (hname : NonBlank name)
      (htype : members.lookup "type" = some (.str kind))
      (hinstructions : (members.lookup "instructions").isSome = true)
      (hcriteria : CriteriaLanguage kind (members.lookup "criteria")) :
      QuestionLanguage name (.obj members)

/-- What a request has to be: a state and at least one question, not more than the limit. -/
structure RequestLanguage (cfg : Config) (request : PredictRequest) : Prop where
  state : StateLanguage request.state
  some : 1 ≤ request.questions.length
  limit : request.questions.length ≤ cfg.maxQuestions
  questions : ∀ m ∈ request.questions, QuestionLanguage m.1 m.2

/-! ### The checks decide it -/

/-- A text is not empty if it has a letter. -/
theorem trimIsEmpty_eq_false {text : String} : trimIsEmpty text = false ↔ NonBlank text := by
  rw [trimIsEmpty, NonBlank, List.all_eq_false]
  simp only [Bool.not_eq_true]

/-- The check of the state decides its language. -/
theorem validateState_ok {state : Json} : validateState state = .ok () ↔ StateLanguage state := by
  cases state with
  | null => exact iff_of_true rfl .null
  | bool b => exact iff_of_false (by simp [validateState]) (by rintro ⟨⟩)
  | int i => exact iff_of_false (by simp [validateState]) (by rintro ⟨⟩)
  | float text => exact iff_of_false (by simp [validateState]) (by rintro ⟨⟩)
  | str text =>
    rw [validateState]
    cases htrim : trimIsEmpty text with
    | true =>
      refine iff_of_false (by simp) fun h => ?_
      cases h with
      | text h =>
        rw [trimIsEmpty_eq_false.mpr h] at htrim
        cases htrim
    | false => exact iff_of_true rfl (.text (trimIsEmpty_eq_false.mp htrim))
  | arr items =>
    cases items with
    | nil => exact iff_of_false (by simp [validateState]) (by rintro ⟨⟩; contradiction)
    | cons item items => exact iff_of_true rfl (.list (List.cons_ne_nil item items))
  | obj members =>
    cases members with
    | nil => exact iff_of_false (by simp [validateState]) (by rintro ⟨⟩; contradiction)
    | cons m members => exact iff_of_true rfl (.object (List.cons_ne_nil m members))

/-- The check of the criteria decides theirs. -/
theorem validateCriteria_ok {host : Host} {label kind : String} {criteria : Option Json} :
    validateCriteria host label kind criteria = .ok () ↔ CriteriaLanguage kind criteria := by
  unfold validateCriteria CriteriaLanguage
  split
  case h_1 members => simp
  case h_2 items => simp
  case h_5 items => simp
  all_goals simp_all

/-- Criteria are of one of the question types. -/
theorem criteriaLanguage_type {kind : String} {criteria : Option Json}
    (h : CriteriaLanguage kind criteria) : questionTypes.contains kind = true := by
  rcases h with ⟨rfl, -⟩ | ⟨rfl, -⟩ | ⟨rfl, -⟩ | rfl
  all_goals decide

/-- A string that is there. -/
theorem bind_asStr {v : Option Json} {text : String} :
    v.bind Json.asStr = some text ↔ v = some (.str text) := by
  rcases v with _ | v
  · simp
  · cases v <;> simp [Json.asStr]

/-- The check of an object whose name says something. -/
theorem validateQuestion_obj {host : Host} {name : String} {members : List (String × Json)}
    (hname : trimIsEmpty name = false) :
    validateQuestion host name (.obj members) = .ok () ↔
      ∃ kind, members.lookup "type" = some (.str kind) ∧
        (members.lookup "instructions").isSome = true ∧
        CriteriaLanguage kind (members.lookup "criteria") := by
  simp only [validateQuestion, hname, Bool.false_eq_true, if_false]
  -- the type, then the instructions, then the criteria that the type asks for
  cases htype : (members.lookup "type").bind Json.asStr with
  | none =>
    refine iff_of_false (by simp) ?_
    rintro ⟨kind, hkind, -⟩
    rw [bind_asStr.mpr hkind] at htype
    cases htype
  | some kind =>
    have htype := bind_asStr.mp htype
    cases hinstructions : members.lookup "instructions" with
    | none =>
      refine iff_of_false (fun h => ?_) (by simp)
      dsimp only at h
      split at h <;> cases h
    | some instructions =>
      constructor
      · intro h
        dsimp only at h
        split at h
        · cases h
        · exact ⟨kind, htype, rfl, validateCriteria_ok.mp h⟩
      · rintro ⟨kind', htype', -, hcriteria⟩
        obtain rfl : kind = kind' := by
          rw [htype] at htype'
          exact Json.str.inj (Option.some.inj htype')
        simp only [criteriaLanguage_type hcriteria, Bool.not_true, Bool.false_eq_true, if_false]
        exact validateCriteria_ok.mpr hcriteria

/-- The check of a question decides its language. -/
theorem validateQuestion_ok_iff (host : Host) {name : String} {question : Json} :
    validateQuestion host name question = .ok () ↔ QuestionLanguage name question := by
  cases hname : trimIsEmpty name with
  | true =>
    refine iff_of_false (by simp [validateQuestion, hname]) ?_
    rintro ⟨h, -, -, -⟩
    rw [trimIsEmpty_eq_false.mpr h] at hname
    cases hname
  | false =>
    cases question with
    | obj members =>
      rw [validateQuestion_obj hname]
      constructor
      · rintro ⟨kind, htype, hinstructions, hcriteria⟩
        exact .object (trimIsEmpty_eq_false.mp hname) htype hinstructions hcriteria
      · rintro ⟨-, htype, hinstructions, hcriteria⟩
        exact ⟨_, htype, hinstructions, hcriteria⟩
    | null | bool | int | float | str | arr =>
      exact iff_of_false (by simp [validateQuestion, hname]) (by rintro ⟨⟩)

/-- So does the check of all questions. -/
theorem validateQuestions_ok_iff (host : Host) {questions : List (String × Json)} :
    validateQuestions host questions = .ok () ↔ ∀ m ∈ questions, QuestionLanguage m.1 m.2 := by
  induction questions with
  | nil => simp [validateQuestions]
  | cons m rest ih =>
    obtain ⟨name, question⟩ := m
    rw [validateQuestions, List.forall_mem_cons, ← ih, ← validateQuestion_ok_iff host]
    cases validateQuestion host name question with
    | error err => simp
    | ok u => simp

/-! ### The whole request -/

variable {cfg : Config} {host : Host} {body : List UInt8} {request : PredictRequest}

/-- A request of the language is forwarded, if there is a worker. -/
theorem predictImpl_language (hread : PredictRequest.fromSlice host body = .ok request)
    (h : RequestLanguage cfg request) (attached : Bool) :
    predictImpl cfg host attached (.ok body) =
      if attached then .ok (questionKinds request.questions, request.params)
      else .error ⟨503, "unavailable", "the resident model is still loading"⟩ := by
  have hstate := validateState_ok.mpr h.state
  have hquestions := (validateQuestions_ok_iff host).mpr h.questions
  have hempty : request.questions.isEmpty = false := by
    rw [List.isEmpty_eq_false_iff, ← List.length_pos_iff]
    exact h.some
  have hlimit : ¬ cfg.maxQuestions < request.questions.length := Nat.not_lt.mpr h.limit
  simp only [predictImpl, hread, hstate, hempty, hlimit, hquestions, Bool.false_eq_true, if_false]

/-- Any other request is refused before a worker is looked for. -/
theorem predictImpl_refuses (hread : PredictRequest.fromSlice host body = .ok request)
    (h : ¬ RequestLanguage cfg request) : ∃ message, ∀ attached,
      predictImpl cfg host attached (.ok body) = .error ⟨400, "invalid_request", message⟩ := by
  simp only [predictImpl, hread]
  cases hstate : validateState request.state with
  | error err => exact ⟨err, fun _ => rfl⟩
  | ok u =>
    by_cases hempty : request.questions.isEmpty = true
    · exact ⟨_, fun _ => if_pos hempty⟩
    · by_cases hlimit : cfg.maxQuestions < request.questions.length
      · simp only [hempty, Bool.false_eq_true, if_false, hlimit, if_true]
        exact ⟨_, fun _ => rfl⟩
      · cases hquestions : validateQuestions host request.questions with
        | error err =>
          simp only [hempty, hlimit, Bool.false_eq_true, if_false]
          exact ⟨err, fun _ => rfl⟩
        | ok u =>
          refine absurd ⟨validateState_ok.mp hstate, ?_, Nat.not_lt.mp hlimit,
            (validateQuestions_ok_iff host).mp hquestions⟩ h
          rw [Nat.one_le_iff_ne_zero, ne_eq, ← List.isEmpty_iff_length_eq_zero]
          exact hempty

/-- What a body says besides the state and the questions does not matter. -/
theorem predictImpl_congr (hread : PredictRequest.fromSlice host body = .ok request)
    {body' : List UInt8} {request' : PredictRequest}
    (hread' : PredictRequest.fromSlice host body' = .ok request')
    (hstate : request'.state = request.state) (hquestions : request'.questions = request.questions)
    (attached : Bool) :
    predictImpl cfg host attached (.ok body') = predictImpl cfg host attached (.ok body) := by
  simp only [predictImpl, hread, hread', hstate, hquestions, PredictRequest.params]

/-- A request of the language goes to the worker. -/
theorem handlePredict_language (hread : PredictRequest.fromSlice host body = .ok request)
    (h : RequestLanguage cfg request) (jevShape : Bool) :
    handlePredict cfg host true jevShape (.ok body) = .predict request.params fun answer =>
      .respond (answerResponse cfg jevShape (questionKinds request.questions) answer) := by
  rw [handlePredict, predictImpl_language hread h]
  rfl

/-- **The worker is called for exactly the requests of the language**, on both paths: once,
    with the state and the questions and nothing else, and what it returns is the answer;
    while there is no worker such a request gets a `503`.  Any other request gets a `400` with
    the code `invalid_request`, with or without a worker, and the handle takes no step.
    Members of the body besides the state and the questions make no difference. -/
theorem predict_accepts_language {cfg : Config} {host : Host} {body : List UInt8}
    {request : PredictRequest} (hread : PredictRequest.fromSlice host body = .ok request)
    (jevShape : Bool) :
    ((handlePredict cfg host true jevShape (.ok body)).CallsWorker ↔
      RequestLanguage cfg request) ∧
    (RequestLanguage cfg request →
      handlePredict cfg host true jevShape (.ok body) =
        .predict (.obj [("questions", .obj request.questions), ("state", request.state)])
          (fun answer => .respond
            (answerResponse cfg jevShape (questionKinds request.questions) answer)) ∧
      handlePredict cfg host false jevShape (.ok body) =
        .respond ⟨503, .obj [("error", .obj [("code", .str "unavailable"),
          ("message", .str "the resident model is still loading")])]⟩) ∧
    (¬ RequestLanguage cfg request → ∃ message, ∀ attached,
      handlePredict cfg host attached jevShape (.ok body) =
        .respond ⟨400, .obj [("error", .obj [("code", .str "invalid_request"),
          ("message", .str message)])]⟩ ∧
      ∀ cx s key, (handlePredict cfg host attached jevShape (.ok body)).begin cx s key = some s) ∧
    ∀ body' request', PredictRequest.fromSlice host body' = .ok request' →
      request'.state = request.state → request'.questions = request.questions → ∀ attached,
        handlePredict cfg host attached jevShape (.ok body') =
          handlePredict cfg host attached jevShape (.ok body) := by
  -- the refusal does not depend on a worker being attached
  have hrefuses : ¬ RequestLanguage cfg request → ∃ message, ∀ attached,
      handlePredict cfg host attached jevShape (.ok body) =
        .respond ⟨400, .obj [("error", .obj [("code", .str "invalid_request"),
          ("message", .str message)])]⟩ := by
    intro h
    obtain ⟨message, hmessage⟩ := predictImpl_refuses hread h
    exact ⟨message, fun attached => by rw [handlePredict, hmessage attached]; rfl⟩
  refine ⟨⟨fun hcalls => ?_, fun h => ?_⟩, fun h => ⟨?_, ?_⟩, fun h => ?_, ?_⟩
  · -- a refused request calls nobody
    by_contra h
    obtain ⟨message, hmessage⟩ := hrefuses h
    rw [hmessage] at hcalls
    exact hcalls
  · rw [handlePredict_language hread h]
    trivial
  · exact handlePredict_language hread h jevShape
  · rw [handlePredict, predictImpl_language hread h]
    rfl
  · -- and no call is begun for it
    obtain ⟨message, hmessage⟩ := hrefuses h
    refine ⟨message, fun attached => ⟨hmessage attached, fun cx s key => ?_⟩⟩
    rw [hmessage attached, Handling.begin]
  · intro body' request' hread' hstate hquestions attached
    rw [handlePredict, handlePredict, predictImpl_congr hread hread' hstate hquestions]

/-- The request with the state `hello` calls the worker on Jev's path. -/
theorem predict_accepts_language_hello :
    (handlePredict Replay.config (textHost "hello") true true
      (.ok (Json.compact (textRequest "hello").params))).CallsWorker := by
  refine (predict_accepts_language (fromSlice_textRequest "hello") true).1.mpr ⟨?_, ?_, ?_, ?_⟩
  · exact .text ⟨'h', by decide⟩
  · decide
  · decide
  · intro m hm
    obtain rfl := List.mem_singleton.mp hm
    exact .object ⟨'q', by decide⟩ rfl rfl (.inr (.inr (.inr rfl)))

end Layad
