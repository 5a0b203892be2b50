import Layad.Api
import Layad.Python.Loads
import Layad.Python.Worker

namespace Layad

/-!
# The two validators

The daemon checks a request before it forwards it, and the worker checks what it gets.  The
worker's check of the questions is the weaker one; the checks of the state differ in what
counts as white space: Rust follows Unicode's `White_Space`, `str.strip` also takes the four
information separators.  So the worker accepts what the daemon forwards unless the state is
a string of nothing else (`validateParams_forwarded`).
-/

/-- An information separator, U+001C to U+001F. -/
def isSeparator (c : Char) : Bool := 0x1c ≤ c.toNat && c.toNat ≤ 0x1f

/-- What `str.strip` removes: white space, and the separators. -/
theorem PyStr.isSpace_ofChar (c : Char) :
    PyStr.isSpace (PyStr.ofChar c) = (isWhitespace c || isSeparator c) := by
  have hval : (PyStr.ofChar c).val = c.toNat := rfl
  rw [Bool.eq_iff_iff]
  simp only [PyStr.isSpace, hval, isWhitespace, isSeparator, Bool.or_eq_true, Bool.and_eq_true,
    decide_eq_true_eq]
  omega

/-! ### The state -/

/-- A text is blank for Python if it has white space and separators only. -/
theorem isEmpty_strip_ofString (s : String) :
    (PyStr.ofString s).strip.isEmpty = s.toList.all fun c => isWhitespace c || isSeparator c := by
  rw [Bool.eq_iff_iff, PyStr.strip_isEmpty, List.all_eq_true]
  simp only [PyStr.ofString, List.forall_mem_map, PyStr.isSpace_ofChar]

/-- The worker accepts a state the daemon accepts unless it is a string of white space and
    separators. -/
theorem validateState_toPy (parseFloat : String → PyFloat) {state : Json}
    (h : validateState state = .ok ()) :
    Worker.validateState (state.toPy parseFloat) = .ok () ↔
      ∀ text, state = .str text →
        ∃ c ∈ text.toList, isWhitespace c = false ∧ isSeparator c = false := by
  cases state with
  | null => simp [Json.toPy, Worker.validateState]
  | bool b => cases h
  | int i => cases h
  | float t => cases h
  -- Python strips the separators as well, so a text of them alone is blank there
  | str text =>
    rw [Json.toPy, Worker.validateState, isEmpty_strip_ofString]
    constructor
    · intro hok text' he
      obtain rfl := Json.str.inj he
      by_contra hblank
      have hall : (text.toList.all fun c => isWhitespace c || isSeparator c) = true := by
        rw [List.all_eq_true]
        intro c hc
        by_contra hmark
        exact hblank ⟨c, hc, by simpa using hmark⟩
      rw [hall] at hok
      cases hok
    · intro hmark
      obtain ⟨c, hc, hw, hs⟩ := hmark text rfl
      have hall : (text.toList.all fun c => isWhitespace c || isSeparator c) = false :=
        List.all_eq_false.mpr ⟨c, hc, by rw [hw, hs]; decide⟩
      rw [hall]
      rfl
  -- a list or an object is empty on both sides or on neither
  | arr items =>
    rw [Json.toPy, Worker.validateState, Json.isEmpty_toPyItems]
    rw [validateState] at h
    split at h
    · cases h
    · rename_i hne
      simp [hne]
  | obj members =>
    rw [Json.toPy, Worker.validateState, Json.isEmpty_toPyMembers]
    rw [validateState] at h
    split at h
    · cases h
    · rename_i hne
      simp [hne]

/-! ### The questions -/

/-- A question the daemon accepts is an object with a type Laya knows and instructions. -/
theorem validateQuestion_ok {host : Host} {name : String} {question : Json}
    (h : validateQuestion host name question = .ok ()) :
    ∃ object kind, question = .obj object ∧ object.lookup "type" = some (.str kind) ∧
      kind ∈ questionTypes ∧ (object.lookup "instructions").isSome := by
  unfold validateQuestion at h
  dsimp only at h
  split at h
  · cases h
  · split at h
    · rename_i object
      split at h
      · cases h
      · rename_i kind hkind
        obtain ⟨v, hv, hstr⟩ := Option.bind_eq_some_iff.mp hkind
        cases v <;> cases hstr
        split at h
        · cases h
        · rename_i htype
          split at h
          · cases h
          · rename_i hinstr
            refine ⟨object, kind, rfl, hv, ?_, ?_⟩
            · simpa using htype
            · rw [Option.isSome_iff_ne_none]
              exact fun hnone => hinstr (by rw [hnone]; rfl)
    · cases h

/-- Each question is checked. -/
theorem validateQuestions_cons {host : Host} {name : String} {question : Json}
    {rest : List (String × Json)}
    (h : validateQuestions host ((name, question) :: rest) = .ok ()) :
    validateQuestion host name question = .ok () ∧ validateQuestions host rest = .ok () := by
  rw [validateQuestions] at h
  split at h
  · cases h
  · rename_i hq
    exact ⟨hq, h⟩

/-- The worker accepts all questions the daemon accepts. -/
theorem validateQuestions_toPy (parseFloat : String → PyFloat) (repr : PyVal → Option PyStr)
    {host : Host} {questions : List (String × Json)}
    (h : validateQuestions host questions = .ok ()) :
    Worker.validateQuestions repr (Json.toPyMembers parseFloat questions) = .ok () := by
  induction questions with
  | nil => rfl
  | cons m rest ih =>
    obtain ⟨name, question⟩ := m
    obtain ⟨hq, hrest⟩ := validateQuestions_cons h
    obtain ⟨object, kind, rfl, htype, hkind, hinstr⟩ := validateQuestion_ok hq
    have hknown : Worker.questionTypes.any (Json.toPy parseFloat (.str kind)).isText = true :=
      List.any_eq_true.mpr ⟨kind, hkind, by rw [Json.isText_toPy, decide_eq_true rfl]⟩
    rw [Json.toPyMembers, Json.toPy, Worker.validateQuestions]
    simp only [Json.get_toPyMembers, htype, Option.map_some, Option.getD_some, hknown,
      Json.contains_toPyMembers, hinstr, Bool.not_true, Bool.false_eq_true, if_false]
    exact ih hrest

/-! ### The parameters -/

/-- The checks a forwarded request has passed. -/
theorem predictImpl_validated {cfg : Config} {host : Host} {attached : Bool} {body : List UInt8}
    {kinds : List (String × String)} {params : Json}
    (h : predictImpl cfg host attached (.ok body) = .ok (kinds, params)) :
    ∃ request, PredictRequest.fromSlice host body = .ok request ∧ params = request.params ∧
      validateState request.state = .ok () ∧ request.questions.isEmpty = false ∧
      validateQuestions host request.questions = .ok () := by
  unfold predictImpl at h
  cases hreq : PredictRequest.fromSlice host body with
  | error err => simp [hreq] at h
  | ok request =>
    simp only [hreq] at h
    split at h
    · cases h
    · rename_i hstate
      split at h
      · cases h
      · rename_i hempty
        split at h
        · cases h
        · split at h
          · cases h
          · rename_i hquestions
            split at h
            · cases h
              exact ⟨request, rfl, rfl, hstate, by simpa using hempty, hquestions⟩
            · cases h

/-- The worker accepts the parameters of a request whose checks have passed just if it accepts
    the state. -/
theorem validateParams_params {host : Host} {request : PredictRequest}
    (hne : request.questions.isEmpty = false)
    (hquestions : validateQuestions host request.questions = .ok ())
    (parseFloat : String → PyFloat) (repr : PyVal → Option PyStr) :
    Worker.validateParams repr (request.params.toPy parseFloat) =
        .ok (request.state.toPy parseFloat, Json.toPyMembers parseFloat request.questions) ↔
      Worker.validateState (request.state.toPy parseFloat) = .ok () := by
  have hsget : PyVal.get (Json.toPyMembers parseFloat
      [("questions", .obj request.questions), ("state", request.state)]) "state" =
      request.state.toPy parseFloat := by
    rw [Json.get_toPyMembers]
    rfl
  have hqget : PyVal.get (Json.toPyMembers parseFloat
      [("questions", .obj request.questions), ("state", request.state)]) "questions" =
      .dict (Json.toPyMembers parseFloat request.questions) := by
    rw [Json.get_toPyMembers]
    rfl
  rw [PredictRequest.params, Json.toPy, Worker.validateParams]
  simp only [hsget, hqget, Json.isEmpty_toPyMembers, hne, Bool.false_eq_true, if_false,
    validateQuestions_toPy parseFloat repr hquestions, bind, Except.bind, Except.mapError]
  cases Worker.validateState (request.state.toPy parseFloat) with
  | error err => simp
  | ok u => simp

/-- **The worker accepts what the daemon forwards**, and takes the state and the questions
    out of it, just if the state is not a string of white space and separators alone. -/
theorem validateParams_forwarded {cfg : Config} {host : Host} {attached : Bool}
    {body : List UInt8} {kinds : List (String × String)} {params : Json}
    (h : predictImpl cfg host attached (.ok body) = .ok (kinds, params))
    (parseFloat : String → PyFloat) (repr : PyVal → Option PyStr) :
    ∃ request, PredictRequest.fromSlice host body = .ok request ∧ params = request.params ∧
      (Worker.validateParams repr (params.toPy parseFloat) =
          .ok (request.state.toPy parseFloat, Json.toPyMembers parseFloat request.questions) ↔
        ∀ text, request.state = .str text →
          ∃ c ∈ text.toList, isWhitespace c = false ∧ isSeparator c = false) := by
  obtain ⟨request, hreq, rfl, hstate, hne, hquestions⟩ := predictImpl_validated h
  refine ⟨request, hreq, rfl, ?_⟩
  rw [validateParams_params hne hquestions, validateState_toPy parseFloat hstate]

/-! ### Requests with a text for a state -/

/-- A request with one question, of type `noul`. -/
def textRequest (text : String) : PredictRequest where
  state := .str text
  questions := [("q", .obj [("instructions", .null), ("type", .str "noul")])]
  extra := []

/-- Library functions that read the body of this request, as it is printed. -/
def textHost (text : String) : Host :=
  { Replay.host with
    document := fun body =>
      if body = Json.compact (textRequest text).params then
        .ok (.obj [("questions",
          .obj [("q", .obj [("instructions", .null), ("type", .str "noul")])]),
          ("state", .str text)])
      else .error "expected value at line 1 column 1" }

/-- The body is read as its request. -/
theorem fromSlice_textRequest (text : String) :
    PredictRequest.fromSlice (textHost text) (Json.compact (textRequest text).params) =
      .ok (textRequest text) := by
  rw [PredictRequest.fromSlice, textHost]
  simp only [if_true]
  rfl

/-- The request is forwarded unless its state is blank. -/
theorem predictImpl_textRequest {text : String} (h : trimIsEmpty text = false) :
    predictImpl Replay.config (textHost text) true
        (.ok (Json.compact (textRequest text).params)) =
      .ok ([("q", "noul")], (textRequest text).params) := by
  have hread := fromSlice_textRequest text
  have hstate : validateState (textRequest text).state = .ok () := by
    rw [textRequest, validateState, h]
    rfl
  have hquestions : validateQuestions (textHost text) (textRequest text).questions = .ok () := rfl
  simp only [predictImpl, hread, hstate, hquestions]
  rfl

/-- The result at the state `hello`. -/
theorem validateParams_forwarded_hello :
    Worker.validateParams (fun _ => some []) ((textRequest "hello").params.toPy .finite) =
      .ok (.text "hello", Json.toPyMembers .finite (textRequest "hello").questions) := by
  have hforward := predictImpl_textRequest (show trimIsEmpty "hello" = false by decide)
  obtain ⟨request, hread, hparams, h⟩ := validateParams_forwarded hforward .finite fun _ => some []
  obtain ⟨hquestions, hstate⟩ : request.questions = (textRequest "hello").questions ∧
      request.state = .str "hello" := by
    simp only [PredictRequest.params, Json.obj.injEq, List.cons.injEq, Prod.mk.injEq, true_and,
      and_true] at hparams
    exact ⟨hparams.1.symm, hparams.2.symm⟩
  rw [hquestions, hstate] at h
  refine h.mpr fun text he => ?_
  obtain rfl := Json.str.inj he
  exact ⟨'h', by decide⟩

/-- A state of one file separator: the daemon forwards it, the worker refuses it as empty. -/
theorem separator_state_refused :
    predictImpl Replay.config (textHost "\x1c") true
        (.ok (Json.compact (textRequest "\x1c").params)) =
      .ok ([("q", "noul")], (textRequest "\x1c").params) ∧
    Worker.validateParams (fun _ => some []) ((textRequest "\x1c").params.toPy .finite) =
      .error (some (.ofString "state must not be an empty string")) :=
  ⟨predictImpl_textRequest (by decide), rfl⟩

end Layad
