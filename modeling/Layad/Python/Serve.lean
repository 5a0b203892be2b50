import Layad.Python.Encoding

namespace Layad

/-!
# The loop of the worker

`serve` reads line after line: it skips the blank ones, answers the others with one frame
each, and stops after a fatal frame, a shutdown line, or the end of its input.  The agent
records the calls it gets.  The frames, the calls and the end are as they should be just if
`repr`, `str` and `json.dumps` return on the replies and whatever these have to quote can be
encoded (`Worker.serves_iff`); a reply that cannot be made raises out of the loop.
-/

/-- A call of the agent. -/
structure AgentCall where
  state : PyVal
  questions : List (PyStr × PyVal)
  outcome : Except Raised PyVal

/-- The agent, with a record of its calls. -/
def Agent.recording {σ : Type} (agent : Agent σ) : Agent (σ × List AgentCall) where
  predict := fun (s, calls) state questions =>
    let (outcome, s) := agent.predict s state questions
    (outcome, s, calls ++ [⟨state, questions, outcome⟩])

namespace Worker

/-- How `serve` ends. -/
inductive Ending where
  | returned (status : Nat)
  /-- An exception that nothing catches: a `UnicodeEncodeError` of `emit`, a `RecursionError` of
      `json.dumps` or `repr`, or what the `str` of an exception raises. -/
  | raised
  deriving DecidableEq, Repr

/-- What `serve` leaves behind: the frames it has written, the agent, the lines it has not read,
    and how it ended. -/
structure Served (σ : Type) where
  frames : List PyVal
  agent : σ
  unread : List PyStr
  ending : Ending

/-- `serve`, on the lines of its input. -/
def serve {σ : Type} (py : PyHost) (agent : Agent σ) (s : σ) : List PyStr → Served σ
  | [] => ⟨[], s, [], .returned 0⟩
  | raw :: rest =>
    match serveLine py agent s raw with
    | .skip s => serve py agent s rest
    | .answer frame s =>
      if (emit py frame).isSome then
        let served := serve py agent s rest
        { served with frames := frame :: served.frames }
      else ⟨[], s, rest, .raised⟩
    | .last frame s =>
      if (emit py frame).isSome then ⟨[frame], s, rest, .returned 1⟩
      else ⟨[], s, rest, .raised⟩
    | .shutdown s => ⟨[], s, rest, .returned 0⟩
    | .raised s => ⟨[], s, rest, .raised⟩

/-! ### What a line is -/

/-- Nothing but white space. -/
def isBlank (raw : PyStr) : Bool := raw.strip.isEmpty

/-- The object a line within the size limit holds. -/
def messageOf (py : PyHost) (raw : PyStr) : Option (List (PyStr × PyVal)) :=
  if isBlank raw || maxInputBytes < raw.strip.encodeReplace.length then none
  else
    match py.loads raw.strip with
    | .ok (.dict message) => some message
    | _ => none

/-- A shutdown line. -/
def isShutdown (py : PyHost) (raw : PyStr) : Bool :=
  (messageOf py raw).any fun message => (PyVal.get message "method").isText "shutdown"

/-- The state and the questions of a predict line whose parameters pass `validate_params`. -/
def requestOf (py : PyHost) (raw : PyStr) : Option (PyVal × List (PyStr × PyVal)) :=
  (messageOf py raw).bind fun message =>
    if (PyVal.get message "method").isText "predict" then
      (validateParams py.repr (PyVal.get message "params")).toOption
    else none

/-- A line that calls for an answer. -/
def isReplied (py : PyHost) (raw : PyStr) : Bool := !isBlank raw && !isShutdown py raw

/-- `frame["id"]`. -/
def frameId : PyVal → PyVal
  | .dict members => PyVal.get members "id"
  | _ => .null

/-- Whether `frame["fatal"]` is true. -/
def isFatal : PyVal → Bool
  | .dict members =>
    match PyVal.get members "fatal" with
    | .bool b => b
    | _ => false
  | _ => false

/-- What the reply to a line has to quote: the id of the line, and the result or the text of
    what went wrong; nothing if `repr` or `str` raises on what that text quotes. -/
def quoted {σ : Type} (py : PyHost) (agent : Agent σ) (s : σ) (raw : PyStr) :
    Option (List PyVal) :=
  let line := raw.strip
  if line.isEmpty || maxInputBytes < line.encodeReplace.length then some []
  else
    match py.loads line with
    | .error err => some [.str err]
    | .ok (.dict message) =>
      let method := PyVal.get message "method"
      let requestId := PyVal.get message "id"
      if method.isText "shutdown" then some []
      else if !method.isText "predict" then
        (py.repr method).map fun text => [requestId, .str text]
      else
        match validateParams py.repr (PyVal.get message "params") with
        | .error err => err.map fun text => [requestId, .str text]
        | .ok (state, questions) =>
          match (agent.predict s state questions).1 with
          | .ok result => some [requestId, result]
          | .error err =>
            if err.requestScoped then err.text.map fun text => [requestId, .str text]
            else some [requestId]
    | .ok _ => some []

/-- There are such values, and none of them holds a lone surrogate. -/
def Sayable (values : Option (List PyVal)) : Prop :=
  ∃ vs, values = some vs ∧ ∀ v ∈ vs, v.Encodable

/-- What `repr` or `str` has raised on cannot be said. -/
@[simp] theorem sayable_none : ¬ Sayable none := by
  rintro ⟨vs, ⟨⟩, -⟩

/-- What is quoted can be said if it can be encoded. -/
@[simp] theorem sayable_some {vs : List PyVal} : Sayable (some vs) ↔ ∀ v ∈ vs, v.Encodable := by
  simp [Sayable]

/-- As far as the lines are read, `repr` and `str` return on what the replies quote, no reply has
    to quote a lone surrogate, and `json.dumps` returns on its frame. -/
def Quotable {σ : Type} (py : PyHost) (agent : Agent σ) : σ → List PyStr → Prop
  | _, [] => True
  | s, raw :: rest => Sayable (quoted py agent s raw) ∧
    match serveLine py agent s raw with
    | .skip s => Quotable py agent s rest
    | .answer frame s => py.dumpsRaises frame = false ∧ Quotable py agent s rest
    | .last frame _ => py.dumpsRaises frame = false
    | .shutdown _ | .raised _ => True

/-! ### What the loop is to do -/

/-- The answer to a line, with what the agent returned or raised if it was called. -/
structure Answer where
  line : PyStr
  frame : PyVal
  outcome : Option (Except Raised PyVal)

/-- The call of the agent an answer stands for. -/
def Answer.call (py : PyHost) (a : Answer) : Option AgentCall :=
  match requestOf py a.line, a.outcome with
  | some (state, questions), some outcome => some ⟨state, questions, outcome⟩
  | _, _ => none

/-- An answer that is right: the agent was called if the line is a valid request, the frame has
    the id of the line, and it is fatal if the line held no object within the limit or the
    agent failed with more than a `ValueError` or a `KeyError`, and only then. -/
structure Answered (py : PyHost) (a : Answer) : Prop where
  called : a.outcome.isSome = (requestOf py a.line).isSome
  id : ∀ message, messageOf py a.line = some message → frameId a.frame = PyVal.get message "id"
  fatal : isFatal a.frame = true ↔ messageOf py a.line = none ∨
    ∃ err, a.outcome = some (.error err) ∧ err.requestScoped = false

/-- What a run of the loop has to satisfy, after some calls `before` it: `done` are the lines it
    has read. -/
structure Serves {σ : Type} (py : PyHost) (before : List AgentCall) (lines done : List PyStr)
    (answers : List Answer) (served : Served (σ × List AgentCall)) : Prop where
  /-- Every line that calls for an answer has one, in order. -/
  read : lines = done ++ served.unread
  answered : answers.map (·.line) = done.filter (isReplied py)
  frames : answers.map (·.frame) = served.frames
  right : ∀ a ∈ answers, Answered py a
  /-- The agent was called once for each valid request, in order. -/
  calls : served.agent.2 = before ++ answers.filterMap (Answer.call py)
  /-- Nothing is read after a shutdown line or answered after a fatal frame. -/
  shutdownLast : ∀ raw ∈ done.dropLast, isShutdown py raw = false
  fatalLast : ∀ a ∈ answers.dropLast, isFatal a.frame = false
  /-- The loop ends with a fatal frame for the last line it has read and status 1, or with
      status 0 after a shutdown line or at the end of its input. -/
  ended : (served.ending = .returned 1 ∧ ∃ a, answers.getLast? = some a ∧
      isFatal a.frame = true ∧ done.getLast? = some a.line) ∨
    (served.ending = .returned 0 ∧ (∀ a ∈ answers, isFatal a.frame = false) ∧
      ((∃ raw, done.getLast? = some raw ∧ isShutdown py raw = true) ∨ served.unread = []))

/-! ### One line -/

/-- One pass of the loop with a recording agent, by the way it ends. -/
inductive Passed {σ : Type} (py : PyHost) (agent : Agent σ) (s : σ) (calls : List AgentCall)
    (raw : PyStr) : Pass (σ × List AgentCall) → Prop where
  | skip (h : isBlank raw = true) : Passed py agent s calls raw (.skip (s, calls))
  | shutdown (h : isShutdown py raw = true) (hb : isBlank raw = false) :
    Passed py agent s calls raw (.shutdown (s, calls))
  | answer {a : Answer} {t : σ} (ha : Answered py a) (hline : a.line = raw)
    (hr : isReplied py raw = true) (hf : isFatal a.frame = false)
    (hq : a.frame.Encodable ↔ Sayable (quoted py agent s raw)) :
    Passed py agent s calls raw (.answer a.frame (t, calls ++ (a.call py).toList))
  | last {a : Answer} {t : σ} (ha : Answered py a) (hline : a.line = raw)
    (hr : isReplied py raw = true) (hf : isFatal a.frame = true)
    (hq : a.frame.Encodable ↔ Sayable (quoted py agent s raw)) :
    Passed py agent s calls raw (.last a.frame (t, calls ++ (a.call py).toList))
  | raised (call : Option AgentCall) {t : σ} (h : quoted py agent s raw = none)
    (hcall : (call.map fun c => (c.state, c.questions)) = requestOf py raw) :
    Passed py agent s calls raw (.raised (t, calls ++ call.toList))

variable {σ : Type} {py : PyHost} {agent : Agent σ} {s : σ} {calls : List AgentCall} {raw : PyStr}

/-- What a line that is read holds. -/
theorem messageOf_eq (py : PyHost) (h : isBlank raw = false)
    (hlen : ¬maxInputBytes < raw.strip.encodeReplace.length) :
    messageOf py raw = match py.loads raw.strip with
      | .ok (.dict message) => some message
      | _ => none := by
  rw [messageOf, h, Bool.false_or, if_neg (by simpa using hlen)]

/-- A message asks for a shutdown by its method. -/
theorem isShutdown_of_message {message : List (PyStr × PyVal)}
    (h : messageOf py raw = some message) :
    isShutdown py raw = (PyVal.get message "method").isText "shutdown" := by
  rw [isShutdown, h, Option.any_some]

/-- The pass of a line that is answered. -/
theorem Passed.of_answered {frame : PyVal} {outcome : Option (Except Raised PyVal)}
    (ha : Answered py ⟨raw, frame, outcome⟩) (hr : isReplied py raw = true)
    (hq : frame.Encodable ↔ Sayable (quoted py agent s raw)) {call : Option AgentCall}
    (hcall : Answer.call py ⟨raw, frame, outcome⟩ = call) (t : σ) (calls : List AgentCall) :
    Passed py agent s calls raw
      (if isFatal frame then .last frame (t, calls ++ call.toList)
      else .answer frame (t, calls ++ call.toList)) := by
  subst hcall
  cases hf : isFatal frame with
  | true => exact .last ha rfl hr hf hq
  | false => exact .answer ha rfl hr hf hq

/-- What is not an object within the limit ends the loop. -/
theorem Passed.unread (hb : isBlank raw = false) (hnone : messageOf py raw = none)
    {code : String} {message : PyStr}
    (hq : message.Encodable ↔ Sayable (quoted py agent s raw)) :
    Passed py agent s calls raw (.last (fatal code message .null) (s, calls)) := by
  have hreq : requestOf py raw = none := by rw [requestOf, hnone, Option.bind_none]
  have hshut : isShutdown py raw = false := by rw [isShutdown, hnone, Option.any_none]
  have ha : Answered py ⟨raw, fatal code message .null, none⟩ :=
    ⟨by rw [hreq]; rfl, fun m hm => absurd (hnone.symm.trans hm) (by simp),
      iff_of_true rfl (.inl hnone)⟩
  have hcall : Answer.call py ⟨raw, fatal code message .null, none⟩ = none := by
    rw [Answer.call, hreq]
  have hframe : (fatal code message .null).Encodable ↔
      Sayable (quoted py agent s raw) := by
    rw [encodable_fatal, ← hq, PyVal.Encodable, true_and]
  have := Passed.of_answered ha (by rw [isReplied, hb, hshut]; rfl) hframe hcall s calls
  rwa [Option.toList_none, List.append_nil] at this

/-- A rejection. -/
theorem Passed.reject (hb : isBlank raw = false) {message : List (PyStr × PyVal)}
    (hm : messageOf py raw = some message)
    (hs : (PyVal.get message "method").isText "shutdown" = false)
    (hreq : requestOf py raw = none) {text : PyStr}
    (hq : (PyVal.get message "id").Encodable ∧ text.Encodable ↔
      Sayable (quoted py agent s raw)) :
    Passed py agent s calls raw
      (.answer (reject (PyVal.get message "id") "invalid_request" text) (s, calls)) := by
  have hshut : isShutdown py raw = false := (isShutdown_of_message hm).trans hs
  have ha : Answered py
      ⟨raw, Worker.reject (PyVal.get message "id") "invalid_request" text, none⟩ :=
    ⟨by rw [hreq]; rfl, fun m hm' => by rw [← Option.some.inj (hm.symm.trans hm')]; rfl,
      iff_of_false Bool.false_ne_true (by simp [hm])⟩
  have hcall : Answer.call py
      ⟨raw, Worker.reject (PyVal.get message "id") "invalid_request" text, none⟩ = none := by
    rw [Answer.call, hreq]
  have := Passed.of_answered ha (by rw [isReplied, hb, hshut]; rfl)
    (encodable_reject.trans hq) hcall s calls
  rwa [Option.toList_none, List.append_nil] at this

/-- A valid request: the agent is called, and the frame is fatal if it failed for good. -/
theorem Passed.request (hb : isBlank raw = false) {message : List (PyStr × PyVal)}
    (hm : messageOf py raw = some message)
    (hs : (PyVal.get message "method").isText "shutdown" = false)
    {state : PyVal} {questions : List (PyStr × PyVal)}
    (hreq : requestOf py raw = some (state, questions)) {outcome : Except Raised PyVal} (t : σ)
    (frame : PyVal) (hid : frameId frame = PyVal.get message "id")
    (hf : isFatal frame = true ↔ ∃ err, outcome = .error err ∧ err.requestScoped = false)
    (hq : frame.Encodable ↔ Sayable (quoted py agent s raw)) :
    Passed py agent s calls raw
      (if isFatal frame then .last frame (t, calls ++ [⟨state, questions, outcome⟩])
      else .answer frame (t, calls ++ [⟨state, questions, outcome⟩])) := by
  have hr : isReplied py raw = true := by
    rw [isReplied, hb, (isShutdown_of_message hm).trans hs]
    rfl
  have ha : Answered py ⟨raw, frame, some outcome⟩ := by
    refine ⟨by rw [hreq]; rfl, fun m hm' => ?_, ?_⟩
    · rw [← Option.some.inj (hm.symm.trans hm')]
      exact hid
    · rw [hf, hm]
      simp
  have hcall : Answer.call py ⟨raw, frame, some outcome⟩ = some ⟨state, questions, outcome⟩ := by
    rw [Answer.call, hreq]
  exact .of_answered ha hr hq hcall t calls

/-- A call is recorded with its outcome. -/
theorem recording_predict {state : PyVal} {questions : List (PyStr × PyVal)}
    {outcome : Except Raised PyVal} {t : σ}
    (h : agent.predict s state questions = (outcome, t)) :
    agent.recording.predict (s, calls) state questions =
      (outcome, t, calls ++ [⟨state, questions, outcome⟩]) := by
  simp only [Agent.recording, h]

/-- A rejection whose text cannot be made; the agent is not called for it. -/
theorem Passed.unsaid (h : quoted py agent s raw = none) (hreq : requestOf py raw = none) :
    Passed py agent s calls raw (.raised (s, calls)) := by
  have : Passed py agent s calls raw (.raised (s, calls ++ [])) := .raised none h hreq.symm
  rwa [List.append_nil] at this

/-- The pass of an object within the limit. -/
theorem passed_message (hb : isBlank raw = false)
    (hlen : ¬maxInputBytes < raw.strip.encodeReplace.length) {message : List (PyStr × PyVal)}
    (hloads : py.loads raw.strip = .ok (.dict message)) :
    Passed py agent s calls raw (serveMessage py agent.recording (s, calls) message) := by
  have hblank : raw.strip.isEmpty = false := hb
  have hm : messageOf py raw = some message := by rw [messageOf_eq py hb hlen, hloads]
  have hreq : requestOf py raw = if (PyVal.get message "method").isText "predict" then
      (validateParams py.repr (PyVal.get message "params")).toOption else none := by
    rw [requestOf, hm, Option.bind_some]
  unfold serveMessage
  dsimp only
  cases hs : (PyVal.get message "method").isText "shutdown" with
  -- a shutdown is taken before anything is looked at
  | true => exact .shutdown ((isShutdown_of_message hm).trans hs) hb
  | false =>
    rw [if_neg Bool.false_ne_true]
    cases hp : (PyVal.get message "method").isText "predict" with
    | false =>
      rw [hp, if_neg Bool.false_ne_true] at hreq
      -- an unsupported method, which is quoted by its `repr`
      cases hrepr : py.repr (PyVal.get message "method") with
      | none => exact .unsaid (by simp [quoted, hblank, hlen, hloads, hs, hp, hrepr]) hreq
      | some text =>
        refine .reject hb hm hs hreq ?_
        simp [quoted, hblank, hlen, hloads, hs, hp, hrepr, PyVal.Encodable,
          PyStr.encodable_append, PyStr.encodable_ofString]
    -- a prediction
    | true =>
      rw [hp, if_pos rfl] at hreq
      rw [if_neg (by simp)]
      cases hv : validateParams py.repr (PyVal.get message "params") with
      -- whose params are rejected, or which the agent is asked
      | error err =>
        rw [hv] at hreq
        cases err with
        | none => exact .unsaid (by simp [quoted, hblank, hlen, hloads, hs, hp, hv]) hreq
        | some text =>
          refine .reject hb hm hs hreq ?_
          simp [quoted, hblank, hlen, hloads, hs, hp, hv, PyVal.Encodable]
      | ok params =>
        rw [hv] at hreq
        obtain ⟨state, questions⟩ := params
        dsimp only
        cases hpred : agent.predict s state questions with
        | mk outcome t =>
          rw [recording_predict hpred]
          cases outcome with
          | ok result =>
            have hquoted : quoted py agent s raw = some [PyVal.get message "id", result] := by
              simp [quoted, hblank, hlen, hloads, hs, hp, hv, hpred]
            exact .request hb hm hs hreq t (ok (PyVal.get message "id") result) rfl
              (iff_of_false Bool.false_ne_true (by simp))
              (by rw [encodable_ok, hquoted]; simp)
          | error err =>
            dsimp only
            have hquoted : quoted py agent s raw =
                if err.requestScoped then
                  err.text.map fun text => [PyVal.get message "id", .str text]
                else some [PyVal.get message "id"] := by
              simp [quoted, hblank, hlen, hloads, hs, hp, hv, hpred]
            cases hscope : err.requestScoped with
            | true =>
              rw [if_pos rfl]
              rw [hscope, if_pos rfl] at hquoted
              cases htext : err.text with
              -- the agent was called, and its exception has no text
              | none =>
                exact .raised (some ⟨state, questions, .error err⟩)
                  (by rw [hquoted, htext, Option.map_none]) hreq.symm
              | some text =>
                exact .request hb hm hs hreq t
                  (Worker.reject (PyVal.get message "id") "invalid_request" text) rfl
                  (iff_of_false Bool.false_ne_true (by simp [hscope]))
                  (by rw [encodable_reject, hquoted, htext]; simp [PyVal.Encodable])
            | false =>
              exact .request hb hm hs hreq t
                (fatal "inference_failed"
                  (.ofString "inference failed, see worker stderr") (PyVal.get message "id"))
                rfl (iff_of_true rfl ⟨err, rfl, hscope⟩)
                (by rw [encodable_fatal, hquoted]; simp [hscope, PyStr.encodable_ofString])

/-- Every pass of the loop is of one of these kinds. -/
theorem passed (py : PyHost) (agent : Agent σ) (s : σ) (calls : List AgentCall) (raw : PyStr) :
    Passed py agent s calls raw (serveLine py agent.recording (s, calls) raw) := by
  unfold serveLine
  dsimp only
  cases hblank : raw.strip.isEmpty with
  | true => exact .skip hblank
  | false =>
    have hb : isBlank raw = false := hblank
    rw [if_neg Bool.false_ne_true]
    split
    · -- too long
      rename_i hlong
      refine .unread hb (by simp [messageOf, hlong]) ?_
      simp [quoted, hlong, PyStr.encodable_ofString]
    · rename_i hlen
      have hm := messageOf_eq py hb hlen
      split
      · -- not read
        rename_i err hloads
        rw [hloads] at hm
        refine .unread hb hm ?_
        simp [quoted, hblank, hlen, hloads, PyVal.Encodable, PyStr.encodable_append,
          PyStr.encodable_ofString]
      · rename_i message hloads
        exact passed_message hb hlen hloads
      · -- no object
        rename_i value hne hloads
        have hnone : messageOf py raw = none := by
          rw [hm, hloads]
          cases value with
          | dict message => exact absurd rfl (hne message)
          | _ => rfl
        refine .unread hb hnone ?_
        simp [quoted, hblank, hlen, hloads, PyStr.encodable_ofString]

/-! ### The whole input -/

/-- A blank line asks for no shutdown. -/
theorem isShutdown_of_isBlank (h : isBlank raw = true) : isShutdown py raw = false := by
  rw [isShutdown, messageOf, h, Bool.true_or, if_pos rfl, Option.any_none]

/-- A line is replied to if it is no blank line and asks for no shutdown. -/
theorem isReplied_iff :
    isReplied py raw = true ↔ isBlank raw = false ∧ isShutdown py raw = false := by
  rw [isReplied, Bool.and_eq_true, Bool.not_eq_true', Bool.not_eq_true']

/-- An element that is not the last is the first, or not the last of the rest. -/
theorem mem_dropLast_cons {α : Type} {a b : α} {l : List α} (h : a ∈ (b :: l).dropLast) :
    a = b ∨ a ∈ l.dropLast := by
  cases l with
  | nil => cases h
  | cons c rest => exact List.mem_cons.mp h

/-- The last element of the rest is the last of all. -/
theorem getLast?_cons_of_eq {α : Type} {a b : α} {l : List α} (h : l.getLast? = some a) :
    (b :: l).getLast? = some a := by
  rw [List.getLast?_cons, h, Option.getD_some]

variable {before : List AgentCall} {rest done : List PyStr} {answers : List Answer}
  {served : Served (σ × List AgentCall)}

/-- At the end of the input. -/
theorem Serves.nil (py : PyHost) (before : List AgentCall) (s : σ) :
    Serves py before [] [] [] ⟨[], (s, before), [], .returned 0⟩ where
  read := rfl
  answered := rfl
  frames := rfl
  right := fun _ h => absurd h List.not_mem_nil
  calls := (List.append_nil before).symm
  shutdownLast := fun _ h => absurd h List.not_mem_nil
  fatalLast := fun _ h => absurd h List.not_mem_nil
  ended := .inr ⟨rfl, fun _ h => absurd h List.not_mem_nil, .inr rfl⟩

/-- After a blank line. -/
theorem Serves.skip (h : isBlank raw = true) (hs : Serves py before rest done answers served) :
    Serves py before (raw :: rest) (raw :: done) answers served where
  read := congrArg (raw :: ·) hs.read
  answered := by
    rw [List.filter_cons_of_neg (by simp [isReplied, h])]
    exact hs.answered
  frames := hs.frames
  right := hs.right
  calls := hs.calls
  shutdownLast := fun r hr => (mem_dropLast_cons hr).elim
    (fun he => he ▸ isShutdown_of_isBlank h) (hs.shutdownLast r)
  fatalLast := hs.fatalLast
  ended := hs.ended.imp
    (fun ⟨he, a, ha, hf, hd⟩ => ⟨he, a, ha, hf, getLast?_cons_of_eq hd⟩)
    (fun ⟨he, hf, hend⟩ => ⟨he, hf, hend.imp_left fun ⟨r, hr, hsd⟩ =>
      ⟨r, getLast?_cons_of_eq hr, hsd⟩⟩)

/-- After a line that was answered with a frame that is not fatal. -/
theorem Serves.answer {a : Answer} (ha : Answered py a) (hr : isReplied py a.line = true)
    (hf : isFatal a.frame = false)
    (hs : Serves py (before ++ (a.call py).toList) rest done answers served) :
    Serves py before (a.line :: rest) (a.line :: done) (a :: answers)
      { served with frames := a.frame :: served.frames } where
  read := congrArg (a.line :: ·) hs.read
  answered := by
    rw [List.filter_cons_of_pos hr, List.map_cons, hs.answered]
  frames := by
    rw [List.map_cons, hs.frames]
  right := fun b hb => (List.mem_cons.mp hb).elim (fun he => he ▸ ha) (hs.right b)
  calls := by
    rw [hs.calls, List.append_assoc, List.filterMap_cons]
    cases a.call py <;> rfl
  shutdownLast := fun r hr' => (mem_dropLast_cons hr').elim
    (fun he => he ▸ (isReplied_iff.mp hr).2) (hs.shutdownLast r)
  fatalLast := fun b hb => (mem_dropLast_cons hb).elim (fun he => he ▸ hf) (hs.fatalLast b)
  ended := hs.ended.imp
    (fun ⟨he, b, hb, hbf, hd⟩ =>
      ⟨he, b, getLast?_cons_of_eq hb, hbf, getLast?_cons_of_eq hd⟩)
    (fun ⟨he, hall, hend⟩ => ⟨he, fun b hb => (List.mem_cons.mp hb).elim (fun h => h ▸ hf) (hall b),
      hend.imp_left fun ⟨r, hr', hsd⟩ => ⟨r, getLast?_cons_of_eq hr', hsd⟩⟩)

/-- With a fatal frame. -/
theorem Serves.last {a : Answer} (ha : Answered py a) (hr : isReplied py a.line = true)
    (hf : isFatal a.frame = true) (s : σ) :
    Serves py before (a.line :: rest) [a.line] [a]
      ⟨[a.frame], (s, before ++ (a.call py).toList), rest, .returned 1⟩ where
  read := rfl
  answered := by
    rw [List.filter_cons_of_pos hr]
    rfl
  frames := rfl
  right := fun b hb => List.mem_singleton.mp hb ▸ ha
  calls := by
    rw [List.filterMap_cons]
    cases a.call py <;> rfl
  shutdownLast := fun _ h => absurd h List.not_mem_nil
  fatalLast := fun _ h => absurd h List.not_mem_nil
  ended := .inl ⟨rfl, a, rfl, hf, rfl⟩

/-- With a shutdown line. -/
theorem Serves.shutdown (h : isShutdown py raw = true) (s : σ) :
    Serves py before (raw :: rest) [raw] [] ⟨[], (s, before), rest, .returned 0⟩ where
  read := rfl
  answered := by
    rw [List.filter_cons_of_neg (by simp [isReplied, h])]
    rfl
  frames := rfl
  right := fun _ h => absurd h List.not_mem_nil
  calls := (List.append_nil before).symm
  shutdownLast := fun _ h => absurd h List.not_mem_nil
  fatalLast := fun _ h => absurd h List.not_mem_nil
  ended := .inr ⟨rfl, fun _ h => absurd h List.not_mem_nil, .inl ⟨raw, rfl, h⟩⟩

/-! ### The record -/

/-- A pass with another agent behind it. -/
def Pass.map {σ τ : Type} (f : σ → τ) : Pass σ → Pass τ
  | .skip s => .skip (f s)
  | .answer frame s => .answer frame (f s)
  | .last frame s => .last frame (f s)
  | .shutdown s => .shutdown (f s)
  | .raised s => .raised (f s)

/-- The same with what is left. -/
def Served.map {σ τ : Type} (f : σ → τ) (served : Served σ) : Served τ :=
  { served with agent := f served.agent }

/-- Recording changes nothing of a message's answer. -/
theorem serveMessage_recording (py : PyHost) (agent : Agent σ) (s : σ) (calls : List AgentCall)
    (message : List (PyStr × PyVal)) :
    (serveMessage py agent.recording (s, calls) message).map Prod.fst =
      serveMessage py agent s message := by
  unfold serveMessage
  dsimp only
  split
  · rfl
  · split
    · cases py.repr (PyVal.get message "method") <;> rfl
    · cases validateParams py.repr (PyVal.get message "params") with
      | error err => cases err <;> rfl
      | ok params =>
        cases hpred : agent.predict s params.1 params.2 with
        | mk outcome t =>
          dsimp only
          rw [recording_predict hpred]
          cases outcome with
          | ok result => simp only [hpred, Pass.map]
          | error err =>
            simp only [hpred]
            split
            · cases err.text <;> rfl
            · rfl

/-- Recording changes nothing of a line's. -/
theorem serveLine_recording (py : PyHost) (agent : Agent σ) (s : σ) (calls : List AgentCall)
    (raw : PyStr) :
    (serveLine py agent.recording (s, calls) raw).map Prod.fst = serveLine py agent s raw := by
  unfold serveLine
  dsimp only
  split
  · rfl
  · split
    · rfl
    · split
      · rfl
      · exact serveMessage_recording py agent s calls _
      · rfl

/-- Recording changes nothing. -/
theorem serve_recording (py : PyHost) (agent : Agent σ) (lines : List PyStr) :
    ∀ (s : σ) (calls : List AgentCall),
      (serve py agent.recording (s, calls) lines).map Prod.fst = serve py agent s lines := by
  induction lines with
  | nil => exact fun s calls => rfl
  | cons raw rest ih =>
    intro s calls
    have hpass := serveLine_recording py agent s calls raw
    rw [serve, serve, ← hpass]
    cases serveLine py agent.recording (s, calls) raw with
    | skip t => exact ih t.1 t.2
    | answer frame t =>
      simp only [Pass.map]
      split
      · rw [← ih t.1 t.2]
        rfl
      · rfl
    | last frame t =>
      simp only [Pass.map]
      split <;> rfl
    | shutdown t => rfl
    | raised t => rfl

/-! ### The loop -/

/-- Nothing is quoted of a blank line. -/
theorem quoted_of_isBlank (h : isBlank raw = true) : quoted py agent s raw = some [] := by
  rw [quoted, show raw.strip.isEmpty = true from h, Bool.true_or]
  rfl

/-- Nothing is quoted of a shutdown. -/
theorem quoted_of_isShutdown (h : isShutdown py raw = true) :
    quoted py agent s raw = some [] := by
  cases hm : messageOf py raw with
  | none =>
    rw [isShutdown, hm] at h
    cases h
  | some message =>
    have hs := (isShutdown_of_message hm).symm.trans h
    rw [messageOf] at hm
    split at hm
    · cases hm
    · rename_i hread
      split at hm
      · rename_i hloads
        obtain rfl := Option.some.inj hm
        rw [quoted]
        simp only [isBlank] at hread
        rw [if_neg hread, hloads]
        simp only [hs, if_true]
      · cases hm

/-- The loop serves lines that can be quoted. -/
theorem serves_of_quotable {lines : List PyStr} : ∀ {s : σ} {before : List AgentCall},
    Quotable py agent s lines → ∃ done answers,
      Serves py before lines done answers (serve py agent.recording (s, before) lines) := by
  induction lines with
  | nil => exact fun _ => ⟨[], [], .nil py _ _⟩
  | cons raw rest ih =>
    intro s before hq
    obtain ⟨hline, hrest⟩ := hq
    have hpass := passed py agent s before raw
    rw [← serveLine_recording py agent s before raw] at hrest
    rw [serve]
    generalize serveLine py agent.recording (s, before) raw = pass at hpass hrest ⊢
    cases hpass with
    | skip hblank =>
      obtain ⟨done, answers, h⟩ := ih hrest
      exact ⟨raw :: done, answers, h.skip hblank⟩
    | shutdown hshut => exact ⟨[raw], [], .shutdown hshut s⟩
    -- the frame is written, since it can be quoted
    | @answer a t ha hl hr hf hframe =>
      subst hl
      obtain ⟨hdumps, hrest⟩ := hrest
      obtain ⟨done, answers, h⟩ := ih hrest
      have hemit : (emit py a.frame).isSome = true :=
        (isSome_emit py _).mpr ⟨hdumps, hframe.mpr hline⟩
      simp only [hemit, if_true]
      exact ⟨a.line :: done, a :: answers, h.answer ha hr hf⟩
    | @last a t ha hl hr hf hframe =>
      subst hl
      have hemit : (emit py a.frame).isSome = true :=
        (isSome_emit py _).mpr ⟨hrest, hframe.mpr hline⟩
      simp only [hemit, if_true]
      exact ⟨[a.line], [a], .last ha hr hf t⟩
    | raised _ hnone =>
      rw [hnone] at hline
      exact absurd hline sayable_none

/-- A reply that cannot be made raises out of the loop. -/
theorem ending_of_not_quotable {lines : List PyStr} : ∀ {s : σ} (before : List AgentCall),
    ¬Quotable py agent s lines →
      (serve py agent.recording (s, before) lines).ending = .raised := by
  induction lines with
  | nil => exact fun _ h => absurd trivial h
  | cons raw rest ih =>
    intro s before hq
    rw [Quotable, not_and] at hq
    have hpass := passed py agent s before raw
    rw [← serveLine_recording py agent s before raw] at hq
    rw [serve]
    generalize serveLine py agent.recording (s, before) raw = pass at hpass hq ⊢
    cases hpass with
    | skip hblank => exact ih _ (hq (by simp [quoted_of_isBlank hblank]))
    | shutdown hshut => exact absurd trivial (hq (by simp [quoted_of_isShutdown hshut]))
    | @answer a t ha hl hr hf hframe =>
      cases hemit : (emit py a.frame).isSome with
      -- the frame was written, so it is a later line that cannot be quoted
      | true =>
        obtain ⟨hdumps, hline⟩ := (isSome_emit py _).mp hemit
        simp only [hemit, if_true]
        exact ih _ fun hrest => hq (hframe.mp hline) ⟨hdumps, hrest⟩
      | false => simp [hemit]
    | @last a t ha hl hr hf hframe =>
      cases hemit : (emit py a.frame).isSome with
      | true =>
        obtain ⟨hdumps, hline⟩ := (isSome_emit py _).mp hemit
        exact absurd hdumps (hq (hframe.mp hline))
      | false => simp [hemit]
    | raised => rfl

/-- A shutdown is no prediction. -/
theorem isText_ne {v : PyVal} (h : v.isText "shutdown" = true) : v.isText "predict" = false := by
  cases v with
  | str s =>
    obtain rfl : s = .ofString "shutdown" := of_decide_eq_true h
    decide
  | _ => cases h

/-- A request is replied to. -/
theorem isReplied_of_request (h : (requestOf py raw).isSome = true) : isReplied py raw = true := by
  cases hm : messageOf py raw with
  | none =>
    rw [requestOf, hm] at h
    cases h
  | some message =>
    rw [isReplied_iff, isShutdown_of_message hm]
    rw [requestOf, hm, Option.bind_some] at h
    constructor
    · by_contra hb
      rw [messageOf, Bool.of_not_eq_false hb, Bool.true_or, if_pos rfl] at hm
      cases hm
    · by_contra hs
      rw [isText_ne (Bool.of_not_eq_false hs)] at h
      cases h

/-- One line is at most one call, of the request it holds. -/
theorem calls_of_line (py : PyHost) (agent : Agent σ) (s : σ) (raw : PyStr) :
    (∀ call ∈ (serve py agent.recording (s, []) [raw]).agent.2,
      requestOf py raw = some (call.state, call.questions)) ∧
    ((requestOf py raw).isSome = true →
      (serve py agent.recording (s, []) [raw]).agent.2.length = 1) := by
  -- an answered line has the calls that its answer says
  have hanswer : ∀ {a : Answer}, Answered py a → a.line = raw →
      (∀ call ∈ [] ++ (a.call py).toList, requestOf py raw = some (call.state, call.questions)) ∧
        ((requestOf py raw).isSome = true → ([] ++ (a.call py).toList).length = 1) := by
    rintro a ha rfl
    have hcalled := ha.called
    rw [List.nil_append, Answer.call]
    cases hreq : requestOf py a.line with
    | none => simp
    | some request =>
      rw [hreq] at hcalled
      obtain ⟨outcome, ho⟩ := Option.isSome_iff_exists.mp hcalled
      simp [ho]
  -- any other line is no request
  have hnone : ∀ {p : Prop}, isReplied py raw = false → (requestOf py raw).isSome = true → p :=
    fun hr h => absurd (isReplied_of_request h) (by rw [hr]; exact Bool.false_ne_true)
  have hpass := passed py agent s [] raw
  simp only [serve]
  generalize serveLine py agent.recording (s, []) raw = pass at hpass ⊢
  cases hpass with
  | skip hb => exact ⟨fun _ hc => absurd hc List.not_mem_nil, hnone (by rw [isReplied, hb]; rfl)⟩
  | shutdown hs =>
    exact ⟨fun _ hc => absurd hc List.not_mem_nil,
      hnone (by rw [isReplied, hs, Bool.not_true, Bool.and_false])⟩
  | answer ha hline =>
    dsimp only
    split <;> exact hanswer ha hline
  | last ha hline =>
    dsimp only
    split <;> exact hanswer ha hline
  | @raised call t _ hcall =>
    rw [← hcall]
    cases call <;> simp

/-- **`serve` answers each line once**, for every input and every agent: one frame for each
    line that calls for one, with its id, one call for each valid request, nothing after a
    fatal frame or a shutdown line, and status 0 or 1 as the loop ended, just if `repr`, `str`
    and `json.dumps` return on the replies and none has to quote a lone surrogate. -/
theorem serves_iff (py : PyHost) (agent : Agent σ) (s : σ) (lines : List PyStr) :
    (serve py agent.recording (s, []) lines).map Prod.fst = serve py agent s lines ∧
    ((∃ done answers, Serves py [] lines done answers (serve py agent.recording (s, []) lines)) ↔
      Quotable py agent s lines) := by
  refine ⟨serve_recording py agent lines s [], ?_, serves_of_quotable⟩
  rintro ⟨done, answers, h⟩
  by_contra hq
  have hend := ending_of_not_quotable [] hq
  rcases h.ended with ⟨he, -⟩ | ⟨he, -⟩
  all_goals
    rw [hend] at he
    cases he

/-- Library functions that read one line, a message of an unknown method whose id is a lone
    surrogate. -/
def surrogateHost : PyHost where
  loads line :=
    if line = .ofString "\x7b\"id\": \"\\ud800\", \"method\": \"x\"\x7d" then
      .ok (dict [("id", .str [0xd800]), ("method", .text "x")])
    else .error (.ofString "Expecting value: line 1 column 1 (char 0)")
  repr
    | .str s => some (PyStr.ofChar '\'' :: s ++ [PyStr.ofChar '\''])
    | _ => none
  dumpsRaises _ := false

/-- The line has no answer, and the loop neither goes on nor returns. -/
theorem surrogate_id_unanswered :
    let lines := [PyStr.ofString "\x7b\"id\": \"\\ud800\", \"method\": \"x\"\x7d"]
    let served := serve surrogateHost
      (Agent.recording (σ := Unit) ⟨fun s _ _ => (.ok .null, s)⟩) ((), []) lines
    served.frames = [] ∧ served.unread = [] ∧ served.ending = .raised ∧
      ¬∃ done answers, Serves surrogateHost [] lines done answers served := by
  intro lines served
  have hend : served.ending = .raised := by decide +kernel
  refine ⟨rfl, rfl, hend, ?_⟩
  rintro ⟨done, answers, h⟩
  rcases h.ended with ⟨he, -⟩ | ⟨he, -⟩
  all_goals
    rw [hend] at he
    cases he

end Worker

end Layad
