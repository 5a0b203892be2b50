import Layad.Joint.Link
import Layad.Python.Serve
import Layad.Validation

namespace Layad

open Channel Transition

/-!
# Answers come from the agent

Whatever happens on the way, a caller gets what the agent answers to its own request.

* `Joint.answered_directly` — a result is what `Agent.predict` returns on the state and the
  questions of the caller's own body, after the requests begun before it; a rejection is the
  worker's own, of that request.
* `Joint.asked_once` — the agent is asked at most once for a request, and in their order.
-/

/-! ### Where a rejection comes from -/

namespace Sup

variable {cx : Ctx} {sh : Shared} {p p' : Sup} {ev : SupEv} {eff : Eff}

/-- The accepted reply to the frame of call `key` comes to this answer. -/
def Resolves (p : Sup) (key : Nat) (answer : Answer) : Prop :=
  ∃ (i : Nat) (f : Dispatch) (body : Reply), p.frames[i]? = some f ∧ f.job.reply = key ∧
    p.replies[i]? = some (f.id, body) ∧ body.answer = answer

/-- What resolves a call goes on resolving it as frames and lines are added. -/
theorem Resolves.mono {key : Nat} {answer : Answer} (h : p.Resolves key answer)
    (hf : p.frames <+: p'.frames) (hl : p.lines <+: p'.lines) : p'.Resolves key answer := by
  obtain ⟨i, f, body, hi, hk, hr, ha⟩ := h
  exact ⟨i, f, body, getElem?_of_prefix hf hi, hk, getElem?_of_prefix (hl.filterMap _) hr, ha⟩

/-- A reply with a result comes to that answer. -/
theorem Answers.resolves {key : Nat} {v : Json} (h : p.Answers key v) : p.Resolves key (.ok v) := by
  obtain ⟨i, f, hi, hk, hr⟩ := h
  exact ⟨i, f, .ok v, hi, hk, hr, rfl⟩

/-- A rejection is about to be handed on. -/
def Rejecting (p : Sup) (key : Nat) (message : String) : Prop :=
  ∃ next, p.pc = .answer key (.error (.invalidRequest message)) next

/-- A session that ends in a restart hands on no rejection. -/
theorem not_rejecting_settleRestart (err : StartError) (reason : String) (key : Nat)
    (message : String) : ¬ (p.settleRestart sh err reason).Rejecting key message := by
  rintro ⟨next, hpc⟩
  unfold settleRestart at hpc
  split at hpc <;> cases hpc

/-- A frame read between requests hands on no rejection. -/
theorem not_rejecting_onIdleFrame (frame : Except String Frame) (key : Nat) (message : String) :
    ¬ (p.onIdleFrame cx sh frame).Rejecting key message := by
  unfold onIdleFrame
  repeat' split
  all_goals first
    | exact not_rejecting_settleRestart _ _ _ _
    | (rintro ⟨next, hpc⟩; cases hpc)

/-- An error that invalidates the worker is no rejection. -/
theorem not_rejecting_failInflight {err : WorkerError} (he : err.invalidatesWorker = true)
    (reason : String) (key : Nat) (message : String) :
    ¬ (p.failInflight err reason).Rejecting key message := by
  rintro ⟨next, hpc⟩
  unfold failInflight at hpc
  split at hpc
  · cases hpc
    cases he
  · cases hpc

/-- A frame that was waited for is a rejection only if it is the reply that says so. -/
theorem rejecting_onWaitFrame {frame : Except String Frame} {key : Nat} {message : String}
    (h : (p.onWaitFrame cx sh frame).Rejecting key message) :
    ∃ text id body, p.inflight = some (id, key) ∧
      (p.onWaitFrame cx sh frame).lines = p.lines ++ [⟨text, .reply id body⟩] ∧
      body.answer = .error (.invalidRequest message) := by
  revert h
  unfold onWaitFrame onReply
  dsimp only
  repeat' split
  all_goals first
    | exact fun h => absurd h (not_rejecting_failInflight rfl _ _ _)
    | skip
  all_goals
    rintro ⟨next, hpc⟩
    simp at hpc
  all_goals
    rename p.inflight = _ => hi
    rename ParsedReply => parsed
    obtain ⟨rfl, ha, -⟩ := hpc
    have hid := not_not.mp ‹¬ parsed.id ≠ _›
    subst hid
    refine ⟨_, parsed.id, parsed.body, hi, rfl, ?_⟩
    simp [*, Reply.answer]

/-- A rejection is handed on right after the reply that says so. -/
theorem step_rejecting {key : Nat} {message : String} (h : p.step cx sh ev = some (p', eff))
    (hr : p'.Rejecting key message) : p.pc = .wait ∧ ∃ text id body,
      p.inflight = some (id, key) ∧ p'.lines = p.lines ++ [⟨text, .reply id body⟩] ∧
      p'.frames = p.frames ∧ body.answer = .error (.invalidRequest message) := by
  revert h hr
  fun_cases Sup.step cx sh p ev
  all_goals intro h hr
  all_goals simp only [Option.some.injEq, Prod.mk.injEq, reduceCtorEq] at h
  all_goals obtain ⟨rfl, rfl⟩ := h
  all_goals try exact absurd hr (not_rejecting_settleRestart _ _ _ _)
  all_goals try exact absurd hr (not_rejecting_failInflight rfl _ _ _)
  all_goals try (obtain ⟨next, hpc⟩ := hr; cases hpc)
  all_goals try
    rename Option String => reason
    obtain ⟨next, hpc⟩ := hr
    cases reason <;> cases hpc
  -- a read
  all_goals
    rename p.read cx _ = some _ => hread
    obtain ⟨buf, avail, rfl⟩ := read_eq hread
    rename p.pc = _ => hpc
  · obtain ⟨next, hno⟩ := hr
    cases hpc.symm.trans hno
  · exact absurd hr (not_rejecting_onIdleFrame _ _ _)
  · obtain ⟨next, hno⟩ := hr
    cases hpc.symm.trans hno
  · obtain ⟨text, id, body, hi, hl, ha⟩ := rejecting_onWaitFrame hr
    exact ⟨hpc, text, id, body, hi, hl, (onWaitFrame_frames _).1, ha⟩

/-- What is handed on as a rejection is the reply to the request in flight. -/
theorem Synced.resolves (hs : p.Synced) {key : Nat} {message : String}
    (h : p.step cx sh ev = some (p', eff)) (hr : p'.Rejecting key message) :
    p'.Resolves key (.error (.invalidRequest message)) := by
  obtain ⟨hpc, text, id, body, hi, hl, hf, ha⟩ := step_rejecting h hr
  obtain ⟨before, f, he, rfl, hkey, hlen⟩ :=
    hs.outstanding id key (by simp [Sup.outstanding, hpc, hi])
  have hreplies : p'.replies = p.replies ++ [(f.id, body)] := by
    simp [Sup.replies, hl, LineRead.reply]
  exact ⟨before.length, f, body, by simp [hf, he], hkey, by simp [hreplies, ← hlen], ha⟩

end Sup

/-- A call is answered by its reply channel, or refused with another error than a rejection. -/
theorem Call.step_rejected {cx : Ctx} {sh : Shared} {key : Nat} {c c' : Call} {ev : CallEv}
    {eff : Eff} (h : c.step cx sh key ev = some (c', eff)) {message : String}
    (ha : c'.answered = some (.error (.invalidRequest message))) :
    c.answered = c'.answered ∨
      (sh.replies key).slot = .sent (.error (.invalidRequest message)) := by
  cases stepped h with
  | started request hs =>
    revert hs ha
    fun_cases start sh request
    all_goals intro ha hs
    all_goals obtain ⟨rfl, -⟩ := Prod.mk.inj hs
    all_goals cases ha
  | @predict params pc pc' eff hs =>
    revert hs
    fun_cases predictStep sh key params pc ev
    all_goals intro hs
    all_goals simp only [Option.some.injEq, Prod.mk.injEq, reduceCtorEq] at hs
    all_goals obtain ⟨rfl, rfl⟩ := hs
    all_goals simp_all [answered]
    rename refusal sh.state = _ => href
    cases hstate : sh.state <;> simp [refusal, hstate] at href
  | readiness | shutdown | killNow | markFailed => exact .inl rfl

namespace Call

variable {cx : Ctx} {sh : Shared} {key : Nat} {request : Request}

/-- A kill begins no request. -/
theorem killStep_begin (pc : KillPc) : killStep cx sh pc (.begin request) = none := by
  cases pc <;> rfl

/-- A shutdown begins no request. -/
theorem shutdownStep_begin (grace : Nat) (pc : ShutPc) :
    shutdownStep cx sh key grace pc (.begin request) = none := by
  cases pc <;> simp [shutdownStep, killStep_begin]

/-- A wait for readiness begins no request. -/
theorem readinessStep_begin (pc : StartPc) :
    readinessStep cx sh key pc (.begin request) = none := by
  cases pc <;> simp [readinessStep, shutdownStep_begin]

/-- Only a call that is idle begins. -/
theorem idle_of_begin {c c' : Call} {eff : Eff}
    (h : c.step cx sh key (.begin request) = some (c', eff)) : c = .idle := by
  cases c with
  | idle => rfl
  | readiness pc => simp [step, readinessStep_begin] at h
  | predict params pc => cases pc <;> simp [step, predictStep] at h
  | shutdown grace pc => simp [step, shutdownStep_begin] at h
  | killNow pc => simp [step, killStep_begin] at h
  | markFailed reason stage =>
    cases stage with
    | none => cases h
    | some stage => cases stage <;> simp [step, markStep] at h

end Call

namespace Sys

variable {cx : Ctx} {s : Sys}

/-- Every rejection is that of the reply to the request itself. -/
structure Rejects (s : Sys) : Prop where
  handed : ∀ key message, s.sup.Rejecting key message →
    s.sup.Resolves key (.error (.invalidRequest message))
  slot : ∀ key message, (s.sh.replies key).slot = .sent (.error (.invalidRequest message)) →
    s.sup.Resolves key (.error (.invalidRequest message))
  answered : ∀ key message, (s.calls key).answered = some (.error (.invalidRequest message)) →
    s.sup.Resolves key (.error (.invalidRequest message))

/-- In every reachable state a rejection is that of the reply to the request itself. -/
theorem Rejects.reachable (h : (handle cx).Reachable s) : s.Rejects := by
  refine Machine.Reachable.induct ?_ ?_ h
  · refine ⟨?_, ?_, ?_⟩
    · rintro key message ⟨next, hpc⟩
      cases hpc
    · intro key message hs
      simp [handle, Sys.init] at hs
    · intro key message hs
      simp only [handle, Sys.init] at hs
      split at hs <;> cases hs
  · intro s l s' hr hs hstep
    have hserved := Served.reachable hr
    rcases step_cases hstep with
      ⟨ev, p, eff, -, hp, rfl⟩ | ⟨key, ev, c, eff, -, hc, rfl⟩ | ⟨d, -, rfl⟩ | ⟨status, -, rfl⟩
    · -- the supervisor hands on the reply to the frame in flight
      have hmono : ∀ {key answer}, s.sup.Resolves key answer → p.Resolves key answer :=
        fun h => h.mono (Sup.frames_mono hp) (Sup.lines_mono hp)
      refine ⟨fun key message hk => hserved.synced.resolves hp hk, fun key message hk => ?_,
        fun key message hk => hmono (hs.answered key message hk)⟩
      rcases Shared.slot_apply_eq_sent hk with hk | rfl
      · exact hmono (hs.slot key message hk)
      · rcases Sup.step_does hp with ⟨next, hpc⟩ | ⟨detail, -, hno⟩
        · exact hmono (hs.handed key message ⟨next, hpc⟩)
        · cases hno
    · -- a call takes what its channel holds
      refine ⟨hs.handed, fun k message hk => hs.slot k message
        (by rwa [slot_of_call (Call.step_moved hc).does] at hk), fun k message hk => ?_⟩
      dsimp only at hk
      by_cases he : k = key
      · subst he
        rw [Function.update_self] at hk
        rcases Call.step_rejected hc hk with ha | ha
        · exact hs.answered k message (ha.trans hk)
        · exact hs.slot k message ha
      · rw [Function.update_of_ne he] at hk
        exact hs.answered k message hk
    · exact ⟨hs.handed, hs.slot, hs.answered⟩
    · exact ⟨hs.handed, hs.slot, hs.answered⟩

/-- A call that begins a prediction is one with its parameters. -/
theorem predict_begun {s' : Sys} {k : Nat} {params : Json}
    (h : s.step cx (.call k (.begin (.predict params))) = some s') :
    ∃ pc, s'.calls k = .predict params pc := by
  obtain ⟨⟨c, eff⟩, hc, rfl⟩ := Option.map_eq_some_iff.mp h
  show ∃ pc, Function.update s.calls k c k = .predict params pc
  rw [Function.update_self]
  have hidle : s.calls k = .idle := Call.idle_of_begin hc
  rw [hidle] at hc
  have hstart := Option.some.inj hc
  simp only [Call.start] at hstart
  split at hstart <;> cases hstart
  · exact ⟨_, rfl⟩
  · exact ⟨_, rfl⟩

/-- A prediction stays one with its parameters. -/
theorem predict_step {s' : Sys} {l : Label} (h : s.step cx l = some s') {k : Nat} {params : Json}
    (hk : ∃ pc, s.calls k = .predict params pc) : ∃ pc, s'.calls k = .predict params pc := by
  obtain ⟨pc, hk⟩ := hk
  rcases step_cases h with
    ⟨ev, p, eff, -, hp, rfl⟩ | ⟨key, ev, c, eff, -, hc, rfl⟩ | ⟨d, -, rfl⟩ | ⟨status, -, rfl⟩
  · exact ⟨pc, hk⟩
  · by_cases he : k = key
    · subst he
      simp only [Function.update_self]
      have hm := Call.step_moved hc
      have hkind := hm.kind.resolve_left (by simp [hk])
      rw [hk] at hkind
      cases c with
      | predict params' pc' =>
        rcases hm.params params' pc' rfl with hidle | ⟨pc₀, hold⟩
        · simp [hk] at hidle
        · rw [hk] at hold
          cases hold
          exact ⟨pc', rfl⟩
      | _ => cases hkind
    · exact ⟨pc, (Function.update_of_ne he c s.calls).trans hk⟩
  · exact ⟨pc, hk⟩
  · exact ⟨pc, hk⟩

end Sys

/-! ### What the agent makes of a request -/

namespace Worker

variable {σ : Type} {py : PyHost} {agent : Agent σ} {s : σ}

/-- A result is what the agent returns. -/
theorem react_result {params value : PyVal} (h : (react py agent s params).1 = .result value) :
    ∃ state questions, validateParams py.repr params = .ok (state, questions) ∧
      agent.predict s state questions = (.ok value, (react py agent s params).2) := by
  unfold react at h ⊢
  split at h
  · cases h
  · cases h
  · rename_i state questions hvalid
    refine ⟨state, questions, hvalid, ?_⟩
    rcases hpredict : agent.predict s state questions with ⟨err | v, t⟩
    · simp only [hpredict] at h
      split at h
      · cases htext : err.text with
        | none | some _ =>
          rw [htext] at h
          cases h
      · cases h
    · simp only [hpredict, Reaction.result.injEq] at h
      simp [h]

/-- The worker takes the state and the questions of a request that is valid. -/
theorem validateParams_request {host : Host} {request : PredictRequest}
    (hne : request.questions.isEmpty = false)
    (hquestions : Layad.validateQuestions host request.questions = .ok ())
    {parseFloat : String → PyFloat} {repr : PyVal → Option PyStr} {state : PyVal}
    {questions : List (PyStr × PyVal)}
    (h : validateParams repr (request.params.toPy parseFloat) = .ok (state, questions)) :
    state = request.state.toPy parseFloat ∧
      questions = Json.toPyMembers parseFloat request.questions := by
  cases hstate : validateState (request.state.toPy parseFloat) with
  | ok =>
    rw [(validateParams_params hne hquestions parseFloat repr).mpr hstate, Except.ok.injEq,
      Prod.mk.injEq] at h
    exact ⟨h.1.symm, h.2.symm⟩
  | error err =>
    obtain ⟨hs, hq⟩ := validateParams_ok h
    rw [Json.get_toPyMembers] at hs hq
    exact ⟨hs, (PyVal.dict.inj hq).symm⟩

/-- A reply that is a result has one, of a value that is JSON. -/
theorem Reaction.reply_ok {f64Text : String → Option String} {r : Reaction} {body : Reply}
    {v : Json} (h : r.reply f64Text = some body) (ha : body.answer = .ok v) :
    ∃ value, r = .result value ∧ value.document.toJson f64Text = some v := by
  cases r with
  | result value =>
    obtain ⟨json, hjson, rfl⟩ := Option.map_eq_some_iff.mp h
    cases ha
    exact ⟨value, rfl, hjson⟩
  | rejected text =>
    cases h
    cases ha
  | failed =>
    cases h
    cases ha
  | raised => cases h

/-- A reply that tells the caller that the request is invalid is a rejection. -/
theorem Reaction.reply_rejected {f64Text : String → Option String} {r : Reaction} {body : Reply}
    {message : String} (h : r.reply f64Text = some body)
    (ha : body.answer = .error (.invalidRequest message)) :
    ∃ text, r = .rejected text ∧ message = text.text := by
  cases r with
  | result value =>
    obtain ⟨json, -, rfl⟩ := Option.map_eq_some_iff.mp h
    cases ha
  | rejected text =>
    cases h
    cases ha
    exact ⟨text, rfl, rfl⟩
  | failed =>
    cases h
    cases ha
  | raised => cases h

/-- The nth reaction is the agent's to the nth request after those before it. -/
theorem getElem?_reactions (s : σ) (requests : List PyVal) (n : Nat) :
    (reactions py agent s requests)[n]? = requests[n]?.map fun params =>
      (react py agent (after py agent s (requests.take n)) params).1 := by
  induction requests generalizing s n with
  | nil => rfl
  | cons params rest ih =>
    cases n with
    | zero => rfl
    | succ n => rw [reactions, List.getElem?_cons_succ, ih, List.getElem?_cons_succ]; rfl

end Worker

/-! ### A daemon and a worker to replay runs on -/

/-- A decoder that reads the lines of these frames, and nothing else. -/
def Host.reading (host : Host) (frames : List PyVal) : Host :=
  { host with
    fromStr := fun text =>
      match frames.find? fun frame => Worker.lineText frame = text with
      | some frame => (frame.document.toJson host.f64Text).elim (.error "number out of range") .ok
      | none => .error "expected value at line 1 column 1" }

/-- The host reads the text of each frame it was given, numbers included. -/
theorem Host.readsText_reading {host : Host} {frames : List PyVal}
    (h : ∀ frame ∈ frames, frame.Finite ∧ frame.Every (PyVal.NumberLeaf host.f64Text)) :
    (host.reading frames).ReadsText := by
  intro text value hvalue
  simp only [Host.reading] at hvalue
  split at hvalue
  · rename_i frame hfind
    obtain ⟨hfin, hnum⟩ := h frame (List.mem_of_find?_eq_some hfind)
    have htext := List.find?_some hfind
    rw [decide_eq_true_eq] at htext
    refine ⟨frame.document, ?_, ?_⟩
    · rw [← htext, Worker.utf8_lineText]
      exact .bare (PyVal.spells_dumps _ hfin hnum)
    · cases hjson : frame.document.toJson host.f64Text with
      | none =>
        rw [hjson] at hvalue
        cases hvalue
      | some json =>
        rw [hjson] at hvalue
        cases hvalue
        exact hjson
  · cases hvalue

/-- A `json.loads` that reads the text of one value reads texts whose brackets are in order. -/
theorem frameHost_nests {v : Json} (h : v.WellFormed) : (frameHost v).Nests := by
  intro cs u hloads
  simp only [frameHost] at hloads
  split at hloads
  · rename_i hline
    obtain rfl := PyStr.ofChar_injective.list_map hline
    rw [← Json.compact_eq]
    exact Document.Spells.nested _ (Document.spells_compact h)
  · cases hloads

namespace Replay

/-- What the one request asks. -/
def request : PredictRequest := textRequest "hello"

/-- The body it comes with. -/
def body : List UInt8 := Json.compact request.params

/-- A worker on the CPU that makes no warm-up pass, under these libraries. -/
def worldOn (host : Host) : World Unit where
  cx := ⟨config, host⟩
  py := frameHost (Sup.predictFrame "1" request.params)
  runtime := {
    pid := 0
    version := fun _ => none
    pythonVersion := .ofString "3.12"
    strOf := fun err => err.text.getD [] }
  args := {
    model := .ofString "resident"
    backend := .ofString "torch"
    device := .ofString "cpu"
    subfolder := none
    memoryMb := 0
    noWarmup := true }
  agent := nullAgent
  startup := {
    load := .ok ()
    mlx := {
      imported := .ok ()
      getActiveMemory := none
      setWiredLimit := none
      setCacheLimit := fun _ => .ok ()
      clearCache := none }
    device := some {
      type := some ⟨true, .ofString "cpu"⟩
      device := none
      text := .ofString "cpu" } }

/-- The frames of the worker: of its start, and of its answer. -/
def frames : List PyVal :=
  [((worldOn host).started 7).frame, Worker.ok (.text "1") .null]

/-- The world of the run. -/
def world : World Unit := worldOn ((textHost "hello").reading frames)

/-- The request of the run is well formed. -/
theorem wellFormed_request : request.params.WellFormed := by
  have hsorted : Json.Sorted request.questions ∧
      Json.Sorted [("instructions", .null), ("type", .str "noul")] ∧
      Json.Sorted [("questions", .obj request.questions), ("state", request.state)] :=
    ⟨List.pairwise_singleton _ _, by show ["instructions", "type"].Pairwise (· < ·); decide,
      by show ["questions", "state"].Pairwise (· < ·); decide⟩
  obtain ⟨hq, hi, hp⟩ := hsorted
  exact ⟨hp, ⟨hq, ⟨hi, trivial, trivial, trivial⟩, trivial⟩, trivial, trivial⟩

/-- The host of the run reads JSON texts only. -/
theorem readsJson_request : (textHost "hello").ReadsJson := by
  intro body d h
  simp only [textHost] at h
  split at h
  · rename_i hbody
    cases h
    rw [hbody]
    exact .bare (Document.spells_compact wellFormed_request)
  · cases h

/-- The frames of the run are finite and hold numbers as the daemon has them. -/
theorem finite_frames {f64Text : String → Option String} :
    ∀ frame ∈ frames, frame.Finite ∧ frame.Every (PyVal.NumberLeaf f64Text) := by
  have hone : PyVal.NumberLeaf f64Text (.int 1) := by
    show (-2 ^ 63 : Int) ≤ 1 ∧ (1 : Int) < 2 ^ 64
    omega
  have hpid : PyVal.NumberLeaf f64Text (.int 7) := by
    show (-2 ^ 63 : Int) ≤ 7 ∧ (7 : Int) < 2 ^ 64
    omega
  have hmemory : PyVal.NumberLeaf f64Text (.int 0) := by
    show (-2 ^ 63 : Int) ≤ 0 ∧ (0 : Int) < 2 ^ 64
    omega
  intro frame hmem
  rcases List.mem_cons.mp hmem with rfl | hmem
  · exact ⟨⟨trivial, trivial, trivial, trivial, trivial, trivial, trivial, trivial, trivial,
        trivial, trivial, trivial, trivial, trivial⟩,
      trivial, hone, hpid, trivial, trivial, trivial, trivial, trivial, trivial, trivial,
        trivial, trivial, hmemory, trivial⟩
  · rw [List.mem_singleton.mp hmem]
    exact ⟨⟨trivial, trivial, trivial, trivial⟩, trivial, trivial, trivial, trivial⟩

/-- Frames given to a host leave how it reads bodies alone. -/
theorem Host.ReadsJson.reading {host : Host} {frames : List PyVal} (h : host.ReadsJson) :
    (host.reading frames).ReadsJson := h

/-- What is assumed of the libraries holds of a worker on such a decoder. -/
theorem lawful_worldOn {host : Host} (hvec : host.toVec = Json.compact)
    (hdocument : host.ReadsJson) (hreals : PrintsReals host.f64Text) (htext : host.ReadsText) :
    (worldOn host).Lawful .finite where
  vec := hvec
  document := hdocument
  reals := hreals
  text := htext
  loads := frameHost_readsJson (wellFormed_predictFrame wellFormed_request _)
  nests := frameHost_nests (wellFormed_predictFrame wellFormed_request _)
  numbers _ _ _ _ _ h := by
    cases h
    trivial
  memory := ⟨le_refl _, show (0 : Int) < 2 ^ 64 by omega⟩

/-- The world of the run is lawful. -/
theorem lawful_world : world.Lawful .finite := by
  rw [world]
  refine lawful_worldOn rfl (Host.ReadsJson.reading readsJson_request) (fun _ _ h => ?_)
    (Host.readsText_reading finite_frames)
  cases h

/-- Frames given to a host leave the requests it reads alone. -/
theorem fromSlice_reading (host : Host) (frames : List PyVal) (bytes : List UInt8) :
    PredictRequest.fromSlice (host.reading frames) bytes = PredictRequest.fromSlice host bytes :=
  rfl

/-- The body of the run is read as its request. -/
theorem fromSlice_body : PredictRequest.fromSlice world.cx.host body = .ok request := by
  rw [world, worldOn, fromSlice_reading, body, request, fromSlice_textRequest]

/-! ### The run -/

/-- A step of the supervisor. -/
def sup (ev : SupEv) : Move := .daemon (.sup ev)

/-- The supervisor goes on where it can only go one way, `n` times. -/
def goes (n : Nat) : List Move := List.replicate n (sup .go)

/-- The bytes of the `n`-th frame. -/
def line (n : Nat) : List UInt8 := (frames[n]?.map Worker.lineBytes).getD []

/-- The daemon reads the line of the `n`-th frame, in one chunk. -/
def reads (n : Nat) : Move := sup (.read (.pipe (.data (line n))))

/-- The daemon spawns the worker, which starts and is ready. -/
def started : List Move :=
  goes 1 ++ [sup (.spawned 7)] ++ goes 3 ++
    [.worker .start, .worker (.write (line 0).length), reads 0] ++ goes 5

/-- The bytes of the request's frame. -/
def frameLength : Nat := (Json.compact (Sup.predictFrame "1" request.params)).length + 1

/-- The request of call `key` is sent, the worker answers it in two pieces, and the caller has
    the answer. -/
def served (key : Nat) : List Move :=
  [.daemon (.call key .go), .daemon (.call key .go), sup .recv, sup .go, sup (.wrote frameLength),
    sup .go, .worker .line, .worker (.write 5), .worker (.write ((line 1).length - 5)), reads 1,
    sup .go, .daemon (.call key .go)]

/-- The run to the answer. -/
def answered : List Move := started ++ .predict 1 body :: served 1

end Replay

namespace Joint

variable {σ : Type} {w : World σ} {parseFloat : String → PyFloat} {j j' t : Joint σ}

/-- The state of the agent after the requests, for the worker that starts in `s`. -/
def agentAfter (w : World σ) (parseFloat : String → PyFloat) (s : σ) (requests : List Dispatch) :
    σ :=
  Worker.after w.py w.agent s (requests.map (Dispatch.asked parseFloat))

/-- An accepted reply to a request says what becomes of it after the requests before. -/
theorem resolves_directly (hw : w.Lawful parseFloat) (h : (joint w).Reachable j) {k : Nat}
    {answer : Answer} (hr : j.sys.sup.Resolves k answer) :
    ∃ (n : Nat) (d : Dispatch) (s : σ) (body : Reply), j.sys.sup.frames[n]? = some d ∧
      d.job.reply = k ∧ w.ready = some s ∧
      ((Worker.react w.py w.agent (agentAfter w parseFloat s (j.sys.sup.frames.take n))
        (d.job.params.toPy parseFloat)).1).reply w.cx.host.f64Text = some body ∧
      body.answer = answer := by
  obtain ⟨n, d, body, hd, hk, hbody, ha⟩ := hr
  obtain ⟨-, -, horder⟩ := Sys.lines_order (reachable_sys h)
  obtain ⟨line, hline, hfate⟩ := horder n d.id body hbody
  obtain ⟨n', hn, s, r, hs, hreaction, hreply⟩ :=
    ((linked hw h).lines (n + 1) line hline).reply d.id body hfate
  obtain rfl : n = n' := Nat.succ.inj hn
  rw [World.reactions, Worker.getElem?_reactions, List.getElem?_map, hd] at hreaction
  obtain rfl := Option.some.inj hreaction
  refine ⟨n, d, s, body, hd, hk, hs, ?_, ha⟩
  rw [agentAfter, List.map_take]
  exact hreply

/-- The frame of a call carries the parameters of the call. -/
theorem params_of_reply (h : (joint w).Reachable j) {k n : Nat} {d : Dispatch} {params : Json}
    {pc : PredictPc} (hcall : j.sys.calls k = .predict params pc)
    (hd : j.sys.sup.frames[n]? = some d) (hk : d.job.reply = k) : d.job.params = params := by
  subst hk
  have hserved := Sys.Served.reachable (reachable_sys h)
  exact hserved.params d.job (hserved.jobs.subset
    (List.mem_map_of_mem (List.mem_of_getElem? hd))) _ pc hcall

/-- The result of a call is what the agent returned for what it asks, after the requests begun
    before its own. -/
theorem result_directly (hw : w.Lawful parseFloat) (h : (joint w).Reachable j) {k : Nat}
    {request : PredictRequest} {pc : PredictPc} (hne : request.questions.isEmpty = false)
    (hquestions : validateQuestions w.cx.host request.questions = .ok ())
    (hcall : j.sys.calls k = .predict request.params pc) {v : Json}
    (hv : (j.sys.calls k).answered = some (.ok v)) :
    ∃ n d s value s', j.sys.sup.frames[n]? = some d ∧ d.job.reply = k ∧ w.ready = some s ∧
      w.agent.predict (agentAfter w parseFloat s (j.sys.sup.frames.take n))
        (request.state.toPy parseFloat) (Json.toPyMembers parseFloat request.questions) =
          (.ok value, s') ∧
      value.document.toJson w.cx.host.f64Text = some v := by
  have hserved := Sys.Served.reachable (reachable_sys h)
  obtain ⟨n, d, s, body, hd, hk, hs, hreply, ha⟩ :=
    resolves_directly hw h ((hserved.results k v (hserved.answered_ok hv)).resolves)
  rw [params_of_reply h hcall hd hk] at hreply
  obtain ⟨value, hr, hvalue⟩ := Worker.Reaction.reply_ok hreply ha
  obtain ⟨state, questions, hvalid, hpredict⟩ := Worker.react_result hr
  obtain ⟨rfl, rfl⟩ := Worker.validateParams_request hne hquestions hvalid
  exact ⟨n, d, s, value, _, hd, hk, hs, hpredict, hvalue⟩

/-- **Answers come from the agent.**  A caller that gets a result gets what the agent returns
    for the state and the questions of the caller's own body, after the requests begun before
    its own, each once and in order; and a caller that is told its request is invalid is told
    so in the words of the worker's answer to that request. -/
theorem answered_directly (hw : w.Lawful parseFloat) (h : (joint w).Reachable j) {k : Nat}
    {body : List UInt8} (hbegin : j.step w (.predict k body) = some j')
    (hrun : (joint w).Runs j' t) :
    ∃ request, PredictRequest.fromSlice w.cx.host body = .ok request ∧
      (∀ v, (t.sys.calls k).answered = some (.ok v) →
        ∃ n d s value s', t.sys.sup.frames[n]? = some d ∧ d.job.reply = k ∧ w.ready = some s ∧
          w.agent.predict (agentAfter w parseFloat s (t.sys.sup.frames.take n))
            (request.state.toPy parseFloat) (Json.toPyMembers parseFloat request.questions) =
              (.ok value, s') ∧
          value.document.toJson w.cx.host.f64Text = some v) ∧
      ∀ message, (t.sys.calls k).answered = some (.error (.invalidRequest message)) →
        ∃ n d s text, t.sys.sup.frames[n]? = some d ∧ d.job.reply = k ∧ w.ready = some s ∧
          (Worker.react w.py w.agent (agentAfter w parseFloat s (t.sys.sup.frames.take n))
            (request.params.toPy parseFloat)).1 = .rejected text ∧
          message = text.text := by
  have hj' : (joint w).Reachable j' := h.step (l := .predict k body) hbegin
  have ht := hj'.runs hrun
  rw [step] at hbegin
  split at hbegin
  · cases hbegin
  rename_i kinds params htaken
  obtain ⟨request, hreq, rfl, hstate, hne, hquestions⟩ := predictImpl_validated htaken
  obtain ⟨sys, hsys, rfl⟩ := Option.map_eq_some_iff.mp hbegin
  -- the call keeps its parameters
  obtain ⟨pc, hcall⟩ : ∃ pc, t.sys.calls k = .predict request.params pc := by
    refine Machine.stable_of_step
      (P := fun u : Joint σ => ∃ pc, u.sys.calls k = .predict request.params pc) ?_ hj' ?_ hrun
    · intro u m u' _ hu hstep
      rcases step_cases hstep with ⟨l, hl, -⟩ | ⟨-, -, -, hsame, -⟩
      · exact Sys.predict_step hl hu
      · rwa [hsame]
    · exact Sys.predict_begun hsys
  refine ⟨request, hreq, fun v hv => result_directly hw ht hne hquestions hcall hv,
    fun message hm => ?_⟩
  obtain ⟨n, d, s, body, hd, hk, hs, hreply, ha⟩ :=
    resolves_directly hw ht ((Sys.Rejects.reachable (reachable_sys ht)).answered k message hm)
  rw [params_of_reply ht hcall hd hk] at hreply
  obtain ⟨text, hr, htext⟩ := Worker.Reaction.reply_rejected hreply ha
  exact ⟨n, d, s, text, hd, hk, hs, hr, htext⟩

open Replay in
/-- The result at a run: call `1` gets the `null` that the agent returned for its body. -/
theorem answered_directly_null : ∃ t n d value, (joint world).Reachable t ∧
    (t.sys.calls 1).answered = some (.ok .null) ∧
    t.sys.sup.frames[n]? = some d ∧ d.job.reply = 1 ∧
    nullAgent.predict (agentAfter world .finite () (t.sys.sup.frames.take n)) (.text "hello")
      (Json.toPyMembers .finite request.questions) = (.ok value, ()) ∧
    value.document.toJson world.cx.host.f64Text = some .null := by
  have hrun : (((joint world).exec (joint world).init started).bind fun j =>
      ((joint world).exec j (.predict 1 body :: served 1)).map fun t =>
        Sys.isNullAnswer (t.sys.calls 1).answered) = some true := by decide +kernel
  obtain ⟨j, hj, ht⟩ := Option.bind_eq_some_iff.mp hrun
  obtain ⟨t, ht, hv⟩ := Option.map_eq_some_iff.mp ht
  obtain ⟨j', hj', ht⟩ := Option.bind_eq_some_iff.mp ht
  have hj : (joint world).Reachable j := Machine.runs_of_exec hj
  have ht := Machine.runs_of_exec ht
  have hstep : j.step world (.predict 1 body) = some j' := hj'
  have hnull := Sys.eq_of_isNullAnswer hv
  obtain ⟨asked, hread, hresult, -⟩ := answered_directly lawful_world hj hstep ht
  obtain ⟨n, d, s, value, s', hd, hk, -, hpredict, hvalue⟩ := hresult .null hnull
  obtain rfl : asked = request :=
    Except.ok.inj (hread.symm.trans fromSlice_body)
  exact ⟨t, n, d, value, (hj.step hj').runs ht, hnull, hd, hk, hpredict, hvalue⟩

end Joint

/-! ### How often the agent is asked -/

/-- What a call of the agent was asked. -/
def AgentCall.asked (call : AgentCall) : PyVal × List (PyStr × PyVal) :=
  (call.state, call.questions)

namespace Worker

/-- What the agent is asked for a request, unless the parameters are rejected. -/
def asking (py : PyHost) (params : PyVal) : Option (PyVal × List (PyStr × PyVal)) :=
  (validateParams py.repr params).toOption

variable {σ : Type} {py : PyHost} {agent : Agent σ}

/-- A recording agent is asked once for a request with valid parameters. -/
theorem react_recording (s : σ) (calls : List AgentCall) (params : PyVal) :
    ∃ t made, (react py agent.recording (s, calls) params).2 = (t, calls ++ made) ∧
      made.map AgentCall.asked = (asking py params).toList := by
  unfold react asking
  cases validateParams py.repr params with
  | error err => cases err <;> exact ⟨s, [], by simp, rfl⟩
  | ok valid =>
    obtain ⟨state, questions⟩ := valid
    rcases hpredict : agent.predict s state questions with ⟨outcome, t⟩
    refine ⟨t, [⟨state, questions, outcome⟩], ?_, rfl⟩
    dsimp only
    rw [recording_predict hpredict]
    cases outcome <;> rfl

/-- For requests one after another it is asked once for each, in their order. -/
theorem after_recording (requests : List PyVal) : ∀ (s : σ) (calls : List AgentCall),
    ∃ t made, after py agent.recording (s, calls) requests = (t, calls ++ made) ∧
      made.map AgentCall.asked = requests.filterMap (asking py) := by
  induction requests with
  | nil => exact fun s calls => ⟨s, [], by simp [after], rfl⟩
  | cons params rest ih =>
    intro s calls
    obtain ⟨t, made, ht, hmade⟩ := @react_recording σ py agent s calls params
    obtain ⟨u, more, hu, hmore⟩ := ih t (calls ++ made)
    refine ⟨u, made ++ more, ?_, ?_⟩
    · rw [after, List.foldl_cons, ht, ← List.append_assoc]
      exact hu
    · rw [List.map_append, hmade, hmore, List.filterMap_cons]
      cases asking py params <;> rfl

end Worker

/-- The same world with a record of the calls of the agent. -/
def World.recording {σ : Type} (w : World σ) : World (σ × List AgentCall) where
  cx := w.cx
  py := w.py
  runtime := w.runtime
  args := w.args
  agent := w.agent.recording
  startup := {
    load := w.startup.load.map fun s => (s, [])
    mlx := w.startup.mlx
    device := w.startup.device }

/-- The record changes nothing in what is assumed. -/
theorem World.Lawful.recording {σ : Type} {w : World σ} {parseFloat : String → PyFloat}
    (hw : w.Lawful parseFloat) : w.recording.Lawful parseFloat where
  vec := hw.vec
  document := hw.document
  reals := hw.reals
  text := hw.text
  loads := hw.loads
  nests := hw.nests
  numbers := by
    rintro ⟨s, calls⟩ state questions value t h
    rcases hpredict : w.agent.predict s state questions with ⟨outcome, u⟩
    obtain rfl : outcome = .ok value := by
      rw [show w.recording.agent = w.agent.recording from rfl,
        Worker.recording_predict hpredict] at h
      exact (Prod.mk.inj h).1
    exact hw.numbers s state questions value u hpredict
  memory := hw.memory

/-- Before it serves, the agent was asked at most once, by the warm-up. -/
theorem World.ready_recording {σ : Type} {w : World σ} {s : σ} {calls : List AgentCall}
    (h : w.recording.ready = some (s, calls)) : calls.length ≤ 1 := by
  -- the warm-up asks once, or not at all
  have hwarm : ∀ (t : σ), (Worker.warmup w.args w.agent.recording (t, [])).2.2.length ≤ 1 := by
    intro t
    unfold Worker.warmup
    split
    · exact Nat.zero_le 1
    · rcases hpredict : w.agent.predict t Worker.warmupState
        (Worker.warmupQuestions.map fun m => (PyStr.ofString m.1, m.2)) with ⟨outcome, u⟩
      simp only [Worker.recording_predict hpredict]
      cases outcome <;> exact Nat.le_refl 1
  unfold World.ready World.started Worker.main World.recording at h
  dsimp only at h
  cases hload : w.startup.load with
  | error err => simp [hload, Except.map] at h
  | ok t =>
    simp only [hload, Except.map] at h
    have := hwarm t
    split at h
    · rename_i hstarted
      split at hstarted
      · cases hstarted
      · rcases hw : Worker.warmup w.args w.agent.recording (t, []) with ⟨err | types, u⟩
        · simp [hw] at hstarted
        · simp only [hw, Worker.Started.ready.injEq] at hstarted
          rw [hw] at this
          rw [← hstarted.2, Option.some.injEq] at h
          rwa [h] at this
    · cases h

namespace Joint

/-- **The agent is asked at most once for a request, in the order of the requests**, whatever
    dies on the way: all its calls are one of the warm-up, and then one for each valid request
    among the first of those that were begun, with its state and its questions; and no caller
    has two requests. -/
theorem asked_once {σ : Type} {w : World σ} {parseFloat : String → PyFloat}
    (hw : w.Lawful parseFloat) {j : Joint (σ × List AgentCall)}
    (h : (joint w.recording).Reachable j) {s : σ} {calls : List AgentCall}
    (hs : j.proc.phase.agent = some (s, calls)) :
    ∃ warm made handled, calls = warm ++ made ∧ warm.length ≤ 1 ∧
      handled <+: j.sys.sup.frames ∧
      made.map AgentCall.asked =
        handled.filterMap (fun d => Worker.asking w.py (d.asked parseFloat)) ∧
      (j.sys.sup.frames.map fun d => d.job.reply).Nodup := by
  have hreached : w.recording.Reached parseFloat j.sys.sup.frames (s, calls) := by
    obtain ⟨served, horder, hstory | ⟨-, hfinished⟩⟩ := (linked hw.recording h).work
    · exact (hstory.agent _ hs).mono horder
    · exact hfinished.agent _ hs
  obtain ⟨⟨s₀, warm⟩, handled, hready, hhandled, hafter⟩ := hreached
  obtain ⟨t, made, hmade, hasked⟩ := @Worker.after_recording σ w.py w.agent
    (handled.map (Dispatch.asked parseFloat)) s₀ warm
  have hcalls : calls = warm ++ made := congrArg Prod.snd (hafter.trans hmade)
  refine ⟨warm, made, handled, hcalls, World.ready_recording hready, hhandled, ?_, ?_⟩
  · rw [hasked, List.filterMap_map]
    rfl
  · have hsys := reachable_sys h
    have hnodup := ((Sys.Served.reachable hsys).jobs.map Job.reply).sublist.nodup
      (Sys.Booked.reachable hsys).balanced.accepted_nodup
    rw [List.map_map] at hnodup
    exact hnodup

open Replay in
/-- The result at a run with one request, for which the agent was asked once. -/
theorem asked_once_null : ∃ (j : Joint (Unit × List AgentCall)) (calls warm made : List AgentCall)
    (handled : List Dispatch), (joint world.recording).Reachable j ∧
      j.proc.phase.agent = some ((), calls) ∧ calls.length = 1 ∧ calls = warm ++ made ∧
      handled <+: j.sys.sup.frames ∧ j.sys.sup.frames.length = 1 ∧
      made.map AgentCall.asked =
        handled.filterMap (fun d => Worker.asking world.py (d.asked .finite)) := by
  have hrun : ((joint world.recording).exec (joint world.recording).init answered).map (fun j =>
      (j.proc.phase.agent.map fun s => s.2.length, j.sys.sup.frames.length)) =
        some (some 1, 1) := by decide +kernel
  obtain ⟨j, hj, hv⟩ := Machine.reachable_of_exec hrun
  obtain ⟨hagent, hframes⟩ := Prod.mk.inj hv
  obtain ⟨⟨s, calls⟩, hs, hlen⟩ := Option.map_eq_some_iff.mp hagent
  obtain ⟨warm, made, handled, hcalls, -, hhandled, hmade, -⟩ := asked_once lawful_world hj hs
  exact ⟨j, calls, warm, made, handled, hj, hs, hlen, hcalls, hhandled, hframes, hmade⟩

end Joint

end Layad
