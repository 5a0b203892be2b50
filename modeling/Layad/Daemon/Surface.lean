import Layad.Daemon.Exit
import Layad.Daemon.Steps
import Layad.Joint.Answers
import Layad.Joint.Readiness
import Layad.Worker.Diagnosis
import Layad.Worker.Publication

namespace Layad

open Channel Transition

/-!
# What the HTTP surface says

Every `200` is true: of a prediction it is what the agent returned for the body of the request
(`Daemon.result_is_agents`), of `/readyz` it describes the one worker, whose start went well
(`Daemon.readyz_sound`).  And the surface fails closed: once the handle is closed, or was never
attached, a prediction that arrives is refused without a job, and `/readyz` tells of no worker
(`Daemon.refused_once_closed`).
-/

/-- A refusal of a body that was read is no `200`. -/
theorem status_of_refused {cfg : Config} {host : Host} {attached : Bool} {body : List UInt8}
    {err : ErrorResponse} (h : predictImpl cfg host attached (.ok body) = .error err) :
    err.status = 400 ∨ err.status = 503 := by
  unfold predictImpl at h
  dsimp only at h
  repeat' split at h
  all_goals cases h
  all_goals simp

/-- No error of the worker is a `200`. -/
theorem workerErrorStatus_ne (err : WorkerError) : workerErrorStatus err ≠ 200 := by
  cases err <;> simp [workerErrorStatus]

/-- `readyz` answers `200` for a ready worker whose metadata is there, and for no other. -/
theorem readyzResponse_ok {readiness : Readiness} {state : Option State}
    {info : Option WorkerInfo} (h : (readyzResponse readiness state info).status = 200) :
    state = some .ready ∧ ∃ i, info = some i ∧
      readyzResponse readiness state info = ⟨200, readyBody i⟩ := by
  unfold readyzResponse at h ⊢
  split at h <;> simp_all

/-- `main` will attach no worker any more. -/
def MainPc.past : MainPc → Bool
  | .binding | .starting | .attaching => false
  | _ => true

/-! ### Exchanges to replay -/

namespace Replay

/-- A prediction is answered. -/
def replied : List Action :=
  .request 3 (.predict false (.ok body)) :: below (served 3 ++ [.daemon (.call 3 .go)]) ++
    [.respond 3]

/-- `/readyz` is answered. -/
def asked : List Action := [.request 4 .readyz, .respond 4, .respond 4]

end Replay

namespace Exchange

/-- The exchange is a prediction with this body, answered with a `200`. -/
def isResult (body : List UInt8) : Exchange → Bool
  | ⟨.predict false (.ok bytes), .done response⟩ => bytes = body && response.status = 200
  | _ => false

/-- An exchange that passes the test is a prediction's, answered with a 200. -/
theorem eq_of_isResult {body : List UInt8} {e : Exchange} (h : e.isResult body = true) :
    ∃ response, e = ⟨.predict false (.ok body), .done response⟩ ∧ response.status = 200 := by
  unfold isResult at h
  split at h
  · obtain ⟨rfl, hstatus⟩ : _ = body ∧ _ := by simpa using h
    exact ⟨_, rfl, hstatus⟩
  · cases h

/-- The exchange asked for `/readyz`, and was answered with this status. -/
def isReadyz (status : Nat) : Exchange → Bool
  | ⟨.readyz, .done response⟩ => response.status = status
  | _ => false

/-- An exchange that passes the test is the readiness probe's, answered with the status. -/
theorem eq_of_isReadyz {status : Nat} {e : Exchange} (h : e.isReadyz status = true) :
    ∃ response, e = ⟨.readyz, .done response⟩ ∧ response.status = status := by
  unfold isReadyz at h
  split at h
  · exact ⟨_, rfl, of_decide_eq_true h⟩
  · cases h

end Exchange

namespace Daemon

variable {σ : Type} {w : World σ} {parseFloat : String → PyFloat} {d d' t : Daemon σ} {a : Action}

/-- What is known of an exchange. -/
def Sound (w : World σ) (d : Daemon σ) (key : Nat) (e : Exchange) : Prop :=
  match e.request, e.pc with
  | .predict _ body, .predicting kinds =>
    ∃ bytes params pc, body = .ok bytes ∧
      predictImpl w.cx.config w.cx.host true (.ok bytes) = .ok (kinds, params) ∧
      d.sys.calls key = .predict params pc
  | .predict jevShape body, .done response =>
    (∃ attached err, predictImpl w.cx.config w.cx.host attached body = .error err ∧
      response = errorResponse err) ∨
    ∃ bytes kinds params answer, body = .ok bytes ∧
      predictImpl w.cx.config w.cx.host true (.ok bytes) = .ok (kinds, params) ∧
      d.sys.calls key = .predict params (.over (some answer)) ∧
      response = answerResponse w.cx.config jevShape kinds answer
  | .readyz, .done response =>
    response.status = 200 → ∃ info, d.sys.sup.Accepts info ∧ response.body = readyBody info
  | .predict .., _ | .readyz, .readModel => False
  | _, _ => True

/-- A call that is over stays so. -/
theorem over_step {s s' : Sys} {l : Label} (h : s.step w.cx l = some s') {k : Nat} {params : Json}
    {answer : Option Answer} (hk : s.calls k = .predict params (.over answer)) :
    s'.calls k = .predict params (.over answer) := by
  rcases Sys.step_cases h with
    ⟨ev, p, eff, -, hp, rfl⟩ | ⟨key, ev, c, eff, -, hc, rfl⟩ | ⟨n, -, rfl⟩ | ⟨status, -, rfl⟩
  · exact hk
  · by_cases he : k = key
    · rw [← he, hk] at hc
      cases hc
    · simpa [Function.update_of_ne he] using hk
  · exact hk
  · exact hk

/-- An accepted ready line stays accepted. -/
theorem accepts_step {s s' : Sys} {l : Label} (h : s.step w.cx l = some s') {info : WorkerInfo}
    (ha : s.sup.Accepts info) : s'.sup.Accepts info := by
  rcases Sys.step_cases h with
    ⟨ev, p, eff, -, hp, rfl⟩ | ⟨key, ev, c, eff, -, hc, rfl⟩ | ⟨n, -, rfl⟩ | ⟨status, -, rfl⟩
  · exact ha.mono (Sup.lines_mono hp)
  all_goals exact ha

/-- What is known of an exchange stays known while the handle goes on. -/
theorem Sound.mono {key : Nat} {e : Exchange} (hs : Sound w d key e)
    (hsys : d'.sys = d.sys ∨ ∃ l, d.sys.step w.cx l = some d'.sys) : Sound w d' key e := by
  rcases hsys with he | ⟨l, hl⟩
  · unfold Sound at hs ⊢
    rwa [he]
  obtain ⟨request, pc⟩ := e
  cases request with
  | predict jevShape body =>
    cases pc with
    | predicting kinds =>
      obtain ⟨bytes, params, pc, hbody, himpl, hcall⟩ := hs
      obtain ⟨pc', hcall'⟩ := Sys.predict_step hl ⟨pc, hcall⟩
      exact ⟨bytes, params, pc', hbody, himpl, hcall'⟩
    | done response =>
      rcases hs with hrefused | ⟨bytes, kinds, params, answer, hbody, himpl, hcall, hresponse⟩
      · exact .inl hrefused
      · exact .inr ⟨bytes, kinds, params, answer, hbody, himpl, over_step hl hcall, hresponse⟩
    | readState | readInfo | readModel => exact hs
  | readyz =>
    cases pc with
    | done response =>
      intro hstatus
      obtain ⟨info, ha, hbody⟩ := hs hstatus
      exact ⟨info, accepts_step hl ha, hbody⟩
    | predicting | readState | readInfo | readModel => exact hs
  | models | unknownPath | wrongMethod => cases pc <;> trivial

/-- A request that arrives is answered at once, or its call begins. -/
theorem arrive_sound {key : Nat} {request : HttpRequest} (h : d.arrive w key request = some d') :
    ∃ pc, d'.http = Function.update d.http key (some ⟨request, pc⟩) ∧
      Sound w d' key ⟨request, pc⟩ := by
  revert h
  fun_cases Daemon.arrive w d key request
  all_goals intro h
  -- a prediction that is begun
  case case2 jevShape body kinds params himpl =>
    obtain ⟨t, hl, rfl⟩ := Option.map_eq_some_iff.mp h
    obtain ⟨bytes, hbytes, hl⟩ := Option.bind_eq_some_iff.mp hl
    obtain ⟨joint, hstep, rfl⟩ := Option.map_eq_some_iff.mp hl
    obtain rfl : body = .ok bytes := by
      cases body with
      | error status => cases hbytes
      | ok bytes' => rw [Option.some.inj hbytes]
    rw [predictImpl_attached himpl] at himpl
    rw [Joint.step, himpl] at hstep
    obtain ⟨sys, hsys, rfl⟩ := Option.map_eq_some_iff.mp hstep
    obtain ⟨pc, hcall⟩ := Sys.predict_begun hsys
    exact ⟨_, rfl, bytes, params, pc, rfl, himpl, hcall⟩
  all_goals cases h
  · -- a prediction that is refused; then the other paths
    exact ⟨_, rfl, .inl ⟨_, _, ‹_›, rfl⟩⟩
  · refine ⟨_, rfl, ?_⟩
    by_cases hattached : d.app.attached = true
    · rw [if_pos hattached]
      trivial
    · rw [if_neg hattached]
      intro hstatus
      cases (readyzResponse_ok hstatus).1
  · refine ⟨_, rfl, ?_⟩
    by_cases hattached : d.app.attached = true
    · rw [if_pos hattached]
      trivial
    · rw [if_neg hattached]
      trivial
  · exact ⟨_, rfl, trivial⟩
  · exact ⟨_, rfl, trivial⟩

/-- What a handler comes to. -/
theorem handlerStep_sound (h : (daemon w).Reachable d) {key : Nat} {e : Exchange} {pc : HttpPc}
    (hs : Sound w d key e) (hstep : d.handlerStep w key e = some pc) :
    Sound w d key ⟨e.request, pc⟩ := by
  obtain ⟨request, pc₀⟩ := e
  cases pc₀ with
  -- the call of the prediction has returned
  | predicting kinds =>
    cases request with
    | predict jevShape body =>
      obtain ⟨bytes, params, pc', hbody, himpl, hcall⟩ := hs
      obtain ⟨answer, hreturned, rfl⟩ := Option.map_eq_some_iff.mp hstep
      rw [hcall] at hreturned
      refine .inr ⟨bytes, kinds, params, answer, hbody, himpl, ?_, rfl⟩
      cases pc' with
      | «over» answer' => rw [hcall, show answer' = some answer from hreturned]
      | checking | sending | awaiting | leaving => cases hreturned
    | readyz | models | unknownPath | wrongMethod => cases hstep
  | readState =>
    cases hstep
    cases request with
    | predict => exact hs
    | readyz | models | unknownPath | wrongMethod => trivial
  -- the readiness is answered from the two locks
  | readInfo state =>
    cases hstep
    cases request with
    | predict => exact hs.elim
    | readyz =>
      intro hstatus
      obtain ⟨-, info, hinfo, heq⟩ := readyzResponse_ok hstatus
      exact ⟨info, (Sys.Informed.reachable (reachable_sys h)).info info hinfo, by rw [heq]⟩
    | models | unknownPath | wrongMethod => trivial
  | readModel =>
    cases hstep
    cases request with
    | predict | readyz => exact hs.elim
    | models | unknownPath | wrongMethod => trivial
  | done response => cases hstep

/-- Every exchange is what is known of it. -/
theorem sound (h : (daemon w).Reachable d) {key : Nat} {e : Exchange}
    (he : d.http key = some e) : Sound w d key e := by
  refine Machine.Reachable.induct
    (P := fun d : Daemon σ => ∀ key e, d.http key = some e → Sound w d key e) ?_ ?_ h key e he
  · exact nofun
  · intro d a d' hr hs hstep key e he
    have hsys : d'.sys = d.sys ∨ ∃ l, d.sys.step w.cx l = some d'.sys :=
      (step_sys hstep).imp_right fun ⟨l, hl, _⟩ => ⟨l, hl⟩
    have hkeep : d'.http = d.http → Sound w d' key e := fun hhttp =>
      (hs key e (hhttp ▸ he)).mono hsys
    rcases http_step hstep with
      hhttp | ⟨key', request, -, -, -, harrive⟩ | ⟨key', e', pc, -, he', hpc, rfl⟩
    · exact hkeep hhttp
    · obtain ⟨pc, hhttp, hsound⟩ := arrive_sound harrive
      by_cases hkey : key = key'
      · subst hkey
        rw [hhttp, Function.update_self, Option.some.injEq] at he
        exact he ▸ hsound
      · rw [hhttp, Function.update_of_ne hkey] at he
        exact (hs key e he).mono hsys
    · by_cases hkey : key = key'
      · subst hkey
        obtain rfl : (⟨e'.request, pc⟩ : Exchange) = e := by simpa [exchange] using he
        exact (handlerStep_sound hr (hs key e' he') hpc).mono hsys
      · exact (hs key e (by simpa [exchange, Function.update_of_ne hkey] using he)).mono hsys

/-! ### What a `200` says -/

/-- **A result is the agent's.**  A `200` to a prediction whose body was read carries what the
    agent returned for the state and the questions of that body, in the agent's state after the
    requests begun before it; on Jev's path, projected. -/
theorem result_is_agents (hw : w.Lawful parseFloat) (h : (daemon w).Reachable d) {key : Nat}
    {jevShape : Bool} {body : List UInt8} {response : Response}
    (he : d.http key = some ⟨.predict jevShape (.ok body), .done response⟩)
    (hstatus : response.status = 200) :
    ∃ request n sent s value s' v, PredictRequest.fromSlice w.cx.host body = .ok request ∧
      d.sys.sup.frames[n]? = some sent ∧ sent.job.reply = key ∧ w.ready = some s ∧
      w.agent.predict (Joint.agentAfter w parseFloat s (d.sys.sup.frames.take n))
        (request.state.toPy parseFloat) (Json.toPyMembers parseFloat request.questions) =
          (.ok value, s') ∧
      value.document.toJson w.cx.host.f64Text = some v ∧
      response.body = if jevShape then
        jevResult (questionKinds request.questions) v w.cx.config.model else v := by
  have hr := reachable_joint h
  rcases sound h he with
    ⟨attached, err, hrefused, rfl⟩ | ⟨bytes, kinds, params, answer, hbody, himpl, hcall, rfl⟩
  · -- a refusal is no 200
    rcases status_of_refused hrefused with hno | hno <;>
      exact absurd (hno.symm.trans hstatus) (by simp)
  · -- the call's result is the agent's, by the joint machine
    obtain rfl : body = bytes := Except.ok.inj hbody
    cases answer with
    | error err => exact absurd hstatus (workerErrorStatus_ne err)
    | ok v =>
      obtain ⟨request, hread, rfl, -, hne, hquestions⟩ := predictImpl_validated himpl
      obtain ⟨request', hread', -, rfl⟩ := predictImpl_ok himpl
      obtain rfl : request = request' := Except.ok.inj (hread.symm.trans hread')
      obtain ⟨n, sent, s, value, s', hsent, hk, hs, hpredict, hvalue⟩ :=
        Joint.result_directly hw hr hne hquestions hcall
          (show (d.sys.calls key).answered = some (.ok v) by rw [hcall]; rfl)
      exact ⟨request, n, sent, s, value, s', v, hread, hsent, hk, hs, hpredict, hvalue, rfl⟩

open Replay in
/-- The result at a run: exchange `3` is answered with the `null` that the agent returned. -/
theorem result_is_agents_null : ∃ d response n sent value, (daemon world).Reachable d ∧
    d.http 3 = some ⟨.predict false (.ok body), .done response⟩ ∧ response.status = 200 ∧
    d.sys.sup.frames[n]? = some sent ∧ sent.job.reply = 3 ∧
    nullAgent.predict (Joint.agentAfter world .finite () (d.sys.sup.frames.take n)) (.text "hello")
      (Json.toPyMembers .finite request.questions) = (.ok value, ()) ∧
    value.document.toJson world.cx.host.f64Text = some response.body := by
  have hrun : ((daemon world).exec (daemon world).init (serving ++ replied)).map (fun d =>
      (d.http 3).map (Exchange.isResult body)) = some (some true) := by decide +kernel
  obtain ⟨d, hd, hv⟩ := Machine.reachable_of_exec hrun
  obtain ⟨e, he, hresult⟩ := Option.map_eq_some_iff.mp hv
  obtain ⟨response, rfl, hstatus⟩ := Exchange.eq_of_isResult hresult
  obtain ⟨asked, n, sent, s, value, s', v, hread, hsent, hk, -, hpredict, hvalue, hbody⟩ :=
    result_is_agents lawful_world hd he hstatus
  obtain rfl : asked = request := Except.ok.inj (hread.symm.trans fromSlice_body)
  exact ⟨d, response, n, sent, value, hd, he, hstatus, hsent, hk, hpredict, hbody ▸ hvalue⟩

/-- What the readiness document says of the worker. -/
theorem get_readyBody (info : WorkerInfo) :
    ∀ member ∈ ([("ready", .bool true), ("worker_pid", .int info.pid),
      ("model", .str info.model), ("checkpoint", .str info.checkpoint),
      ("device", .str info.device), ("backend", .str info.backend)] : List (String × Json)),
      (readyBody info).get member.1 = some member.2 := by
  intro member hmember
  simp only [List.mem_cons, List.not_mem_nil, or_false] at hmember
  rcases hmember with rfl | rfl | rfl | rfl | rfl | rfl <;> rfl

/-- **`/readyz` is true.**  A `200` of `/readyz`, whose handler reads the state and the metadata
    one after the other, describes the one worker that was spawned, whose start went well: its
    process id, the model and the checkpoint it was started with, and its device. -/
theorem readyz_sound (hw : w.Lawful parseFloat) (h : (daemon w).Reachable d) {key : Nat}
    {response : Response} (he : d.http key = some ⟨.readyz, .done response⟩)
    (hstatus : response.status = 200) :
    ∃ pid info, d.sys.sh.spawned = [pid] ∧ Joint.Started w pid info ∧
      response.body = readyBody info ∧
      ∀ member ∈ ([("ready", .bool true), ("worker_pid", .int pid),
        ("model", .str w.args.model.text), ("checkpoint", .str info.checkpoint),
        ("device", .str info.device), ("backend", .str w.args.backend.text)] :
          List (String × Json)), response.body.get member.1 = some member.2 := by
  obtain ⟨info, ha, hbody⟩ := sound h he hstatus
  obtain ⟨pid, hpid, hstarted⟩ := Joint.started_of_accepts hw (reachable_joint h) ha
  obtain ⟨-, -, -, -, -, -, -, hinfo, -⟩ := id hstarted
  have hmembers := get_readyBody info
  rw [← hbody, show info.pid = pid by rw [hinfo]; rfl,
    show info.model = w.args.model.text by rw [hinfo]; rfl,
    show info.backend = w.args.backend.text by rw [hinfo]; rfl] at hmembers
  exact ⟨pid, info, hpid, hstarted, hbody, hmembers⟩

open Replay in
/-- The result at a run: `/readyz` tells of the worker that was spawned. -/
theorem readyz_sound_cpu : ∃ d response pid info, (daemon world).Reachable d ∧
    d.http 4 = some ⟨.readyz, .done response⟩ ∧ response.status = 200 ∧
    d.sys.sh.spawned = [pid] ∧ Joint.Started world pid info ∧ response.body = readyBody info ∧
    response.body.get "worker_pid" = some (.int pid) := by
  have hrun : ((daemon world).exec (daemon world).init (serving ++ asked)).map (fun d =>
      (d.http 4).map (Exchange.isReadyz 200)) = some (some true) := by decide +kernel
  obtain ⟨d, hd, hv⟩ := Machine.reachable_of_exec hrun
  obtain ⟨e, he, hready⟩ := Option.map_eq_some_iff.mp hv
  obtain ⟨response, rfl, hstatus⟩ := Exchange.eq_of_isReadyz hready
  obtain ⟨pid, info, hpid, hstarted, hbody, hmembers⟩ := readyz_sound lawful_world hd he hstatus
  exact ⟨d, response, pid, info, hd, he, hstatus, hpid, hstarted, hbody,
    hmembers ("worker_pid", _) (by simp)⟩

/-! ### The surface of a closed handle -/

/-- The readiness future has returned without an error. -/
def StartedOk (s : Sys) : Prop := s.calls 0 = .readiness (.over (some (.ok ())))

/-- A start that went well is not undone. -/
theorem StartedOk.step {s s' : Sys} {l : Label} (hs : StartedOk s)
    (h : s.step w.cx l = some s') : StartedOk s' := by
  rcases Sys.step_cases h with
    ⟨ev, p, eff, -, hp, rfl⟩ | ⟨key, ev, c, eff, -, hc, rfl⟩ | ⟨n, -, rfl⟩ | ⟨status, -, rfl⟩
  · exact hs
  · by_cases hkey : 0 = key
    · rw [← hkey, hs] at hc
      cases hc
    · simpa [StartedOk, Function.update_of_ne hkey] using hs
  · exact hs
  · exact hs

/-- By then the handshake is settled. -/
theorem settled_of_started {s : Sys} (h : (handle w.cx).Reachable s) :
    StartedOk s → s.sh.ready.slot ≠ .empty := by
  refine Machine.invariant_of_step
    (P := fun s : Sys => StartedOk s → s.sh.ready.slot ≠ .empty) ?_ ?_ h
  · exact nofun
  · intro s l s' hs hstep hstarted
    by_cases hempty : s.sh.ready.slot = .empty
    · -- only the step by which the future returns, and that has found a result
      rcases Sys.step_cases hstep with
        ⟨ev, p, eff, -, hp, rfl⟩ | ⟨key, ev, c, eff, -, hc, rfl⟩ | ⟨n, -, rfl⟩ | ⟨status, -, rfl⟩
      · exact absurd hempty (hs hstarted)
      · by_cases hkey : 0 = key
        · subst hkey
          obtain ⟨info, hslot⟩ := Call.step_started hc (by simpa [StartedOk] using hstarted)
          rw [hslot] at hempty
          cases hempty
        · exact absurd hempty (hs (by simpa [StartedOk, Function.update_of_ne hkey] using hstarted))
      · exact absurd hempty (hs hstarted)
      · exact absurd hempty (hs hstarted)
    · rw [Sys.ready_step hstep hempty]
      exact hempty

/-- After that a closed state stays closed. -/
theorem closed_step {s s' : Sys} {l : Label} (hr : (handle w.cx).Reachable s)
    (hstarted : StartedOk s) (hclosed : s.sh.state.isClosed = true)
    (h : s.step w.cx l = some s') : s'.sh.state.isClosed = true := by
  refine Sys.isClosed_step (fun info hpc => ?_) h hclosed
  have hstaged := (Sys.Handshake.reachable hr).staged
  rw [Sup.Staged, hpc] at hstaged
  exact settled_of_started hr hstarted ((Oneshot.isPending_iff _).mp hstaged.1)

/-- How `main` comes to attach the worker. -/
theorem mainStep_attach {ev : MainEv} (h : d.mainStep w ev = some d') :
    (d'.app.attached = d.app.attached ∨ d.main = .attaching) ∧
      (d'.main = .attaching → StartedOk d.sys ∧ d'.joint = d.joint) ∧
      (d.main.past = true → d'.main.past = true ∧ d'.app.attached = d.app.attached) := by
  revert h
  fun_cases Daemon.mainStep w d ev
  all_goals intro h
  all_goals first
    | (cases h; done)
    | (cases h; simp_all [MainPc.past]; done)
    | skip
  -- the start has returned
  case case3 hmain =>
    obtain ⟨main, hafter, rfl⟩ := Option.map_eq_some_iff.mp h
    refine ⟨.inl rfl, fun hattaching => ⟨?_, rfl⟩, fun hpast => ?_⟩
    · obtain rfl : main = .attaching := hattaching
      unfold afterStart at hafter
      split at hafter <;> cases hafter
      assumption
    · rw [hmain] at hpast
      cases hpast
  -- the shutdown has returned
  case case18 hmain _ =>
    cases h
    refine ⟨.inl rfl, fun hattaching => ?_, fun _ => ⟨?_, rfl⟩⟩
    · dsimp only at hattaching
      split at hattaching <;> cases hattaching
    · dsimp only
      split <;> rfl
  all_goals
    obtain ⟨t, hl, rfl⟩ := Option.map_eq_some_iff.mp h
    rw [lower_eq hl]
    simp_all [MainPc.past]

/-- A worker is attached, or about to be, once the readiness future has returned it. -/
theorem started_of_attached (h : (daemon w).Reachable d) :
    d.app.attached = true ∨ d.main = .attaching → StartedOk d.sys := by
  refine Machine.invariant_of_step
    (P := fun d : Daemon σ => d.app.attached = true ∨ d.main = .attaching → StartedOk d.sys)
    ?_ ?_ h
  · rintro (hno | hno) <;> cases hno
  · intro d a d' hs hstep hd'
    -- it stays so, whatever happens below
    have hkeep : d.app.attached = true ∨ d.main = .attaching → StartedOk d'.sys := fun hd => by
      rcases step_sys hstep with he | ⟨l, hl, -⟩
      · rw [he]
        exact hs hd
      · exact (hs hd).step hl
    have hframe : d'.app.attached = d.app.attached → d'.main = d.main → StartedOk d'.sys :=
      fun happ hmain => hkeep (by rwa [happ, hmain] at hd')
    cases tasked hstep with
    | main hmain =>
      obtain ⟨happ, hattaching, -⟩ := mainStep_attach hmain
      rcases hd' with hd' | hd'
      · exact hkeep (happ.imp_left fun he => he.symm.trans hd')
      · obtain ⟨hstarted, hjoint⟩ := hattaching hd'
        rwa [sys, hjoint]
    | watch hwatch =>
      obtain ⟨⟨-, hmain, -, happ⟩, -⟩ := watchStep_kept hwatch
      exact hframe happ hmain
    | other _ _ he => exact hframe (by rw [he]) (by rw [he])

/-- Past its attaching `main` attaches nothing. -/
theorem past_step (h : d.step w a = some d') (hpast : d.main.past = true) :
    d'.main.past = true ∧ d'.app.attached = d.app.attached := by
  cases tasked h with
  | main hmain => exact (mainStep_attach hmain).2.2 hpast
  | watch hwatch =>
    obtain ⟨⟨-, hmain, -, happ⟩, -⟩ := watchStep_kept hwatch
    exact ⟨hmain ▸ hpast, happ⟩
  | other _ _ he =>
    rw [he]
    exact ⟨hpast, rfl⟩

/-- The handle is closed for good, or was never attached. -/
structure Barred (d : Daemon σ) : Prop where
  past : d.main.past = true
  closed : d.app.attached = true → d.sys.sh.state.isClosed = true

/-- A handle that is closed for good, or was never attached, stays so. -/
theorem Barred.step (hb : Barred d) (hr : (daemon w).Reachable d) (h : d.step w a = some d') :
    Barred d' := by
  obtain ⟨hpast, happ⟩ := past_step h hb.past
  refine ⟨hpast, fun hattached => ?_⟩
  rw [happ] at hattached
  rcases step_sys h with he | ⟨l, hl, -⟩
  · rw [he]
    exact hb.closed hattached
  · exact closed_step (reachable_sys hr) (started_of_attached hr (.inl hattached))
      (hb.closed hattached) hl

/-- A prediction begins when its request arrives, with a worker attached. -/
theorem prediction_step (h : d.step w a = some d') {key : Nat}
    (hpred : (d'.sys.calls key).isPrediction = true) :
    (d.sys.calls key).isPrediction = true ∨
      d.app.attached = true ∧ ∃ request, a = .request key request := by
  rcases step_sys h with he | ⟨l, hl, hbelow⟩
  · exact .inl (he ▸ hpred)
  rcases Sys.step_cases hl with
    ⟨ev, p, eff, -, hp, he⟩ | ⟨k, ev, c, eff, hlabel, hc, he⟩ | ⟨n, -, he⟩ | ⟨status, -, he⟩
  · exact .inl (by simpa [he] using hpred)
  · rw [he] at hpred
    dsimp only at hpred
    by_cases hkey : key = k
    · subst hkey
      rw [Function.update_self] at hpred
      rcases (Call.step_moved hc).kind with hidle | hkind
      · -- the call begins here: only a request begins a prediction
        rw [hidle] at hc
        obtain ⟨request, rfl, hstart⟩ := Call.idle_step hc
        subst hlabel
        cases hbelow with
        | own hown => cases hown
        | shutdown | killNow =>
          cases hstart
          cases hpred
        | predict _ hattached => exact .inr ⟨hattached, _, rfl⟩
      · exact .inl (hkind ▸ hpred)
    · rw [Function.update_of_ne hkey] at hpred
      exact .inl hpred
  · exact .inl (by simpa [he] using hpred)
  · exact .inl (by simpa [he] using hpred)

/-- A prediction has an exchange. -/
theorem unasked (h : (daemon w).Reachable d) {key : Nat} :
    d.http key = none → (d.sys.calls key).isPrediction = false := by
  refine Machine.invariant_of_step
    (P := fun d : Daemon σ => d.http key = none → (d.sys.calls key).isPrediction = false) ?_ ?_ h
  · intro _
    show (Call.isPrediction (if key = 0 then .readiness .created else .idle)) = false
    split <;> rfl
  · intro d a d' hs hstep hnew
    by_contra hpred
    rw [Bool.not_eq_false] at hpred
    obtain ⟨hold, hother⟩ := http_kept hstep hnew
    rcases prediction_step hstep hpred with hpred | ⟨-, request, ha⟩
    · rw [hs hold] at hpred
      cases hpred
    · exact hother request ha

/-- An exchange whose call has no job has none in the books. -/
theorem unaccepted (h : (daemon w).Reachable d) {key : Nat} (he : d.http key ≠ none)
    (hunsent : (d.sys.calls key).isPrediction = true → key ∉ d.sys.ledger.accepted) :
    key ∉ d.sys.ledger.accepted := by
  rcases calls_owned h key with hidle | hkind
  · have hbooked := Sys.Booked.reachable (reachable_sys h)
    exact hbooked.fresh key (by rw [Call.kind_eq_idle.mp hidle]; rfl)
  · rw [kindOf_of_lt (keyed h he)] at hkind
    refine hunsent ?_
    cases hcall : d.sys.calls key <;> simp_all [Call.kind]

/-- A handler of `/readyz` that will not answer `200`. -/
def Unready (d : Daemon σ) : HttpPc → Prop
  | .readState => d.app.attached = true
  | .readInfo state => state ≠ .ready
  | .done response => response.status ≠ 200
  | _ => True

/-- What becomes of an exchange with a handle that is closed. -/
structure Turned (key : Nat) (d : Daemon σ) : Prop where
  barred : Barred d
  asked : (d.sys.calls key).isPrediction = true → d.app.attached = true
  outside : (d.sys.calls key).Outside
  unsent : (d.sys.calls key).isPrediction = true → key ∉ d.sys.ledger.accepted
  readyz : ∀ pc, d.http key = some ⟨.readyz, pc⟩ → Unready d pc

/-- A call stays outside of a handle that is closed. -/
theorem Turned.calls {key : Nat} (ht : Turned key d) (hr : (daemon w).Reachable d)
    (h : d.step w a = some d') :
    ((d'.sys.calls key).isPrediction = true → d.app.attached = true) ∧
      (d'.sys.calls key).Outside ∧
      ((d'.sys.calls key).isPrediction = true → key ∉ d'.sys.ledger.accepted) := by
  have hasked : (d'.sys.calls key).isPrediction = true → d.app.attached = true := fun hpred =>
    (prediction_step h hpred).elim ht.asked fun hnew => hnew.1
  refine ⟨hasked, ?_⟩
  rcases step_sys h with he | ⟨l, hl, -⟩
  · rw [he]
    exact ⟨ht.outside, ht.unsent⟩
  rcases Sys.step_cases hl with
    ⟨ev, p, eff, -, hp, he⟩ | ⟨k, ev, c, eff, -, hc, he⟩ | ⟨n, -, he⟩ | ⟨status, -, he⟩
  · rw [he]
    exact ⟨ht.outside, by simpa only [Sys.ledger, Sys.accepted_of_sup hp] using ht.unsent⟩
  -- a call that does not send stays without a job, and is refused by the state
  · rw [he]
    refine ⟨?_, Sys.unsent_call (Sys.Booked.reachable (reachable_sys hr))
      (Call.sending_of_outside ht.outside) ht.unsent hc⟩
    dsimp only
    by_cases hkey : key = k
    · subst hkey
      rw [Function.update_self]
      refine Call.step_outside ht.outside ?_ hc
      rintro rfl ⟨params, hcall⟩
      exact ht.barred.closed (ht.asked (by rw [hcall]; rfl))
    · rw [Function.update_of_ne hkey]
      exact ht.outside
  · rw [he]
    exact ⟨ht.outside, ht.unsent⟩
  · rw [he]
    exact ⟨ht.outside, ht.unsent⟩

/-- `/readyz` does not come to a `200`. -/
theorem Turned.readyz_step {key : Nat} (ht : Turned key d) (hr : (daemon w).Reachable d)
    (h : d.step w a = some d') (pc : HttpPc)
    (he : d'.http key = some ⟨.readyz, pc⟩) : Unready d' pc := by
  have happ := (past_step h ht.barred.past).2
  have hkeep : ∀ {pc}, Unready d pc → Unready d' pc := fun {pc} hun => by
    cases pc <;> simp_all [Unready]
  rcases http_step h with
    hhttp | ⟨key', request, -, -, -, harrive⟩ | ⟨key', e, pc', -, he', hpc, rfl⟩
  · exact hkeep (ht.readyz pc (hhttp ▸ he))
  · by_cases hkey : key = key'
    · subst hkey
      obtain ⟨pc', heq⟩ := arrive_eq harrive
      obtain rfl : request = .readyz := by
        rw [heq] at he
        simpa using (congrArg (Option.map Exchange.request) he)
      cases harrive
      obtain rfl : _ = pc := by simpa [exchange] using he
      -- it reads the state, or is answered at once for want of a worker
      by_cases hattached : d.app.attached = true
      · rw [if_pos hattached]
        exact hattached
      · rw [if_neg hattached]
        intro hstatus
        cases (readyzResponse_ok hstatus).1
    · obtain ⟨pc', heq⟩ := arrive_eq harrive
      rw [heq] at he
      exact hkeep (ht.readyz pc (by simpa [Function.update_of_ne hkey] using he))
  · by_cases hkey : key = key'
    · subst hkey
      obtain ⟨hrequest, rfl⟩ : e.request = .readyz ∧ pc' = pc := by simpa [exchange] using he
      obtain ⟨request, pc₀⟩ := e
      obtain rfl : request = .readyz := hrequest
      have hold := ht.readyz pc₀ he'
      cases pc₀ with
      | readState =>
        cases hpc
        -- the state that is read is closed
        have hclosed := ht.barred.closed hold
        intro hready
        rw [hready] at hclosed
        cases hclosed
      | readInfo state =>
        cases hpc
        exact fun hstatus => hold (Option.some.inj (readyzResponse_ok hstatus).1)
      | readModel => exact (sound hr he').elim
      | predicting | done => cases hpc
    · exact hkeep (ht.readyz pc (by simpa [exchange, Function.update_of_ne hkey] using he))

/-- An exchange with a closed handle is answered as one, if at all. -/
theorem Turned.step {key : Nat} (ht : Turned key d) (hr : (daemon w).Reachable d)
    (h : d.step w a = some d') : Turned key d' := by
  obtain ⟨hasked, houtside, hunsent⟩ := ht.calls hr h
  refine ⟨ht.barred.step hr h, fun hpred => ?_, houtside, hunsent, ht.readyz_step hr h⟩
  rw [(past_step h ht.barred.past).2]
  exact hasked hpred

/-- **The surface fails closed.**  Once the handle is closed, by a failure or by a shutdown, or
    if no worker was ever attached and none will be, a request that arrives is not answered with
    a `200`: a prediction is refused and no job of it is accepted, and `/readyz` tells of no
    worker. -/
theorem refused_once_closed (h : (daemon w).Reachable d) (hpast : d.main.past = true)
    (hclosed : d.app.attached = true → d.sys.sh.state.isClosed = true) {key : Nat}
    (hnew : d.http key = none) (hr : (daemon w).Runs d t) {request : HttpRequest}
    {response : Response} (he : t.http key = some ⟨request, .done response⟩) :
    (request = .readyz → response.status ≠ 200) ∧
      ∀ jevShape body, request = .predict jevShape (.ok body) →
        response.status ≠ 200 ∧ key ∉ t.sys.ledger.accepted := by
  have hpred := unasked h hnew
  have ht : Turned key t := by
    refine Machine.stable_of_step (fun _ _ _ hu ht hstep => ht.step hu hstep) h ?_ hr
    have hno : (d.sys.calls key).isPrediction ≠ true := by rw [hpred]; simp
    refine ⟨⟨hpast, hclosed⟩, fun hyes => absurd hyes hno, ?_, fun hyes => absurd hyes hno,
      by simp [hnew]⟩
    cases hcall : d.sys.calls key <;> simp_all [Call.Outside]
  refine ⟨?_, ?_⟩
  · rintro rfl
    exact ht.readyz _ he
  · rintro jevShape body rfl
    have hreach := h.runs hr
    refine ⟨fun hstatus => ?_, unaccepted hreach (by simp [he]) ht.unsent⟩
    rcases sound hreach he with
      ⟨attached, err, hrefused, rfl⟩ | ⟨bytes, kinds, params, answer, -, -, hcall, rfl⟩
    · rcases status_of_refused hrefused with hno | hno <;>
        exact absurd (hno.symm.trans hstatus) (by simp)
    -- whatever the call was answered is a refusal
    · have hrefusal := ht.outside.answered answer (by rw [hcall]; rfl)
      cases answer with
      | error err => exact workerErrorStatus_ne err hstatus
      | ok v => simp [Refusal] at hrefusal

open Replay in
/-- The result at a run: the worker has died, and `/readyz` is asked and answered after that. -/
theorem refused_once_closed_died : ∃ d t response, (daemon world).Reachable d ∧
    (daemon world).Runs d t ∧ t.http 4 = some ⟨.readyz, .done response⟩ ∧
    response.status ≠ 200 := by
  have hrun : (((daemon world).exec (daemon world).init (serving ++ died)).bind fun d =>
      ((daemon world).exec d asked).map fun t =>
        d.main.past && d.sys.sh.state.isClosed && (d.http 4).isNone &&
          (t.http 4).any (Exchange.isReadyz 503)) = some true := by decide +kernel
  obtain ⟨d, t, hd, ht, hv⟩ := Machine.runs_of_exec_exec hrun
  simp only [Bool.and_eq_true] at hv
  obtain ⟨⟨⟨hpast, hclosed⟩, hnew⟩, hasked⟩ := hv
  obtain ⟨e, he, hready⟩ := Option.any_eq_true _ _ |>.mp hasked
  obtain ⟨response, rfl, -⟩ := Exchange.eq_of_isReadyz hready
  exact ⟨d, t, response, hd, ht, he, (refused_once_closed hd hpast (fun _ => hclosed)
    (Option.isNone_iff_eq_none.mp hnew) ht he).1 rfl⟩

end Daemon

end Layad
