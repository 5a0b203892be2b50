import Layad.Worker.Handle

namespace Layad

open Channel Transition

/-!
# What one step of a call can do

The counterpart of the supervisor's step facts: which operations a call does on the shared
state (`Call.step_does`), how it comes to put its one job in the queue
(`Call.step_sending`, `Call.step_waking`), and where its answer is from
(`Call.step_answered`).  `Sys.step_cases` splits a step of the system by who takes it.
-/

/-- The wake-up job is still to be sent. -/
@[simp]
def ShutPc.mayWake : ShutPc → Bool
  | .setState | .wake => true
  | _ => false

/-- The wake-up job is sent next. -/
@[simp]
def ShutPc.waking : ShutPc → Bool
  | .wake => true
  | _ => false

/-- Past its wake-up job a shutdown sends none. -/
theorem ShutPc.waking_of_mayWake (pc : ShutPc) (h : pc.mayWake = false) : pc.waking = false := by
  cases pc <;> simp_all

namespace Call

variable {cx : Ctx} {sh : Shared} {key grace : Nat} {c c' : Call} {ev : CallEv} {eff : Eff}

/-- The call can still put its job in the queue. -/
@[simp]
def mayPush : Call → Bool
  | .idle | .predict _ .checking | .predict _ .sending | .readiness .created
  | .readiness (.waiting _) => true
  | .readiness (.stopping _ pc) | .shutdown _ pc => pc.mayWake
  | _ => false

/-- The call is about to send the wake-up job. -/
@[simp]
def waking : Call → Bool
  | .readiness (.stopping _ pc) | .shutdown _ pc => pc.waking
  | _ => false

/-- The prediction has passed the check of the state and sends its job. -/
@[simp]
def sending : Call → Bool
  | .predict _ .sending => true
  | _ => false

/-- A call of `predict`. -/
@[simp]
def isPrediction : Call → Bool
  | .predict .. => true
  | _ => false

/-- What a prediction returned, or is about to return. -/
def answered : Call → Option Answer
  | .predict _ (.leaving answer) | .predict _ (.over answer) => answer
  | _ => none

/-- The error a prediction returned, or is about to return. -/
def failure (c : Call) : Option WorkerError :=
  match c.answered with
  | some (.error err) => some err
  | _ => none

/-- The call has not begun. -/
def isIdle : Call → Bool
  | .idle => true
  | _ => false

/-- A failure is an answer with an error. -/
theorem failure_eq_some {err : WorkerError} :
    c.failure = some err ↔ c.answered = some (.error err) := by
  unfold failure
  split <;> simp_all

/-- The test of a call that was not made. -/
theorem isIdle_iff : c.isIdle = true ↔ c = .idle := by
  cases c <;> simp [isIdle]

/-- The operations of a call, and with what operands. -/
def Does (sh : Shared) (key : Nat) (c c' : Call) : Eff → Prop
  | .skip | .acquire | .release | .notifyForceStop | .takeDone | .closeReady | .sendFatal _ => True
  | .setState state =>
    state = .shuttingDown ∨ (sh.state ≠ .shuttingDown ∧ ∃ reason stage, state = .failed reason ∧
      c' = .markFailed reason stage)
  | .setInfo info => info = none
  | .setPid pid => pid = none
  | .push job =>
    job.reply = key ∧ sh.jobs.closed = false ∧ c.mayPush = true ∧ c'.mayPush = false ∧
      ((c = .predict job.params .sending ∧ c' = .predict job.params .awaiting) ∨
        (c.waking = true ∧ job.params = .null))
  | .closeReply k => k = key ∧ c'.mayPush = false
  | _ => False

/-- What holds of every step of a call. -/
structure Moved (sh : Shared) (key : Nat) (c c' : Call) (eff : Eff) : Prop where
  does : Does sh key c c' eff
  mayPush : c'.mayPush = true → c.mayPush = true
  waking : c'.waking = true → eff = .setState .shuttingDown
  sending : c'.sending = true → sh.state = .ready ∧ eff = .skip
  awaits : ∀ params, c' = .predict params .awaiting → eff = .push ⟨params, key⟩
  kind : c = .idle ∨ c'.isPrediction = c.isPrediction
  params : ∀ params pc', c' = .predict params pc' → c = .idle ∨ ∃ pc, c = .predict params pc

/-- A call that neither writes the state nor sends a job leaves both as they are. -/
theorem Does.keeps (h : Does sh key c c' eff) :
    (∃ state, eff = .setState state) ∨ (∃ job, eff = .push job) ∨
      ((sh.apply eff).state = sh.state ∧ (sh.apply eff).jobs = sh.jobs) := by
  cases eff <;> simp_all [Does, Shared.apply]

/-! ### The shared parts -/

/-- Only a ready worker passes the check of the state. -/
theorem refusal_eq_none {state : State} : refusal state = none ↔ state = .ready := by
  cases state <;> simp [refusal]

/-- A refusal never says that the worker is lost. -/
theorem invalidatesWorker_of_refusal {state : State} {err : WorkerError}
    (h : refusal state = some err) : err.invalidatesWorker = false := by
  cases state <;> simp_all [refusal]
  all_goals subst h; rfl

/-- The operations of `kill_now`. -/
theorem killStep_does {pc pc' : KillPc} (h : killStep cx sh pc ev = some (pc', eff)) :
    eff = .skip ∨ eff = .notifyForceStop ∨ eff = .takeDone := by
  revert h
  fun_cases killStep cx sh pc ev
  all_goals intro h
  all_goals simp_all

/-- A shutdown sets the state, then sends its wake-up job, then waits. -/
theorem shutdownStep_cases {pc pc' : ShutPc}
    (h : shutdownStep cx sh key grace pc ev = some (pc', eff)) :
    (pc = .setState ∧ pc' = .wake ∧ eff = .setState .shuttingDown) ∨
    (pc = .wake ∧ pc'.mayWake = false ∧
      (eff = .skip ∨ (eff = .push ⟨.null, key⟩ ∧ sh.jobs.closed = false))) ∨
    (pc ≠ .wake ∧ pc'.mayWake = false ∧
      (eff = .skip ∨ eff = .notifyForceStop ∨ eff = .takeDone ∨ eff = .closeReply key)) := by
  revert h
  fun_cases shutdownStep cx sh key grace pc ev
  all_goals intro h
  case case2 =>
    obtain ⟨rfl, rfl⟩ := Prod.mk.inj (Option.some.inj h)
    refine Or.inr (Or.inl ⟨rfl, rfl, ?_⟩)
    split
    · rename_i hroom
      simp_all [Mpsc.hasRoom]
    · exact Or.inl rfl
  case case8 pc =>
    -- the kill has its own steps; its end is the end of the wait
    obtain ⟨⟨pc₁, eff₁⟩, hk, hm⟩ := Option.map_eq_some_iff.mp h
    obtain ⟨rfl, rfl⟩ := Prod.mk.inj hm
    have heff := killStep_does hk
    refine Or.inr (Or.inr ⟨by simp, ?_, by tauto⟩)
    cases pc₁ <;> rfl
  all_goals simp_all [ShutPc.mayWake]
  all_goals obtain ⟨rfl, rfl⟩ := h
  all_goals simp

/-- Only a prediction sends a prediction's job. -/
theorem not_sending (c : Call) (h : c.isPrediction = false) : c.sending = false := by
  cases c <;> simp_all

/-- What is no prediction is none with these parameters. -/
theorem not_predict (c : Call) (h : c.isPrediction = false) (params : Json) (pc : PredictPc) :
    c ≠ .predict params pc := by
  rintro rfl
  simp at h

/-- A shutdown inside the readiness future is a shutdown. -/
theorem stopping_cases {err : Option StartError} {pc : ShutPc} {pc' : StartPc}
    (h : readinessStep cx sh key (.stopping err pc) ev = some (pc', eff)) :
    ∃ pc₁, shutdownStep cx sh key cx.config.shutdownTimeout pc ev = some (pc₁, eff) ∧
      ((pc₁ = .over ∧ pc' = .over (err.map .error)) ∨ ∃ e, pc' = .stopping e pc₁) := by
  obtain ⟨⟨pc₁, eff₁⟩, hs, hm⟩ := Option.map_eq_some_iff.mp h
  obtain ⟨rfl, rfl⟩ := Prod.mk.inj hm
  refine ⟨pc₁, hs, ?_⟩
  cases pc₁ <;> cases ev <;> simp

/-- The readiness future waits for the worker, and shuts it down if it has not started. -/
theorem readinessStep_cases {pc pc' : StartPc}
    (h : readinessStep cx sh key pc ev = some (pc', eff)) :
    (∃ err pc₀, pc = .stopping err pc₀) ∨
    ((pc = .created ∨ ∃ deadline, pc = .waiting deadline) ∧ ev ≠ .notified ∧
      (eff = .skip ∨ eff = .closeReady) ∧
      ((∃ deadline, pc' = .waiting deadline) ∨ pc' = .over (some (.ok ())) ∨ pc' = .over none ∨
        ∃ err, pc' = .stopping (some err) .setState ∧
          (err = .timeout cx.config.startupTimeout ∨ sh.ready.slot = .sent (.error err) ∨
            sh.ready.slot = .dropped))) := by
  revert h
  fun_cases readinessStep cx sh key pc ev
  all_goals intro h
  case case10 err pc₀ => exact Or.inl ⟨err, pc₀, rfl⟩
  all_goals simp only [Option.some.injEq, Prod.mk.injEq, reduceCtorEq] at h
  all_goals obtain ⟨rfl, rfl⟩ := h
  all_goals simp_all

/-- The operations of `mark_failed`. -/
theorem markStep_does {reason : String} {stage : MarkPc} {stage' : Option MarkPc}
    (h : markStep sh reason stage ev = some (stage', eff)) :
    ev ≠ .notified ∧
    (eff = .skip ∨ (eff = .setState (.failed reason) ∧ sh.state ≠ .shuttingDown) ∨
      eff = .setInfo none ∨ eff = .setPid none ∨ eff = .sendFatal reason) := by
  revert h
  fun_cases markStep sh reason stage ev
  all_goals intro h
  all_goals simp only [Option.some.injEq, Prod.mk.injEq, reduceCtorEq] at h
  all_goals obtain ⟨rfl, rfl⟩ := h
  case case1 => split <;> simp_all
  all_goals simp

/-- The operations of `predict`. -/
theorem predictStep_does {params : Json} {pc pc' : PredictPc}
    (h : predictStep sh key params pc ev = some (pc', eff)) :
    ev ≠ .notified ∧
    (eff = .skip ∨ eff = .push ⟨params, key⟩ ∨ eff = .closeReply key ∨ eff = .release) := by
  revert h
  fun_cases predictStep sh key params pc ev
  all_goals intro h
  all_goals simp only [Option.some.injEq, Prod.mk.injEq, reduceCtorEq] at h
  all_goals obtain ⟨rfl, rfl⟩ := h
  all_goals simp

/-! ### Every call -/

/-- A step of a call is a step of the program it runs. -/
inductive Stepped (cx : Ctx) (sh : Shared) (key : Nat) (ev : CallEv) :
    Call → Call → Eff → Prop where
  | started (request : Request) {c' : Call} {eff : Eff} (h : start sh request = (c', eff)) :
      Stepped cx sh key ev .idle c' eff
  | readiness {pc pc' : StartPc} {eff : Eff} (h : readinessStep cx sh key pc ev = some (pc', eff)) :
      Stepped cx sh key ev (.readiness pc) (.readiness pc') eff
  | predict {params : Json} {pc pc' : PredictPc} {eff : Eff}
      (h : predictStep sh key params pc ev = some (pc', eff)) :
      Stepped cx sh key ev (.predict params pc) (.predict params pc') eff
  | shutdown {grace : Nat} {pc pc' : ShutPc} {eff : Eff}
      (h : shutdownStep cx sh key grace pc ev = some (pc', eff)) :
      Stepped cx sh key ev (.shutdown grace pc) (.shutdown grace pc') eff
  | killNow {pc pc' : KillPc} {eff : Eff} (h : killStep cx sh pc ev = some (pc', eff)) :
      Stepped cx sh key ev (.killNow pc) (.killNow pc') eff
  | markFailed {reason : String} {stage : MarkPc} {stage' : Option MarkPc} {eff : Eff}
      (h : markStep sh reason stage ev = some (stage', eff)) :
      Stepped cx sh key ev (.markFailed reason (some stage)) (.markFailed reason stage') eff

/-- Every step of a call is a step of the program it runs. -/
theorem stepped (h : c.step cx sh key ev = some (c', eff)) : Stepped cx sh key ev c c' eff := by
  revert h
  fun_cases Call.step cx sh key c ev
  all_goals intro h
  case case1 request => exact .started request (Option.some.inj h)
  case case7 => cases h
  all_goals
    obtain ⟨⟨pc', eff'⟩, hs, hm⟩ := Option.map_eq_some_iff.mp h
    obtain ⟨rfl, rfl⟩ := Prod.mk.inj hm
  case case2 => exact .readiness hs
  case case3 => exact .predict hs
  case case4 => exact .shutdown hs
  case case5 => exact .killNow hs
  case case6 => exact .markFailed hs

/-- A shutdown, called for itself or at the end of the readiness future. -/
theorem Moved.ofShutdown {pc pc' : ShutPc}
    (h : shutdownStep cx sh key grace pc ev = some (pc', eff))
    (hc : c.mayPush = pc.mayWake ∧ c.waking = pc.waking ∧ c.isPrediction = false)
    (hc' : c'.mayPush = pc'.mayWake ∧ c'.waking = pc'.waking ∧ c'.isPrediction = false) :
    Moved sh key c c' eff where
  does := by
    rcases shutdownStep_cases h with
      ⟨rfl, rfl, rfl⟩ | ⟨rfl, hw, rfl | ⟨rfl, hj⟩⟩ | ⟨hne, hw, rfl | rfl | rfl | rfl⟩
    case inr.inl.inr => exact ⟨rfl, hj, hc.1, hc'.1.trans hw, Or.inr ⟨hc.2.1, rfl⟩⟩
    case inr.inr.inr.inr.inr => exact ⟨rfl, hc'.1.trans hw⟩
    case inl => exact Or.inl rfl
    all_goals trivial
  mayPush hpush := by
    rw [hc'.1] at hpush
    rcases shutdownStep_cases h with ⟨rfl, -⟩ | ⟨-, hw, -⟩ | ⟨-, hw, -⟩
    · exact hc.1
    all_goals exact absurd (hw.symm.trans hpush) (by simp)
  waking hwaking := by
    rw [hc'.2.1] at hwaking
    rcases shutdownStep_cases h with ⟨-, -, heff⟩ | ⟨-, hw, -⟩ | ⟨-, hw, -⟩
    · exact heff
    all_goals exact absurd ((pc'.waking_of_mayWake hw).symm.trans hwaking) (by simp)
  sending hsending := absurd ((c'.not_sending hc'.2.2).symm.trans hsending) (by simp)
  awaits params hc := absurd hc (c'.not_predict hc'.2.2 params _)
  kind := Or.inr (hc'.2.2.trans hc.2.2.symm)
  params params pc' hc := absurd hc (c'.not_predict hc'.2.2 params pc')

/-- What holds of a step of the readiness future. -/
theorem Moved.ofReadiness {pc pc' : StartPc}
    (h : readinessStep cx sh key pc ev = some (pc', eff)) :
    Moved sh key (.readiness pc) (.readiness pc') eff := by
  rcases readinessStep_cases h with ⟨err, pc₀, rfl⟩ | ⟨hpc, -, heff, hpc'⟩
  · obtain ⟨pc₁, hs, ⟨rfl, rfl⟩ | ⟨e, rfl⟩⟩ := stopping_cases h
    · exact .ofShutdown hs ⟨rfl, rfl, rfl⟩ ⟨rfl, rfl, rfl⟩
    · exact .ofShutdown hs ⟨rfl, rfl, rfl⟩ ⟨rfl, rfl, rfl⟩
  · rcases hpc with rfl | ⟨deadline, rfl⟩
    all_goals
      rcases heff with rfl | rfl
      all_goals
        rcases hpc' with ⟨later, rfl⟩ | rfl | rfl | ⟨err, rfl, -⟩
        all_goals constructor <;> simp [Does]

/-- What holds of a step of `predict`. -/
theorem Moved.ofPredict {params : Json} {pc pc' : PredictPc}
    (h : predictStep sh key params pc ev = some (pc', eff)) :
    Moved sh key (.predict params pc) (.predict params pc') eff := by
  revert h
  fun_cases predictStep sh key params pc ev
  all_goals intro h
  all_goals simp only [Option.some.injEq, Prod.mk.injEq, reduceCtorEq] at h
  all_goals obtain ⟨rfl, rfl⟩ := h
  all_goals constructor <;> simp_all [Does, Mpsc.hasRoom]
  exact refusal_eq_none.mp ‹_›

/-- What holds of a step of `mark_failed`. -/
theorem Moved.ofMark {reason : String} {stage : MarkPc} {stage' : Option MarkPc}
    (h : markStep sh reason stage ev = some (stage', eff)) :
    Moved sh key (.markFailed reason (some stage)) (.markFailed reason stage') eff := by
  rcases markStep_does h with ⟨-, rfl | ⟨rfl, hstate⟩ | rfl | rfl | rfl⟩
  all_goals constructor <;> simp_all [Does]

/-- **What a step of a call can do.** -/
theorem step_moved (h : c.step cx sh key ev = some (c', eff)) : Moved sh key c c' eff := by
  cases stepped h with
  | started request hs =>
    revert hs
    fun_cases start sh request
    all_goals rintro ⟨⟩
    all_goals constructor <;> simp_all [Does]
  | readiness hs => exact .ofReadiness hs
  | predict hs => exact .ofPredict hs
  | shutdown hs => exact .ofShutdown hs ⟨rfl, rfl, rfl⟩ ⟨rfl, rfl, rfl⟩
  | killNow hs =>
    rcases killStep_does hs with rfl | rfl | rfl
    all_goals constructor <;> simp [Does]
  | markFailed hs => exact .ofMark hs

/-- A call of `mark_failed` keeps its reason. -/
theorem step_markFailed {reason : String} {stage : Option MarkPc}
    (h : (Call.markFailed reason stage).step cx sh key ev = some (c', eff)) :
    ∃ stage', c' = .markFailed reason stage' := by
  cases stepped h with
  | markFailed => exact ⟨_, rfl⟩

/-- **Where an answer is from**: the reply channel, or a refusal, which never says that the
    worker is lost. -/
theorem step_answered (h : c.step cx sh key ev = some (c', eff)) :
    c'.answered = c.answered ∨
    (∃ params answer, c = .predict params .awaiting ∧ (sh.replies key).slot = .sent answer ∧
      c'.answered = some answer) ∨
    (∃ err, c'.answered = some (.error err) ∧ err.invalidatesWorker = false) := by
  cases stepped h with
  | started request hs =>
    revert hs
    fun_cases start sh request
    all_goals rintro ⟨⟩
    all_goals simp [answered, WorkerError.invalidatesWorker]
  | @predict params pc pc' eff hs =>
    revert hs
    fun_cases predictStep sh key params pc ev
    all_goals intro hs
    all_goals simp only [Option.some.injEq, Prod.mk.injEq, reduceCtorEq] at hs
    all_goals obtain ⟨rfl, rfl⟩ := hs
    all_goals simp_all [answered, WorkerError.invalidatesWorker]
    exact invalidatesWorker_of_refusal ‹_›
  | readiness | shutdown | killNow | markFailed => exact Or.inl rfl

end Call

namespace Sys

/-- A step is the supervisor's, a call's, the clock's or the worker's. -/
theorem step_cases {cx : Ctx} {s s' : Sys} {l : Label} (h : s.step cx l = some s') :
    (∃ ev p eff, l = .sup ev ∧ s.sup.step cx s.sh ev = some (p, eff) ∧
      s' = { s with sup := p, sh := s.sh.apply eff }) ∨
    (∃ key ev c eff, l = .call key ev ∧ (s.calls key).step cx s.sh key ev = some (c, eff) ∧
      s' = { s with calls := Function.update s.calls key c, sh := s.sh.apply eff }) ∨
    (∃ d, l = .tick d ∧ s' = { s with sh := { s.sh with now := s.sh.now + d } }) ∨
    (∃ status, l = .exit status ∧
      s' = { s with sh := { s.sh with child := s.sh.child.exit status } }) := by
  cases l with
  | sup ev =>
    obtain ⟨⟨p, eff⟩, hp, rfl⟩ := Option.map_eq_some_iff.mp h
    exact Or.inl ⟨ev, p, eff, rfl, hp, rfl⟩
  | call key ev =>
    obtain ⟨⟨c, eff⟩, hc, rfl⟩ := Option.map_eq_some_iff.mp h
    exact Or.inr (Or.inl ⟨key, ev, c, eff, rfl, hc, rfl⟩)
  | tick d =>
    cases h
    exact Or.inr (Or.inr (Or.inl ⟨d, rfl, rfl⟩))
  | exit status =>
    cases h
    exact Or.inr (Or.inr (Or.inr ⟨status, rfl, rfl⟩))

/-- The state is one that a call has written: a shutdown, or `mark_failed` with its reason. -/
def Overwritten (s : Sys) : Prop :=
  s.sh.state = .shuttingDown ∨
    ∃ k reason stage, s.calls k = .markFailed reason stage ∧ s.sh.state = .failed reason

/-- The same state under the same calls. -/
theorem Overwritten.of_state {s : Sys} {sup : Sup} {sh : Shared} (hst : sh.state = s.sh.state)
    (h : s.Overwritten) : Overwritten { s with sup, sh } :=
  h.imp hst.trans fun ⟨k, reason, stage, hk, hfailed⟩ =>
    ⟨k, reason, stage, hk, hst.trans hfailed⟩

/-- A call leaves the state as it found it, or as one that a call has written. -/
theorem overwritten_of_call {cx : Ctx} {s : Sys} {key : Nat} {ev : CallEv} {c : Call} {eff : Eff}
    (hc : (s.calls key).step cx s.sh key ev = some (c, eff))
    (h : (∃ state, eff = .setState state) ∨ s.Overwritten) :
    Overwritten { s with calls := Function.update s.calls key c, sh := s.sh.apply eff } := by
  by_cases he : ∃ state, eff = .setState state
  · obtain ⟨state, rfl⟩ := he
    rcases (Call.step_moved hc).does with rfl | ⟨-, reason, stage, rfl, rfl⟩
    · exact .inl rfl
    · exact .inr ⟨key, reason, stage, Function.update_self .., rfl⟩
  · have hstate : (s.sh.apply eff).state = s.sh.state := by
      cases eff with
      | setState state => exact absurd ⟨state, rfl⟩ he
      | _ => rfl
    rcases h.resolve_left he with hdown | ⟨k, reason, stage, hk, hfailed⟩
    · exact .inl (hstate.trans hdown)
    · by_cases hkey : k = key
      · subst hkey
        obtain ⟨stage', rfl⟩ := Call.step_markFailed (hk ▸ hc)
        exact .inr ⟨k, reason, stage', Function.update_self .., hstate.trans hfailed⟩
      · exact .inr ⟨k, reason, stage, by simpa [Function.update_of_ne hkey] using hk,
          hstate.trans hfailed⟩

end Sys

end Layad
