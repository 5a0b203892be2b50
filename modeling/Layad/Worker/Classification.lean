import Layad.Worker.FailClosed

namespace Layad

open Channel Transition

/-!
# What an error says about the worker

`WorkerError.invalidatesWorker` says which errors give the worker up; what ends the session
is the `fatal` flag of the reply.  For one line that was waited for the two agree exactly if
`Sup.classified` holds of it (`Sup.agrees_iff`), which a reply with an unknown code and no
flag does not (`Sys.nonfatal_failure_keeps_worker`).
-/

/-- The code is one of a rejected request. -/
def ErrorBody.rejects (body : ErrorBody) : Bool :=
  match body.code with
  | some "invalid_request" | some "validation" => true
  | _ => false

/-- An error body invalidates the worker unless it rejects the request. -/
theorem ErrorBody.invalidates_toWorkerError (body : ErrorBody) :
    body.toWorkerError.invalidatesWorker = !body.rejects := by
  unfold toWorkerError rejects
  dsimp only
  split <;> simp_all [WorkerError.invalidatesWorker]

namespace Sup

variable {cx : Ctx} {sh : Shared} {p p' : Sup} {ev : SupEv} {eff : Eff}

/-- An error reply to the request in flight has the `fatal` flag just if its code is not one
    of a rejected request. -/
def classified (cx : Ctx) (p : Sup) (text : String) : Bool :=
  match cx.host.fromStr text with
  | .error _ => true
  | .ok value =>
    match parseReply cx.host value with
    | .ok ⟨id, .err body⟩ => some id ≠ p.inflight.map Prod.fst || body.fatal != body.rejects
    | _ => true

/-- The answer that goes out next. -/
def delivery (p : Sup) : Option Answer :=
  match p.pc with
  | .answer _ answer _ => some answer
  | _ => none

/-- The answer gives the worker up. -/
def GivesUp (answer : Answer) : Prop := ∃ err, answer = .error err ∧ err.invalidatesWorker = true

/-- A result does not give the worker up. -/
@[simp] theorem givesUp_ok (v : Json) : ¬ GivesUp (.ok v) := by
  simp [GivesUp]

/-- An error gives the worker up if it invalidates it. -/
@[simp] theorem givesUp_error (err : WorkerError) :
    GivesUp (.error err) ↔ err.invalidatesWorker = true := by
  simp [GivesUp]

/-- The session ends in a restart just if the answer that is delivered gives the worker up. -/
def Agrees (p : Sup) : Prop :=
  ∃ answer, p.delivery = some answer ∧
    ((∃ reason, p.outcome = some (.restart reason)) ↔ GivesUp answer)

/-- Failing the request in flight with such an error ends the session in a restart. -/
theorem agrees_failInflight {id : String} {key : Nat} (hi : p.inflight = some (id, key))
    {err : WorkerError} (he : err.invalidatesWorker = true) (reason : String) :
    (p.failInflight err reason).Agrees := by
  simp [Agrees, delivery, failInflight, hi, he]

/-- A reply ends the session in a restart just if its answer gives the worker up. -/
theorem agrees_onReply {id : String} (key : Nat) (ho : p.outcome = none)
    (hi : p.inflight = some (id, key)) (text : String) {value : Json}
    (hv : cx.host.fromStr text = .ok value) :
    (p.onReply cx text value id key).Agrees ↔ p.classified cx text = true := by
  unfold onReply classified
  rw [hv]
  cases hp : parseReply cx.host value with
  | error err => simp [Agrees, delivery, hp, WorkerError.invalidatesWorker]
  | ok parsed =>
    obtain ⟨id', body⟩ := parsed
    by_cases hid : id' = id
    · subst hid
      cases body with
      | ok result => simp [Agrees, delivery, hp, ho]
      | err body =>
        have hinv := body.invalidates_toWorkerError
        cases hf : body.fatal <;> simp [Agrees, delivery, hp, hf, ho, hi, hinv]
    · -- another id: the caller is failed and the session ends
      cases body <;> simp [Agrees, delivery, hp, WorkerError.invalidatesWorker, hi, hid]

/-- **The two decisions agree on a line just if it is classified.** -/
theorem agrees_iff (hr : sh.ready.isPending = false) {id : String} {key : Nat}
    (hi : p.inflight = some (id, key)) (ho : p.outcome = none) (text : String) :
    (p.onWaitFrame cx sh (.ok (.line text))).Agrees ↔ p.classified cx text = true := by
  unfold onWaitFrame
  cases hv : cx.host.fromStr text with
  | error err =>
    have hc : p.classified cx text = true := by simp [classified, hv]
    simp only [hv, hc, iff_true]
    apply agrees_failInflight (p := p.saw text .ended) hi
    rfl
  | ok value =>
    simp only [hv, hr, Bool.false_and, hi, Bool.false_eq_true, if_false]
    exact agrees_onReply key ho hi text hv

/-- The answer in hand agrees with the fate of the session, and unless it gives the worker up
    or refuses for a shutdown the session goes on. -/
def Fair (p : Sup) : Prop :=
  ∀ answer, p.delivery = some answer →
    ((∃ reason, p.outcome = some (.restart reason)) ↔ GivesUp answer) ∧
    (p.outcome = none ∨ GivesUp answer ∨ answer = .error .shuttingDown)

/-- What the request in flight is failed with agrees with the fate of the session. -/
theorem fair_failInflight {err : WorkerError} (he : err.invalidatesWorker = true)
    (reason : String) : (p.failInflight err reason).Fair := by
  unfold failInflight
  split <;> simp [Fair, delivery, he]

/-- Settling a failed handshake delivers no answer. -/
theorem delivery_settleRestart (err : StartError) (reason : String) :
    (p.settleRestart sh err reason).delivery = none := by
  unfold settleRestart
  split <;> simp [delivery]

/-- A frame read between requests delivers no answer. -/
theorem delivery_onIdleFrame (frame : Except String Frame) :
    (p.onIdleFrame cx sh frame).delivery = none := by
  unfold onIdleFrame
  repeat' split
  all_goals first
    | exact delivery_settleRestart _ _
    | simp [delivery]

/-- What a frame delivers to the request in flight agrees with the fate of the session. -/
theorem fair_onWaitFrame (hr : sh.ready.isPending = false) {id : String} {key : Nat}
    (hi : p.inflight = some (id, key)) (ho : p.outcome = none) {frame : Except String Frame}
    (hg : ∀ text, frame = .ok (.line text) → p.classified cx text = true) :
    (p.onWaitFrame cx sh frame).Fair := by
  have hout := @onWaitFrame_outcome cx sh p ho frame
  match frame with
  | .ok (.line text) =>
    obtain ⟨answer, hd, hagree⟩ := (agrees_iff hr hi ho text).mpr (hg text rfl)
    intro answer' hd'
    obtain rfl := Option.some.inj (hd.symm.trans hd')
    exact ⟨hagree, hout.imp_right fun h => Or.inl (hagree.mp h)⟩
  | .ok .eof => exact fair_failInflight rfl _
  | .ok (.oversized bytes) => exact fair_failInflight rfl _
  | .error err => exact fair_failInflight rfl _

/-- An answer is fair when every reply line is classified. -/
theorem step_fair (hp : p.Fair) (hc : p.Coherent) (hr : p.pc = .wait → sh.ready.isPending = false)
    (hg : ∀ source p₁ text, ev = .read source → p.pc = .wait →
      p.read cx source = some (p₁, some (.ok (.line text))) → p.classified cx text = true)
    (h : p.step cx sh ev = some (p', eff)) : p'.Fair := by
  revert h
  fun_cases Sup.step cx sh p ev
  all_goals intro h
  all_goals simp only [Option.some.injEq, Prod.mk.injEq, reduceCtorEq] at h
  all_goals obtain ⟨rfl, rfl⟩ := h
  all_goals try (simp [Fair, delivery, WorkerError.invalidatesWorker]; done)
  all_goals try (simp [Fair, delivery_settleRestart]; done)
  all_goals try exact fair_failInflight rfl _
  all_goals try
    rename Option String => reason
    cases reason <;> simp [Fair, delivery, afterReap]
  -- a read
  all_goals
    rename p.read cx _ = some _ => hread
    obtain ⟨buf, avail, rfl⟩ := read_eq hread
  · exact hp
  · simp [Fair, delivery_onIdleFrame]
  · exact hp
  · rename p.pc = _ => hpc
    simp only [Coherent, hpc] at hc
    obtain ⟨⟨id, key⟩, hi⟩ := Option.isSome_iff_exists.mp hc.2.1
    refine fair_onWaitFrame (p := { p with buf, avail }) (hr hpc) hi hc.1 ?_
    rintro text rfl
    exact hg _ _ text rfl hpc hread

/-! ### The state while the session serves -/

/-- The points from the handshake to the end of the session. -/
def serving (pending : Bool) (p : Sup) : Bool :=
  match p.pc with
  | .readyInfo _ | .readySettle _ | .writing .. | .wait | .pollState | .answer _ _ none => true
  | .loopHead | .loopState | .idle | .dequeued _ => !pending
  | _ => false

/-- A session that is left serves no more. -/
theorem serving_of_leaving {pending : Bool} (h : p.pc.leaving = true) :
    p.serving pending = false := by
  unfold serving
  split <;> simp_all [Pc.leaving]

/-- The session begins to serve with the state `Ready`, and leaves the state alone. -/
theorem step_serving (hp : p.Staged sh.ready.isPending)
    (hdeq : ∀ job, p.pc = .dequeued job → sh.ready.isPending = true → sh.state = .shuttingDown)
    (h : p.step cx sh ev = some (p', eff))
    (hs : p'.serving (sh.apply eff).ready.isPending = true) :
    (sh.apply eff).state = .ready ∨
      (p.serving sh.ready.isPending = true ∧ (sh.apply eff).state = sh.state) := by
  revert h
  fun_cases Sup.step cx sh p ev
  all_goals intro h
  all_goals simp only [Option.some.injEq, Prod.mk.injEq, reduceCtorEq] at h
  all_goals obtain ⟨rfl, rfl⟩ := h
  all_goals try (simp_all [serving, Shared.apply, Staged]; done)
  all_goals try
    rw [serving_of_leaving (by simp)] at hs
    cases hs
  -- a read
  all_goals
    rename p.read cx _ = some _ => hread
    obtain ⟨buf, avail, rfl⟩ := read_eq hread
  · exact Or.inr ⟨hs, rfl⟩
  · rcases @onIdleFrame_pc cx sh { p with buf, avail } _ with hl | ⟨info, hi⟩
    · rw [serving_of_leaving hl] at hs
      cases hs
    · simp [serving, hi] at hs

/-- After an answer on which the session goes on comes the loop head. -/
theorem step_answer {key : Nat} {answer : Answer} (hpc : p.pc = .answer key answer none)
    (h : p.step cx sh ev = some (p', eff)) : p' = { p with pc := .loopHead } := by
  revert h
  fun_cases Sup.step cx sh p ev
  all_goals intro h
  all_goals simp only [Option.some.injEq, Prod.mk.injEq, reduceCtorEq] at h
  all_goals obtain ⟨rfl, rfl⟩ := h
  all_goals simp_all [killable]

end Sup

namespace Sys

variable {cx : Ctx} {s t : Sys} {l : Label}

/-- A step that reads the reply to a request finds it classified. -/
def classified (cx : Ctx) (s : Sys) : Label → Bool
  | .sup (.read source) =>
    match s.sup.pc, s.sup.read cx source with
    | .wait, some (_, some (.ok (.line text))) => s.sup.classified cx text
    | _, _ => true
  | _ => true

/-- While the session serves the state is `Ready`, unless a call has written it. -/
def ServesReady (s : Sys) : Prop :=
  s.sup.serving s.sh.ready.isPending = true → s.sh.state = .ready ∨ s.Overwritten

/-- In every reachable state a session that serves has published `Ready`, unless a call wrote over
    it. -/
theorem ServesReady.reachable (h : (handle cx).Reachable s) : s.ServesReady := by
  refine Machine.Reachable.induct ?_ ?_ h
  · intro hs
    simp [handle, Sys.init, Sup.init, Sup.serving] at hs
  · intro s l t hr hs hstep
    have hh := Handshake.reachable hr
    rcases step_cases hstep with
      ⟨ev, p, eff, -, hp, rfl⟩ | ⟨key, ev, c, eff, -, hc, rfl⟩ | ⟨d, -, rfl⟩ | ⟨status, -, rfl⟩
    · intro hserve
      rcases Sup.step_serving hh.staged hh.dequeued hp hserve with hready | ⟨hold, hstate⟩
      · exact Or.inl hready
      · exact (hs hold).imp hstate.trans (Or.imp hstate.trans
          (Exists.imp fun k => Exists.imp fun reason => Exists.imp fun stage =>
            And.imp_right hstate.trans))
    · intro hserve
      have hm := Call.step_moved hc
      rw [pending_of_call hm.does] at hserve
      by_cases he : ∃ state, eff = .setState state
      · exact Or.inr (overwritten_of_call hc (Or.inl he))
      · exact (hs hserve).imp (Shared.state_apply (by simpa using he)).trans
          fun hold => overwritten_of_call hc (Or.inr hold)
    · exact hs
    · exact hs

/-- The answer in hand, and what was answered so far, agree with the fate of the session. -/
structure Judged (s : Sys) : Prop where
  fair : s.sup.Fair
  lost : ∀ k err, (s.sh.replies k).slot = .sent (.error err) → err.invalidatesWorker = true →
    ∃ reason, s.sup.outcome = some (.restart reason)

/-- The supervisor delivers answers that agree with the fate of its session. -/
theorem Judged.sup (hj : s.Judged) (hh : s.Handshake) {ev : SupEv} {p : Sup} {eff : Eff}
    (hg : s.classified cx (.sup ev) = true) (hp : s.sup.step cx s.sh ev = some (p, eff)) :
    Judged { s with sup := p, sh := s.sh.apply eff } := by
  refine ⟨?_, fun k err hk hinv => ?_⟩
  · refine Sup.step_fair hj.fair hh.coherent ?_ ?_ hp
    · intro hpc
      have hst := hh.staged
      simp only [Sup.Staged, hpc] at hst
      exact hst.1
    · rintro source p₁ text rfl hpc hr
      simpa [classified, hpc, hr] using hg
  · -- the session that sends such an answer has decided on a restart
    have hold : ∃ reason, s.sup.outcome = some (.restart reason) := by
      rcases Shared.slot_apply_eq_sent hk with hk | rfl
      · exact hj.lost k err hk hinv
      · rcases Sup.step_does hp with ⟨next, hpc⟩ | ⟨detail, hpc, -⟩
        · exact (hj.fair (.error err) (by simp [Sup.delivery, hpc])).1.mpr
            ((Sup.givesUp_error err).mpr hinv)
        · have hc := hh.coherent
          simp only [Sup.Coherent, hpc] at hc
          exact hc.1
    obtain ⟨reason, ho⟩ := hold
    exact ⟨reason, (Sup.step_settled hh.coherent ho hp).1⟩

/-- In every run under the guard, what was answered agrees with the fate of the session. -/
theorem Judged.reachable (h : ((handle cx).restrict (classified cx)).Reachable s) : s.Judged := by
  refine Machine.invariant_of_restrict ?_ ?_ h
  · refine ⟨?_, fun k err hk => ?_⟩
    · simp [handle, Sys.init, Sup.init, Sup.Fair, Sup.delivery]
    · simp [handle, Sys.init] at hk
  · intro s l t hr hj hg hstep
    rcases step_cases hstep with
      ⟨ev, p, eff, rfl, hp, rfl⟩ | ⟨key, ev, c, eff, -, hc, rfl⟩ | ⟨d, -, rfl⟩ | ⟨status, -, rfl⟩
    · exact hj.sup (Handshake.reachable hr) hg hp
    · refine ⟨hj.fair, fun k err hk => ?_⟩
      exact hj.lost k err (by rwa [slot_of_call (Call.step_moved hc).does] at hk)
    · exact ⟨hj.fair, hj.lost⟩
    · exact ⟨hj.fair, hj.lost⟩

/-- A result or a rejection that goes out leaves the worker to the next request. -/
theorem Judged.goes_on (hj : s.Judged) (hh : s.Handshake) (hs : s.ServesReady) {ev : SupEv}
    {p : Sup} {key : Nat} {answer : Answer}
    (hp : s.sup.step cx s.sh ev = some (p, .reply key answer))
    (ha : (∃ v, answer = .ok v) ∨ ∃ message, answer = .error (.invalidRequest message)) :
    p.pc = .loopHead ∧ p.outcome = none ∧ p.inflight = none ∧
      (s.sh.state = .ready ∨ s.Overwritten) := by
  rcases Sup.step_does hp with ⟨next, hpc⟩ | ⟨detail, -, rfl⟩
  · have hc := hh.coherent
    simp only [Sup.Coherent, hpc] at hc
    have ho : s.sup.outcome = none := by
      rcases (hj.fair answer (by simp [Sup.delivery, hpc])).2 with ho | hlost | rfl
      · exact ho
      · rcases ha with ⟨v, rfl⟩ | ⟨message, rfl⟩ <;>
          simp [WorkerError.invalidatesWorker] at hlost
      · simp at ha
    obtain rfl : none = next := ho.symm.trans hc.1
    obtain rfl := Sup.step_answer hpc hp
    exact ⟨rfl, ho, hc.2.1, hs (by simp [Sup.serving, hpc])⟩
  · simp at ha

/-- **The error agrees with the worker's fate.**  On a line that is read for the request in
    flight, the session ends in a restart just if the error it delivers gives the worker up,
    exactly when the line is `classified`.  So in every run in which all reply lines are
    classified: once a caller was told that the worker is lost, no request is sent to it any
    more; and a result or a rejection leaves the session at its loop head with nothing in
    flight, and the state `Ready` unless a call has written it. -/
theorem error_agrees_with_fate :
    (∀ s, (handle cx).Reachable s → s.sup.pc = .wait → ∀ text,
      (s.sup.onWaitFrame cx s.sh (.ok (.line text))).Agrees ↔
        s.sup.classified cx text = true) ∧
    (∀ s, ((handle cx).restrict (classified cx)).Reachable s →
      (∀ k err, (s.calls k).answered = some (.error err) → err.invalidatesWorker = true →
        ∀ t, (handle cx).Runs s t →
          (∃ reason, t.sup.outcome = some (.restart reason)) ∧ t.sup.frames = s.sup.frames) ∧
      (∀ ev p key answer, s.sup.step cx s.sh ev = some (p, .reply key answer) →
        ((∃ v, answer = .ok v) ∨ ∃ message, answer = .error (.invalidRequest message)) →
        p.pc = .loopHead ∧ p.outcome = none ∧ p.inflight = none ∧
          (s.sh.state = .ready ∨ s.Overwritten))) := by
  refine ⟨fun s h hpc text => ?_, fun s h => ⟨fun k err hk hinv t hr => ?_, ?_⟩⟩
  · have hh := Handshake.reachable h
    have hst := hh.staged
    have hc := hh.coherent
    simp only [Sup.Staged, hpc] at hst
    simp only [Sup.Coherent, hpc] at hc
    obtain ⟨⟨id, key⟩, hi⟩ := Option.isSome_iff_exists.mp hc.2.1
    exact Sup.agrees_iff hst.1 hi hc.1 text
  · -- the error was sent by the session, which had then failed, and stays failed
    have hslot := ((Served.reachable h.of_restrict).answered k _ hk).resolve_right
      (by simp [hinv])
    obtain ⟨reason, ho⟩ := (Judged.reachable h).lost k err hslot hinv
    have hf := Frozen.runs h.of_restrict ho hr
    exact ⟨⟨reason, hf.outcome⟩, hf.frames⟩
  · intro ev p key answer hp ha
    exact (Judged.reachable h).goes_on (Handshake.reachable h.of_restrict)
      (ServesReady.reachable h.of_restrict) hp ha

open Replay in
/-- The result at a run: with request `1` in flight, a failure without the `fatal` flag is a
    line on which the two disagree. -/
theorem error_agrees_with_fate_unflagged :
    ∃ s, (handle demo).Reachable s ∧ s.sup.pc = .wait ∧
      ∃ text ∈ lines.map Prod.fst, ¬ (s.sup.onWaitFrame demo s.sh (.ok (.line text))).Agrees := by
  have hrun : ((handle demo).exec (handle demo).init (ready ++ predict 1 ++ dispatch)).map
      (fun s => match s.sup.pc with
        | .wait => (lines.map Prod.fst).all (s.sup.classified demo)
        | _ => true) = some false := by decide +kernel
  obtain ⟨s, hs, hv⟩ := Machine.reachable_of_exec hrun
  split at hv
  · rename_i hpc
    obtain ⟨text, hmem, hno⟩ := List.all_eq_false.mp hv
    exact ⟨s, hs, hpc, text, hmem,
      fun h => hno ((error_agrees_with_fate.1 s hs hpc text).mp h)⟩
  · cases hv

open Replay in
/-- The worker rejects request `1` with the code of a lost worker but without the `fatal`
    flag: the caller is told that the worker failed, and request `2` is sent to the same
    worker. -/
theorem nonfatal_failure_keeps_worker :
    ∃ s t, (handle demo).Reachable s ∧ (handle demo).Runs s t ∧
      (s.calls 1).answered = some (.error (.workerFailed "boom")) ∧
      t.sup.outcome = none ∧ t.sup.frames.map (fun f => f.job.reply) = [1, 2] ∧
      t.sh.spawned = [7] := by
  have hrun : ((handle demo).exec (handle demo).init
      (ready ++ predict 1 ++ dispatch ++ [emits 2] ++ go 1 ++ [.call 1 .go])).bind (fun s =>
        ((handle demo).exec s (go 2 ++ predict 2 ++ dispatch)).map (fun t =>
          decide ((s.calls 1).failure = some (.workerFailed "boom") ∧ t.sup.outcome = none ∧
            t.sup.frames.map (fun f => f.job.reply) = [1, 2] ∧ t.sh.spawned = [7]))) =
      some true := by decide +kernel
  obtain ⟨s, t, hs, ht, hv⟩ := Machine.runs_of_exec_exec hrun
  obtain ⟨hfail, ho, hf, hsp⟩ := of_decide_eq_true hv
  exact ⟨s, t, hs, ht, Call.failure_eq_some.mp hfail, ho, hf, hsp⟩

end Sys

end Layad
