import Layad.Worker.Handle

namespace Layad

open Channel Transition

/-!
# What one step of the supervisor can do

The facts about `Sup.step` that the results on whole runs rest on, each read off the
definition once:

* `Coherent` — the program point agrees with the decided outcome and with the request in
  flight; every step keeps it (`Coherent.step`);
* `step_does` — from which points each operation on the shared state is done;
* `step_frames` — a predict frame is begun at one point only;
* `step_lines` — what a complete line is filed as, and where that leads;
* `step_settled` — once an outcome is decided nothing is read, written or taken up again.
-/

/-- The points past the session's decision, up to the end of `supervise`. -/
def Pc.leaving : Pc → Bool
  | .answer _ _ next => next.isSome
  | .settleReturn .. | .returned _ | .publish _ | .startKill | .stopSettle | .terminate _
  | .reaping .. | .escalate _ | .reapingKilled .. | .stopPid | .stopInfo | .failSettle _
  | .mark .. | .drain _ | .drainReply .. => true
  | _ => false

/-- The points at the end of the task. -/
def Pc.ending : Pc → Bool
  | .closing | .notify | .finished => true
  | _ => false

/-- The points that a frame, or the want of one, leads to. -/
def Pc.decided : Pc → Bool
  | .readyState _ | .answer .. | .settleReturn .. | .returned _ => true
  | _ => false

/-- What the caller is answered for the body of its reply. -/
def Reply.answer : Reply → Answer
  | .ok result => .ok result
  | .err body => .error body.toWorkerError

/-- What the session decides on the body of a reply. -/
def Reply.next : Reply → Option Outcome
  | .ok _ => none
  | .err body => if body.fatal then some (.restart "worker reported a fatal error") else none

namespace Sup

variable {cx : Ctx} {sh : Shared} {p p' : Sup} {ev : SupEv} {eff : Eff}

/-! ### Reads -/

/-- A turn of a read touches the two buffers only. -/
theorem read_eq {source : Source} {r : Option (Except String Frame)}
    (h : p.read cx source = some (p', r)) : ∃ buf avail, p' = { p with buf, avail } := by
  unfold read turn at h
  split at h
  · split at h
    · cases h
    · obtain ⟨rfl, -⟩ := Prod.mk.inj (Option.some.inj h)
      exact ⟨_, _, rfl⟩
  · split at h
    · split at h
      all_goals
        obtain ⟨rfl, -⟩ := Prod.mk.inj (Option.some.inj h)
        exact ⟨_, _, rfl⟩
    · cases h

/-! ### The program point and the variables -/

/-- The program point agrees with the outcome and with the request in flight. -/
def Coherent (p : Sup) : Prop :=
  match p.pc with
  | .loopHead | .loopState | .readyState _ | .readyInfo _ | .readySettle _ =>
    p.outcome = none ∧ (p.inflight.isSome → p.inferenceDeadline.isSome)
  | .writing .. => p.outcome = none ∧ p.inflight = none ∧ p.inferenceDeadline.isSome
  | .wait | .pollState => p.outcome = none ∧ p.inflight.isSome ∧ p.inferenceDeadline.isSome
  | .settleReturn _ o | .returned o => p.outcome = some o
  | .answer _ a next => p.outcome = next ∧ p.inflight = none ∧ ((∃ v, a = .ok v) → next = none)
  | .publish o => p.outcome = some o ∧ p.inflight = none
  | .startKill => p.outcome = some .kill ∧ p.inflight = none
  | .stopSettle | .stopPid | .stopInfo =>
    (∃ o, p.outcome = some o ∧ o.reason = none) ∧ p.inflight = none
  | .terminate r | .reaping r _ | .escalate r | .reapingKilled r _ =>
    (∃ o, p.outcome = some o ∧ o.reason = r) ∧ p.inflight = none
  | .failSettle _ | .mark _ _ | .drain _ | .drainReply _ _ =>
    (∃ r, p.outcome = some (.restart r)) ∧ p.inflight = none
  | .closing | .notify | .finished => p.inflight = none
  | _ => p.outcome = none ∧ p.inflight = none

/-- The supervisor starts coherent. -/
theorem Coherent.init : Sup.init.Coherent := ⟨rfl, rfl⟩

/-- A session without a reason to restart from was stopped. -/
theorem Coherent.afterReap {reason : Option String}
    (hp : (∃ o, p.outcome = some o ∧ o.reason = reason) ∧ p.inflight = none)
    (result : Except String String) : Coherent { p with pc := Sup.afterReap reason result } := by
  obtain ⟨⟨o, ho, rfl⟩, hi⟩ := hp
  cases o <;> simp [Coherent, Sup.afterReap, Outcome.reason, ho, hi]

/-- Failing the handshake is coherent. -/
theorem Coherent.settleRestart (err : StartError) (reason : String) :
    (p.settleRestart sh err reason).Coherent := by
  unfold Sup.settleRestart
  split <;> simp [Coherent]

/-- Failing the request in flight is coherent. -/
theorem Coherent.failInflight (err : WorkerError) (reason : String) :
    (p.failInflight err reason).Coherent := by
  unfold Sup.failInflight
  split <;> simp [Coherent]

/-- What a frame between requests leads to is coherent. -/
theorem Coherent.onIdleFrame (ho : p.outcome = none) (hi : p.inflight = none)
    (frame : Except String Frame) : (p.onIdleFrame cx sh frame).Coherent := by
  unfold Sup.onIdleFrame
  repeat' split
  all_goals first
    | exact Coherent.settleRestart _ _
    | simp [Coherent, ho, hi]

/-- What a reply leads to is coherent. -/
theorem Coherent.onReply (ho : p.outcome = none) (text expected : String) (value : Json)
    (key : Nat) : (p.onReply cx text value expected key).Coherent := by
  unfold Sup.onReply
  dsimp only
  repeat' split
  all_goals simp [Coherent, ho]

/-- What a frame for the request in flight leads to is coherent. -/
theorem Coherent.onWaitFrame (ho : p.outcome = none) (hd : p.inferenceDeadline.isSome)
    (frame : Except String Frame) : (p.onWaitFrame cx sh frame).Coherent := by
  unfold Sup.onWaitFrame
  repeat' split
  all_goals first
    | exact Coherent.failInflight _ _
    | exact Coherent.onReply ho _ _ _ _
    | simp [Coherent, ho, hd]

/-- **Every step of the supervisor keeps its variables coherent.** -/
theorem Coherent.step (hp : p.Coherent) (h : p.step cx sh ev = some (p', eff)) :
    p'.Coherent := by
  revert h
  fun_cases Sup.step cx sh p ev
  all_goals intro h
  all_goals simp only [Option.some.injEq, Prod.mk.injEq, reduceCtorEq] at h
  all_goals obtain ⟨rfl, rfl⟩ := h
  all_goals try (simp_all [Coherent, Option.isSome_iff_ne_none]; done)
  all_goals try exact Coherent.settleRestart _ _
  all_goals try exact Coherent.failInflight _ _
  -- the end of `shutdown_child`, where a stop and a restart part
  all_goals try exact Coherent.afterReap (by simpa [Coherent, *] using hp) _
  -- a read, which leaves the two buffers behind
  all_goals
    rename p.read cx _ = some _ => hr
    obtain ⟨buf, avail, rfl⟩ := read_eq hr
    first
      | (simp_all [Coherent]; done)
      | exact Coherent.onIdleFrame (by simp_all [Coherent]) (by simp_all [Coherent]) _
      | exact Coherent.onWaitFrame (by simp_all [Coherent]) (by simp_all [Coherent]) _

/-- A session that is left has its outcome. -/
theorem Coherent.outcome_of_leaving (hc : p.Coherent) (h : p.pc.leaving = true) :
    p.outcome.isSome := by
  unfold Coherent at hc
  rw [Option.isSome_iff_exists]
  split at hc <;> simp_all [Pc.leaving, Option.isSome_iff_exists]
  all_goals first
    | (obtain ⟨⟨o, ho, -⟩, -⟩ := hc; exact ⟨o, ho⟩)
    | (obtain ⟨⟨r, hr⟩, -⟩ := hc; exact ⟨_, hr⟩)

/-- A session without an outcome is not left yet. -/
theorem Coherent.not_leaving (hc : p.Coherent) (h : p.outcome = none) : p.pc.leaving = false := by
  by_contra hne
  have := hc.outcome_of_leaving (by simpa using hne)
  simp [h] at this

/-- A session with its outcome is being left, or the task ends. -/
theorem Coherent.leaving_of_outcome (hc : p.Coherent) (h : p.outcome.isSome) :
    p.pc.leaving = true ∨ p.pc.ending = true := by
  unfold Coherent at hc
  split at hc <;> simp_all [Pc.leaving, Pc.ending]

/-- A failed handshake leaves the session. -/
@[simp] theorem leaving_settleRestart (err : StartError) (reason : String) :
    (p.settleRestart sh err reason).pc.leaving = true := by
  unfold settleRestart
  split <;> rfl

/-- Failing the request in flight leaves the session. -/
@[simp] theorem leaving_failInflight (err : WorkerError) (reason : String) :
    (p.failInflight err reason).pc.leaving = true := by
  unfold failInflight
  split <;> rfl

/-- What follows the reaping belongs to the way out. -/
@[simp] theorem leaving_afterReap (reason : Option String) (result : Except String String) :
    (afterReap reason result).leaving = true := by
  cases reason <;> rfl

/-- A failed handshake leads to one of the points after a frame. -/
@[simp] theorem decided_settleRestart (err : StartError) (reason : String) :
    (p.settleRestart sh err reason).pc.decided = true := by
  unfold settleRestart
  split <;> rfl

/-- Failing the request in flight leads to one of the points after a frame. -/
@[simp] theorem decided_failInflight (err : WorkerError) (reason : String) :
    (p.failInflight err reason).pc.decided = true := by
  unfold failInflight
  split <;> rfl

/-- A frame between requests leads to one of the points after a frame. -/
@[simp] theorem decided_onIdleFrame (frame : Except String Frame) :
    (p.onIdleFrame cx sh frame).pc.decided = true := by
  unfold onIdleFrame
  repeat' split
  all_goals first | rfl | simp

/-- A frame for the request in flight leads to one of the points after a frame. -/
@[simp] theorem decided_onWaitFrame (frame : Except String Frame) :
    (p.onWaitFrame cx sh frame).pc.decided = true := by
  unfold onWaitFrame onReply
  dsimp only
  repeat' split
  all_goals first | rfl | simp

/-- A frame while idle ends the session, or is the ready frame. -/
theorem onIdleFrame_pc (frame : Except String Frame) :
    (p.onIdleFrame cx sh frame).pc.leaving = true ∨
      ∃ info, (p.onIdleFrame cx sh frame).pc = .readyState info := by
  unfold onIdleFrame
  repeat' split
  all_goals first
    | exact Or.inl (leaving_settleRestart _ _)
    | exact Or.inl rfl
    | exact Or.inr ⟨_, rfl⟩

/-- A frame that was waited for ends the session, or is answered, or is the ready frame. -/
theorem onWaitFrame_pc (frame : Except String Frame) :
    (p.onWaitFrame cx sh frame).pc.leaving = true ∨
      (∃ key answer, (p.onWaitFrame cx sh frame).pc = .answer key answer none) ∨
      ∃ info, (p.onWaitFrame cx sh frame).pc = .readyState info := by
  unfold onWaitFrame onReply
  dsimp only
  repeat' split
  all_goals first
    | exact Or.inl (leaving_failInflight _ _)
    | exact Or.inl rfl
    | exact Or.inr (Or.inl ⟨_, _, rfl⟩)
    | exact Or.inr (Or.inr ⟨_, rfl⟩)

/-- The forced stop comes too late once an outcome is decided. -/
theorem Coherent.not_killable (hc : p.Coherent) (h : p.outcome.isSome) :
    killable p.pc = false := by
  rcases hc.leaving_of_outcome h with hl | hl
  all_goals cases hpc : p.pc <;> simp_all [Pc.leaving, Pc.ending, killable]

/-! ### The operations on the shared state -/

/-- The points from which the supervisor does an operation, and with what operands. -/
def Does (sh : Shared) (p : Sup) : Eff → Prop
  | .skip | .sendFatal _ | .reap => True
  | .setState state =>
    (∃ info, p.pc = .readyState info ∧ state = .ready) ∨
    (∃ err, p.pc = .spawnFailed err ∧
      state = .failed (StartError.failed err).intoWorkerError.message) ∨
    (∃ reason, p.pc = .publish (.restart reason) ∧ sh.state.isClosed = false ∧
      state = .failed reason) ∨
    (∃ detail, p.pc = .mark detail .state ∧ sh.state ≠ .shuttingDown ∧ state = .failed detail)
  | .setInfo info =>
    (∃ i, p.pc = .readyInfo i ∧ info = some i) ∨
    (info = none ∧ (p.pc = .stopInfo ∨ ∃ detail, p.pc = .mark detail .info))
  | .setPid pid =>
    (∃ i, p.pc = .publishPid i ∧ pid = some i) ∨
    (pid = none ∧ (p.pc = .stopPid ∨ ∃ detail, p.pc = .mark detail .pid))
  | .recv => sh.jobs.buffer ≠ [] ∧ (p.pc = .idle ∨ ∃ detail, p.pc = .drain detail)
  | .dropReceiver => p.pc = .closing
  | .reply key answer =>
    (∃ next, p.pc = .answer key answer next) ∨
    (∃ detail, p.pc = .drainReply key detail ∧ answer = .error (.workerFailed detail))
  | .abandon key => ∃ outcome id, p.pc = .returned outcome ∧ p.inflight = some (id, key)
  | .settle result =>
    (∃ info, p.pc = .readySettle info ∧ result = .ok info) ∨
    (∃ err, result = .error err ∧ (p.pc.leaving = true ∨ ∃ e, p.pc = .spawnSettle e))
  | .notifyDone => p.pc = .notify
  | .kill held => killable p.pc ∧ held = p.held
  | .spawn _ => p.pc = .spawning
  | .signal _ => p.pc.leaving = true
  | .write bytes => ∃ id key out, p.pc = .writing id key out ∧ bytes <+: out
  | .push _ | .closeReply _ | .closeReady | .acquire | .release | .notifyForceStop | .takeDone =>
    False

/-- The operations of the supervisor. -/
theorem step_does (h : p.step cx sh ev = some (p', eff)) : p.Does sh eff := by
  revert h
  fun_cases Sup.step cx sh p ev
  all_goals intro h
  all_goals simp only [Option.some.injEq, Prod.mk.injEq, reduceCtorEq] at h
  all_goals obtain ⟨rfl, rfl⟩ := h
  all_goals try (simp_all [Does, Pc.leaving, List.take_prefix]; done)
  -- the operations that depend on the state found
  all_goals split <;> simp_all [Does, Pc.leaving]

/-! ### Predict frames -/

/-- Failing the handshake begins no frame. -/
@[simp] theorem settleRestart_frames (err : StartError) (reason : String) :
    (p.settleRestart sh err reason).frames = p.frames ∧
      (p.settleRestart sh err reason).nextId = p.nextId := by
  unfold settleRestart
  split <;> simp

/-- Failing the request in flight begins no frame. -/
@[simp] theorem failInflight_frames (err : WorkerError) (reason : String) :
    (p.failInflight err reason).frames = p.frames ∧
      (p.failInflight err reason).nextId = p.nextId := by
  unfold failInflight
  split <;> simp

/-- A frame read between requests begins none. -/
@[simp] theorem onIdleFrame_frames (frame : Except String Frame) :
    (p.onIdleFrame cx sh frame).frames = p.frames ∧
      (p.onIdleFrame cx sh frame).nextId = p.nextId := by
  unfold onIdleFrame
  repeat' split
  all_goals simp

/-- A reply begins no frame. -/
@[simp] theorem onReply_frames (text expected : String) (value : Json) (key : Nat) :
    (p.onReply cx text value expected key).frames = p.frames ∧
      (p.onReply cx text value expected key).nextId = p.nextId := by
  unfold onReply
  dsimp only
  repeat' split
  all_goals simp

/-- A frame read for the request in flight begins none. -/
@[simp] theorem onWaitFrame_frames (frame : Except String Frame) :
    (p.onWaitFrame cx sh frame).frames = p.frames ∧
      (p.onWaitFrame cx sh frame).nextId = p.nextId := by
  unfold onWaitFrame
  repeat' split
  all_goals simp

/-- A predict frame is begun for a dequeued job only, and not once the daemon shuts down. -/
theorem step_frames (h : p.step cx sh ev = some (p', eff)) :
    (p'.frames = p.frames ∧ p'.nextId = p.nextId) ∨
    (∃ job, p.pc = .dequeued job ∧ sh.state ≠ .shuttingDown ∧ p' = p.dispatch cx sh job ∧
      eff = .skip ∧ ev = .go) := by
  revert h
  fun_cases Sup.step cx sh p ev
  all_goals intro h
  all_goals simp only [Option.some.injEq, Prod.mk.injEq, reduceCtorEq] at h
  all_goals obtain ⟨rfl, rfl⟩ := h
  all_goals try (simp; done)
  all_goals try
    rename p.read cx _ = some _ => hr
    obtain ⟨buf, avail, rfl⟩ := read_eq hr
    simp
  exact Or.inr ⟨_, ‹_›, ‹_›, rfl, rfl, rfl⟩

/-! ### Complete lines -/

/-- What a line is filed as, and where that leads. -/
def Filed (cx : Ctx) (sh : Shared) (p p' : Sup) (text : String) : Fate → Prop
  | .ready info =>
    (∃ value, cx.host.fromStr text = .ok value ∧ parseReady value = .ok info) ∧
      sh.ready.isPending = true ∧ p'.pc = .readyState info ∧ p'.outcome = p.outcome ∧
      p'.inflight = p.inflight
  | .reply id body =>
    ∃ value key, cx.host.fromStr text = .ok value ∧ parseReply cx.host value = .ok ⟨id, body⟩ ∧
      p.inflight = some (id, key) ∧ p'.inflight = none ∧
      p'.pc = .answer key body.answer body.next ∧ (body.next = none → p'.outcome = p.outcome)
  | .ended => (∃ reason, p'.outcome = some (.restart reason)) ∧
      (p'.inflight = p.inflight ∨ p'.inflight = none)

/-- Failing the handshake files no line. -/
@[simp] theorem settleRestart_lines (err : StartError) (reason : String) :
    (p.settleRestart sh err reason).lines = p.lines := by
  unfold settleRestart
  split <;> simp

/-- Failing the request in flight files no line. -/
@[simp] theorem failInflight_lines (err : WorkerError) (reason : String) :
    (p.failInflight err reason).lines = p.lines := by
  unfold failInflight
  split <;> simp

/-- A failed handshake ends the session in a restart. -/
@[simp] theorem settleRestart_outcome (err : StartError) (reason : String) :
    (p.settleRestart sh err reason).outcome = some (.restart reason) := by
  unfold settleRestart
  split <;> simp

/-- Failing the request in flight ends the session in a restart. -/
@[simp] theorem failInflight_outcome (err : WorkerError) (reason : String) :
    (p.failInflight err reason).outcome = some (.restart reason) := by
  unfold failInflight
  split <;> simp

/-- Failing the request in flight leaves none. -/
@[simp] theorem failInflight_inflight (err : WorkerError) (reason : String) :
    (p.failInflight err reason).inflight = none := by
  unfold failInflight
  split <;> simp [*]

/-- A frame lets the session go on or ends it in a restart. -/
theorem onIdleFrame_outcome (ho : p.outcome = none) (frame : Except String Frame) :
    (p.onIdleFrame cx sh frame).outcome = none ∨
      ∃ reason, (p.onIdleFrame cx sh frame).outcome = some (.restart reason) := by
  unfold onIdleFrame
  repeat' split
  all_goals simp [ho]

/-- A frame for the request in flight decides on a restart, if on anything. -/
theorem onWaitFrame_outcome (ho : p.outcome = none) (frame : Except String Frame) :
    (p.onWaitFrame cx sh frame).outcome = none ∨
      ∃ reason, (p.onWaitFrame cx sh frame).outcome = some (.restart reason) := by
  unfold onWaitFrame onReply
  dsimp only
  repeat' split
  all_goals simp [ho]

/-- A complete line is filed; any other frame leaves the lines as they are. -/
def Files (cx : Ctx) (sh : Shared) (p p' : Sup) (frame : Except String Frame) : Prop :=
  (∃ text fate, frame = .ok (.line text) ∧ p'.lines = p.lines ++ [⟨text, fate⟩] ∧
    Filed cx sh p p' text fate) ∨
  ((∀ text, frame ≠ .ok (.line text)) ∧ p'.lines = p.lines)

/-- A frame read between requests is filed if it is a line. -/
theorem onIdleFrame_lines (frame : Except String Frame) :
    Files cx sh p (p.onIdleFrame cx sh frame) frame := by
  unfold onIdleFrame
  repeat' split
  all_goals try (right; refine ⟨?_, ?_⟩ <;> simp; done)
  all_goals
    refine Or.inl ⟨_, _, rfl, rfl, ?_⟩
    simp_all [Filed]

/-- A reply is filed with its fate. -/
theorem onReply_lines {text expected : String} {value : Json} {key : Nat}
    (hv : cx.host.fromStr text = .ok value) (hi : p.inflight = some (expected, key)) :
    ∃ fate, (p.onReply cx text value expected key).lines = p.lines ++ [⟨text, fate⟩] ∧
      Filed cx sh p (p.onReply cx text value expected key) text fate := by
  unfold onReply
  cases hp : parseReply cx.host value with
  | error err => exact ⟨.ended, rfl, ⟨_, rfl⟩, Or.inr rfl⟩
  | ok parsed =>
    obtain ⟨id, body⟩ := parsed
    dsimp only
    split
    · exact ⟨.ended, rfl, ⟨_, rfl⟩, Or.inr rfl⟩
    · rename_i hid
      obtain rfl : id = expected := by simpa using hid
      refine ⟨.reply id body, ?_, value, key, hv, hp, hi, ?_⟩
      all_goals cases body <;> simp [Reply.answer, Reply.next]
      all_goals split <;> simp_all

/-- A frame read for the request in flight is filed if it is a line. -/
theorem onWaitFrame_lines (frame : Except String Frame) :
    Files cx sh p (p.onWaitFrame cx sh frame) frame := by
  unfold onWaitFrame
  repeat' split
  all_goals try (right; refine ⟨?_, ?_⟩ <;> simp; done)
  all_goals left
  · refine ⟨_, .ended, rfl, failInflight_lines _ _, ?_⟩
    simp [Filed]
  · refine ⟨_, _, rfl, rfl, ?_⟩
    simp_all [Filed]
  · refine ⟨_, _, rfl, rfl, ?_⟩
    simp_all [Filed]
  · refine ⟨_, _, rfl, rfl, ?_⟩
    simp_all [Filed]
  · obtain ⟨fate, hl, hf⟩ := @onReply_lines cx sh p _ _ _ _ ‹_› ‹_›
    exact ⟨_, fate, rfl, hl, hf⟩

/-- A complete line is read in one of the two waits, and filed at once. -/
theorem step_lines (h : p.step cx sh ev = some (p', eff)) :
    p'.lines = p.lines ∨
    ∃ text fate, p'.lines = p.lines ++ [⟨text, fate⟩] ∧ Filed cx sh p p' text fate ∧
      eff = .skip ∧ (p.pc = .idle ∨ p.pc = .wait) := by
  revert h
  fun_cases Sup.step cx sh p ev
  all_goals intro h
  all_goals simp only [Option.some.injEq, Prod.mk.injEq, reduceCtorEq] at h
  all_goals obtain ⟨rfl, rfl⟩ := h
  all_goals try (left; simp)
  all_goals
    rename p.read cx _ = some _ => hr
    obtain ⟨buf, avail, rfl⟩ := read_eq hr
    try rename Except String Frame => frame
  · exact Or.inl rfl
  · rcases @onIdleFrame_lines cx sh { p with buf, avail } frame with
      ⟨text, fate, -, hl, hf⟩ | ⟨-, hl⟩
    · exact Or.inr ⟨text, fate, hl, hf, rfl, Or.inl ‹_›⟩
    · exact Or.inl hl
  · exact Or.inl rfl
  · rcases @onWaitFrame_lines cx sh { p with buf, avail } frame with
      ⟨text, fate, -, hl, hf⟩ | ⟨-, hl⟩
    · exact Or.inr ⟨text, fate, hl, hf, rfl, Or.inr ‹_›⟩
    · exact Or.inl hl

/-- The step of a read that yields a complete line files that line. -/
theorem step_line {source : Source} {text : String} {p₁ : Sup} (hpc : p.pc = .idle ∨ p.pc = .wait)
    (hr : p.read cx source = some (p₁, some (.ok (.line text)))) :
    ∃ p' fate, p.step cx sh (.read source) = some (p', .skip) ∧
      p'.lines = p.lines ++ [⟨text, fate⟩] ∧ Filed cx sh p p' text fate := by
  obtain ⟨buf, avail, rfl⟩ := read_eq hr
  rcases hpc with hpc | hpc
  · rcases @onIdleFrame_lines cx sh { p with buf, avail } (.ok (.line text)) with
      ⟨t, fate, ht, hl, hf⟩ | ⟨hne, -⟩
    · cases ht
      exact ⟨_, fate, step_idle_read hpc hr, hl, hf⟩
    · exact absurd rfl (hne text)
  · rcases @onWaitFrame_lines cx sh { p with buf, avail } (.ok (.line text)) with
      ⟨t, fate, ht, hl, hf⟩ | ⟨hne, -⟩
    · cases ht
      exact ⟨_, fate, step_wait_read hpc hr, hl, hf⟩
    · exact absurd rfl (hne text)

/-! ### After the decision -/

/-- **Past the decision** nothing is read, and no frame is begun. -/
theorem step_settled (hc : p.Coherent) {o : Outcome} (ho : p.outcome = some o)
    (h : p.step cx sh ev = some (p', eff)) :
    p'.outcome = some o ∧ p'.frames = p.frames ∧ p'.nextId = p.nextId ∧ p'.lines = p.lines ∧
      p'.buf = p.buf ∧ p'.avail = p.avail := by
  revert h
  fun_cases Sup.step cx sh p ev
  all_goals intro h
  all_goals simp only [Option.some.injEq, Prod.mk.injEq, reduceCtorEq] at h
  all_goals obtain ⟨rfl, rfl⟩ := h
  all_goals try (simp_all [Coherent]; done)
  -- the forced stop comes too late
  simp_all [hc.not_killable (by rw [ho]; rfl)]

end Sup

end Layad
