import Layad.Worker.FailClosed

namespace Layad

open Channel Transition

/-!
# What a finished supervisor leaves behind

When the task has finished, `pid` and `info` are cleared on every path.  The state is failed
or shutting down except after two exits that never look at it: a forced stop, and a
readiness future that was dropped (`Sys.finished_leaves_ready`).  When these two find the
state closed already, it is closed at the end and stays so (`Sys.closed_of_finished`).
-/

/-- The points at which no pid is published. -/
def Pc.noPid : Pc → Bool
  | .check | .spawning | .spawnFailed _ | .spawnSettle _ | .stopInfo | .mark _ .fatal | .drain _
  | .drainReply .. | .closing | .notify | .finished => true
  | _ => false

/-- The points at which no metadata is published. -/
def Pc.noInfo : Pc → Bool
  | .check | .spawning | .spawnFailed _ | .spawnSettle _ | .mark _ .pid | .mark _ .fatal | .drain _
  | .drainReply .. | .closing | .notify | .finished => true
  | _ => false

/-- The task has finished. -/
def Pc.isFinished : Pc → Bool
  | .finished => true
  | _ => false

/-- The test of the task's end. -/
theorem Pc.isFinished_iff {pc : Pc} : pc.isFinished = true ↔ pc = .finished := by
  cases pc <;> simp [isFinished]

/-- After a frame neither the pid nor the metadata is withdrawn yet. -/
theorem Pc.standing_of_decided {pc : Pc} (h : pc.decided = true) :
    pc.noPid = false ∧ pc.noInfo = false := by
  cases pc <;> simp_all [Pc.decided, Pc.noPid, Pc.noInfo]

namespace Sup

variable {cx : Ctx} {sh : Shared} {p p' : Sup} {ev : SupEv} {eff : Eff}

/-- What was published is withdrawn by the time the task ends. -/
theorem step_cleared (h : p.step cx sh ev = some (p', eff)) :
    (p'.pc.noPid = true → eff = .setPid none ∨ (p.pc.noPid = true ∧ ∀ pid, eff ≠ .setPid pid)) ∧
    (p'.pc.noInfo = true →
      eff = .setInfo none ∨ (p.pc.noInfo = true ∧ ∀ info, eff ≠ .setInfo info)) := by
  revert h
  fun_cases Sup.step cx sh p ev
  all_goals intro h
  all_goals simp only [Option.some.injEq, Prod.mk.injEq, reduceCtorEq] at h
  all_goals obtain ⟨rfl, rfl⟩ := h
  all_goals try (simp_all [Pc.noPid, Pc.noInfo]; done)
  all_goals try
    rename p.read cx _ = some _ => hr
    obtain ⟨buf, avail, rfl⟩ := read_eq hr
  all_goals try (simp; done)
  all_goals try (simp [Pc.standing_of_decided]; done)
  all_goals try
    rename Option String => reason
    cases reason <;> simp [Pc.noPid, Pc.noInfo, afterReap]

/-- The supervisor has given the worker up without a failed session: the session was
    stopped, or there was none. -/
def Resigned (p : Sup) : Prop :=
  match p.outcome with
  | some outcome => outcome.reason = none
  | none => p.pc.ending = true ∨ ∃ err, p.pc = .spawnSettle err

/-- A session that goes on after a frame, or fails on it, has not resigned. -/
theorem not_resigned_of_decided (hpc : p.pc.decided = true)
    (ho : p.outcome = none ∨ ∃ reason, p.outcome = some (.restart reason)) : ¬p.Resigned := by
  rcases ho with ho | ⟨reason, ho⟩
  · cases hp : p.pc <;> simp_all [Resigned, Pc.decided, Pc.ending]
  · simp [Resigned, ho]

/-- How the supervisor comes to give the worker up. -/
theorem step_resigned (hc : p.Coherent) (h : p.step cx sh ev = some (p', eff))
    (hp : p'.Resigned) :
    p.Resigned ∨ (∃ reason, eff = .setState (.failed reason)) ∨
      ((sh.apply eff).state = sh.state ∧
        ((p.pc = .check ∧ sh.state.isStarting = false) ∨ sh.state = .shuttingDown ∨
          (ev = .go ∧ p.pc = .loopHead ∧ sh.ready.isPending = true ∧ sh.ready.closed = true) ∨
          ev = .forceStop)) := by
  cases ho : p.outcome with
  | some o =>
    left
    simpa [Resigned, ho, (step_settled hc ho h).1] using hp
  | none =>
    have hl := hc.not_leaving ho
    revert h
    fun_cases Sup.step cx sh p ev
    all_goals intro h
    all_goals simp only [Option.some.injEq, Prod.mk.injEq, reduceCtorEq] at h
    all_goals obtain ⟨rfl, rfl⟩ := h
    all_goals try (simp_all [Resigned, Pc.leaving, Pc.ending, Shared.apply]; done)
    -- a read
    all_goals
      rename p.read cx _ = some _ => hr
      obtain ⟨buf, avail, rfl⟩ := read_eq hr
    · exact Or.inl hp
    · exact absurd hp (not_resigned_of_decided (by simp)
        (onIdleFrame_outcome (p := { p with buf, avail }) ho _))
    · exact Or.inl hp
    · exact absurd hp (not_resigned_of_decided (by simp)
        (onWaitFrame_outcome (p := { p with buf, avail }) ho _))

/-- A finished supervisor makes no step. -/
theorem step_finished (hpc : p.pc = .finished) : p.step cx sh ev = none := by
  obtain ⟨pc⟩ := p
  cases hpc
  cases ev <;> rfl

end Sup

/-- Only writing the pid changes it. -/
theorem Shared.pid_apply {sh : Shared} {eff : Eff} (h : ∀ pid, eff ≠ .setPid pid) :
    (sh.apply eff).pid = sh.pid := by
  cases eff <;> simp_all [apply, signalChild]

/-- Only writing the metadata changes it. -/
theorem Shared.info_apply {sh : Shared} {eff : Eff} (h : ∀ info, eff ≠ .setInfo info) :
    (sh.apply eff).info = sh.info := by
  cases eff <;> simp_all [apply, signalChild]

namespace Sys

variable {cx : Ctx} {s t : Sys} {l : Label}

/-! ### The pid and the metadata -/

/-- What the handle publishes about the worker is withdrawn where it should be. -/
def Withdrawn (s : Sys) : Prop :=
  (s.sup.pc.noPid = true → s.sh.pid = none) ∧ (s.sup.pc.noInfo = true → s.sh.info = none)

/-- In every reachable state what is published of the worker is withdrawn where it should be. -/
theorem Withdrawn.reachable (h : (handle cx).Reachable s) : s.Withdrawn := by
  refine Machine.invariant_of_step (P := Withdrawn) ⟨fun _ => rfl, fun _ => rfl⟩ ?_ h
  rintro s l t ⟨hpid, hinfo⟩ hstep
  rcases step_cases hstep with
    ⟨ev, p, eff, -, hp, rfl⟩ | ⟨key, ev, c, eff, -, hc, rfl⟩ | ⟨d, -, rfl⟩ | ⟨status, -, rfl⟩
  · obtain ⟨hnopid, hnoinfo⟩ := Sup.step_cleared hp
    refine ⟨fun hpc => ?_, fun hpc => ?_⟩
    · rcases hnopid hpc with rfl | ⟨hold, hne⟩
      · rfl
      · exact (Shared.pid_apply hne).trans (hpid hold)
    · rcases hnoinfo hpc with rfl | ⟨hold, hne⟩
      · rfl
      · exact (Shared.info_apply hne).trans (hinfo hold)
  · -- a call only ever withdraws
    have hd := (Call.step_moved hc).does
    refine ⟨fun hpc => ?_, fun hpc => ?_⟩
    · by_cases he : ∃ pid, eff = .setPid pid
      · obtain ⟨pid, rfl⟩ := he
        exact hd
      · exact (Shared.pid_apply (by simpa using he)).trans (hpid hpc)
    · by_cases he : ∃ info, eff = .setInfo info
      · obtain ⟨info, rfl⟩ := he
        exact hd
      · exact (Shared.info_apply (by simpa using he)).trans (hinfo hpc)
  · exact ⟨hpid, hinfo⟩
  · exact ⟨hpid, hinfo⟩

/-! ### The state -/

/-- A forced stop, and a session that finds the readiness future gone, find the worker given
    up already. -/
def orderly (s : Sys) : Label → Bool
  | .sup .go =>
    match s.sup.pc with
    | .loopHead => !(s.sh.ready.isPending && s.sh.ready.closed) || s.sh.state.isClosed
    | _ => true
  | .sup .forceStop => s.sh.state.isClosed
  | _ => true

/-- A supervisor that has resigned leaves a closed state. -/
def Conceded (s : Sys) : Prop := s.sup.Resigned → s.sh.state.isClosed = true

/-- An orderly step leaves a closed state behind a supervisor that resigns. -/
theorem Conceded.step (hs : s.Conceded) (hr : (handle cx).Reachable s)
    (hg : s.orderly l = true) (h : s.step cx l = some t) : t.Conceded := by
  intro ht
  have hh := Handshake.reachable hr
  have hkeep : s.sup.Resigned → t.sh.state.isClosed = true := fun hres =>
    isClosed_step (fun info hpc => by
      have hco := hh.coherent
      simp_all [Sup.Coherent, Sup.Resigned, Pc.ending]) h (hs hres)
  rcases step_cases h with
    ⟨ev, p, eff, rfl, hp, rfl⟩ | ⟨key, ev, c, eff, -, hc, rfl⟩ | ⟨d, -, rfl⟩ | ⟨status, -, rfl⟩
  · rcases Sup.step_resigned hh.coherent hp ht with hres | ⟨reason, rfl⟩ | ⟨hst, hcase⟩
    · exact hkeep hres
    · rfl
    · rw [hst]
      rcases hcase with ⟨hpc, hnot⟩ | hshut | ⟨rfl, hpc, hpend, hclosed⟩ | rfl
      · -- the state is still as fresh as the handle, or closed
        have hst := hh.staged
        simp only [Sup.Staged, hpc] at hst
        have hne := (hh.hushed hst.1 (by simp [hpc])).state
        cases hs : s.sh.state <;> simp_all [State.isStarting, State.isClosed]
      · simp [hshut, State.isClosed]
      · simpa [orderly, hpc, hpend, hclosed] using hg
      · simpa [orderly] using hg
  all_goals exact hkeep ht

/-- A closed state is left behind by every run whose steps are orderly. -/
theorem Conceded.reachable (h : ((handle cx).restrict orderly).Reachable s) : s.Conceded :=
  Machine.invariant_of_restrict (P := Conceded)
    (fun hres => by simp [handle, Sys.init, Sup.init, Sup.Resigned, Pc.ending] at hres)
    (fun _ _ _ hr hs hg hstep => hs.step hr hg hstep) h

/-- A finished supervisor stays finished. -/
theorem finished_step (hf : s.sup.pc = .finished) (h : s.step cx l = some t) :
    t.sup.pc = .finished := by
  rcases step_cases h with
    ⟨ev, p, eff, -, hp, rfl⟩ | ⟨_, _, _, _, -, -, rfl⟩ | ⟨_, -, rfl⟩ | ⟨_, -, rfl⟩
  · rw [Sup.step_finished hf] at hp
    cases hp
  all_goals exact hf

/-- **A finished supervisor leaves nothing behind that claims a worker**, and it stays so:
    `pid` and `info` are cleared, and when the exits that never look at the state found it
    closed, it is failed or shutting down. -/
theorem closed_of_finished (h : ((handle cx).restrict orderly).Reachable s)
    (hf : s.sup.pc = .finished) (hr : (handle cx).Runs s t) :
    t.sup.pc = .finished ∧ t.sh.pid = none ∧ t.sh.info = none ∧
      t.sh.state.isClosed = true := by
  have hs := Machine.Reachable.of_restrict h
  have hclosed : s.sh.state.isClosed = true := by
    cases ho : s.sup.outcome with
    | none => exact Conceded.reachable h (by simp [Sup.Resigned, ho, hf, Pc.ending])
    | some o =>
      cases o with
      | restart reason => exact Published.reachable hs reason ho (by rw [hf]; rfl)
      | shutdown | kill => exact Conceded.reachable h (by simp [Sup.Resigned, ho])
  obtain ⟨ht, htc⟩ := Machine.stable_of_step
    (P := fun t => t.sup.pc = .finished ∧ t.sh.state.isClosed = true)
    (fun _ _ _ _ hboth hstep =>
      ⟨finished_step hboth.1 hstep, isClosed_step (fun info => by simp [hboth.1]) hstep hboth.2⟩)
    hs ⟨hf, hclosed⟩ hr
  have hw := Withdrawn.reachable (hs.runs hr)
  exact ⟨ht, hw.1 (by rw [ht]; rfl), hw.2 (by rw [ht]; rfl), htc⟩

open Replay in
/-- The result at a run: the worker is ready, a shutdown is requested, its wake-up job makes
    the session return, and the child exits on `SIGTERM`. -/
theorem closed_of_finished_shutdown :
    ∃ s t, (handle demo).Reachable s ∧ (handle demo).Runs s t ∧ s.sh.spawned = [7] ∧
      t.sup.pc = .finished ∧ t.sh.pid = none ∧ t.sh.info = none ∧
      t.sh.state.isClosed = true := by
  have hrun : (((handle demo).restrict orderly).exec (handle demo).init
      (ready ++ [.call 1 (.begin (.shutdown 10000)), .call 1 .go, .call 1 .go, .sup .recv] ++
        go 6 ++ [.exit "exit status: 0", .sup .reap] ++ go 4)).bind (fun s =>
        ((handle demo).exec s [.call 1 .notified]).map (fun _ =>
          decide (s.sh.spawned = [7] ∧ s.sup.pc.isFinished = true))) = some true := by
    decide +kernel
  obtain ⟨s, t, hs, ht, hv⟩ := Machine.runs_of_exec_exec hrun
  obtain ⟨hsp, hf⟩ := of_decide_eq_true hv
  exact ⟨s, t, Machine.Reachable.of_restrict hs, ht, hsp,
    closed_of_finished hs (Pc.isFinished_iff.mp hf) ht⟩

open Replay in
/-- Two runs to the end of the task without a shutdown.  The worker is ready and `kill_now` is
    called: the state is still ready.  The readiness future is dropped before the worker has
    answered: the state is still starting. -/
theorem finished_leaves_ready :
    (∃ s, (handle demo).Reachable s ∧ s.sup.pc = .finished ∧ s.sh.state = .ready) ∧
      ∃ s, (handle demo).Reachable s ∧ s.sup.pc = .finished ∧ s.sh.state = .starting := by
  have hkill : ((handle demo).exec (handle demo).init
      (ready ++ [.call 1 (.begin .killNow), .call 1 .go, .call 1 .go, .sup .forceStop] ++ go 4 ++
        [.exit "signal: 9 (SIGKILL)", .sup .reap] ++ go 4)).map (fun s =>
          decide (s.sup.pc.isFinished = true ∧ s.sh.state = .ready)) = some true := by
    decide +kernel
  have hdrop : ((handle demo).exec (handle demo).init
      ([.call 0 .cancel] ++ go 1 ++ [.sup (.spawned 7)] ++ go 6 ++
        [.exit "signal: 15 (SIGTERM)", .sup .reap] ++ go 4)).map (fun s =>
          decide (s.sup.pc.isFinished = true ∧ s.sh.state = .starting)) = some true := by
    decide +kernel
  obtain ⟨s, hs, hv⟩ := Machine.reachable_of_exec hkill
  obtain ⟨t, ht, hw⟩ := Machine.reachable_of_exec hdrop
  obtain ⟨hsf, hst⟩ := of_decide_eq_true hv
  obtain ⟨htf, htt⟩ := of_decide_eq_true hw
  exact ⟨⟨s, hs, Pc.isFinished_iff.mp hsf, hst⟩, t, ht, Pc.isFinished_iff.mp htf, htt⟩

end Sys

end Layad
