import Layad.Worker.Synchronisation

namespace Layad

open Channel Transition

/-!
# Failing closed is permanent

Once a session has decided to restart, the worker is neither written to nor read from any
more, no result reaches a caller that was not already sent, no worker is spawned again, and
from the moment `run_session` returns the state stays failed or shutting down
(`Sys.failing_closed_permanent`).
-/

/-- The points after `run_session` has returned. -/
def Pc.published : Pc → Bool
  | .startKill | .stopSettle | .terminate _ | .reaping .. | .escalate _ | .reapingKilled ..
  | .stopPid | .stopInfo | .failSettle _ | .mark .. | .drain _ | .drainReply .. | .closing
  | .notify | .finished => true
  | _ => false

/-- The points at which no worker was spawned yet. -/
def Pc.unborn : Pc → Bool
  | .check | .spawning => true
  | _ => false

namespace Sup

variable {cx : Ctx} {sh : Shared} {p p' : Sup} {ev : SupEv} {eff : Eff}

/-- `run_session` returns by its last step, which publishes a restart. -/
theorem step_published {reason : String} (ho : p.outcome = some (.restart reason))
    (hc : p.Coherent) (h : p.step cx sh ev = some (p', eff)) (hp : p'.pc.published = true) :
    p.pc.published = true ∨ (sh.apply eff).state.isClosed = true := by
  have hk := hc.not_killable (by rw [ho]; rfl)
  revert h
  fun_cases Sup.step cx sh p ev
  all_goals intro h
  all_goals simp only [Option.some.injEq, Prod.mk.injEq, reduceCtorEq] at h
  all_goals obtain ⟨rfl, rfl⟩ := h
  all_goals try (simp_all [Pc.published, Coherent]; done)
  -- the publication itself
  right
  split <;> simp_all [Shared.apply, State.isClosed]

/-- After a frame `run_session` has not returned yet. -/
theorem published_of_decided {pc : Pc} (h : pc.decided = true) : pc.published = false := by
  cases pc <;> simp_all [Pc.decided, Pc.published]

/-- After a frame there was a worker to read it from. -/
theorem unborn_of_decided {pc : Pc} (h : pc.decided = true) : pc.unborn = false := by
  cases pc <;> simp_all [Pc.decided, Pc.unborn]

/-- A restart is decided before `run_session` returns. -/
theorem step_decides {reason : String} (hc : p.Coherent) (ho : p.outcome = none)
    (h : p.step cx sh ev = some (p', eff)) (ho' : p'.outcome = some (.restart reason)) :
    p'.pc.published = false := by
  revert h
  fun_cases Sup.step cx sh p ev
  all_goals intro h
  all_goals simp only [Option.some.injEq, Prod.mk.injEq, reduceCtorEq] at h
  all_goals obtain ⟨rfl, rfl⟩ := h
  all_goals try (simp_all [Coherent, Pc.published]; done)
  all_goals try simp [published_of_decided]
  -- a read without a frame
  all_goals
    rename p.read cx _ = some _ => hr
    obtain ⟨buf, avail, rfl⟩ := read_eq hr
    simp_all

/-- The worker is spawned once. -/
theorem step_unborn (h : p.step cx sh ev = some (p', eff)) (hp : p'.pc.unborn = true) :
    p.pc.unborn = true ∧ eff = .skip := by
  revert h
  fun_cases Sup.step cx sh p ev
  all_goals intro h
  all_goals simp only [Option.some.injEq, Prod.mk.injEq, reduceCtorEq] at h
  all_goals obtain ⟨rfl, rfl⟩ := h
  all_goals try (simp_all [Pc.unborn]; done)
  all_goals try (simp [unborn_of_decided] at hp; done)
  all_goals try
    rename Option String => reason
    cases reason <;> cases hp
  -- a read without a frame
  all_goals
    rename p.read cx _ = some _ => hr
    obtain ⟨buf, avail, rfl⟩ := read_eq hr
    exact ⟨hp, rfl⟩

end Sup

/-- Only three operations touch the state, the pipe and the list of workers spawned. -/
theorem Shared.spawned_apply {sh : Shared} {eff : Eff} (h : ∀ pid, eff ≠ .spawn pid) :
    (sh.apply eff).spawned = sh.spawned := by
  cases eff <;> simp_all [apply, signalChild]

/-- Only writing the state changes it. -/
theorem Shared.state_apply {sh : Shared} {eff : Eff} (h : ∀ state, eff ≠ .setState state) :
    (sh.apply eff).state = sh.state := by
  cases eff <;> simp_all [apply, signalChild]

namespace Sys

variable {cx : Ctx} {s t : Sys} {l : Label}

/-- One worker at most is spawned, and none before its time. -/
def Single (s : Sys) : Prop :=
  s.sh.spawned.length ≤ 1 ∧ (s.sup.pc.unborn = true → s.sh.spawned = [])

/-- In every reachable state one worker at most was spawned. -/
theorem Single.reachable (h : (handle cx).Reachable s) : s.Single := by
  refine Machine.invariant_of_step (P := Single) ⟨Nat.zero_le _, fun _ => rfl⟩ ?_ h
  rintro s l s' ⟨hone, hnone⟩ hstep
  rcases step_cases hstep with
    ⟨ev, p, eff, -, hp, rfl⟩ | ⟨key, ev, c, eff, -, hc, rfl⟩ | ⟨d, -, rfl⟩ | ⟨status, -, rfl⟩
  · have hd := Sup.step_does hp
    by_cases he : ∃ pid, eff = .spawn pid
    · obtain ⟨pid, rfl⟩ := he
      have hpc : s.sup.pc = .spawning := hd
      refine ⟨by simp [Shared.apply, hnone (by rw [hpc]; rfl)], fun hu => ?_⟩
      cases (Sup.step_unborn hp hu).2
    · have hsp : (s.sh.apply eff).spawned = s.sh.spawned :=
        Shared.spawned_apply (by simpa using he)
      exact ⟨hsp ▸ hone, fun hu => hsp ▸ hnone (Sup.step_unborn hp hu).1⟩
  · have hsp : (s.sh.apply eff).spawned = s.sh.spawned :=
      Shared.spawned_apply (by rintro pid rfl; exact (Call.step_moved hc).does)
    exact ⟨hsp ▸ hone, fun hu => hsp ▸ hnone hu⟩
  · exact ⟨hone, hnone⟩
  · exact ⟨hone, hnone⟩

/-- What a failed session leaves for good, seen from a state `s` where it has failed. -/
structure Frozen (s t : Sys) (reason : String) : Prop where
  outcome : t.sup.outcome = some (.restart reason)
  stdin : t.sh.stdin = s.sh.stdin
  frames : t.sup.frames = s.sup.frames
  lines : t.sup.lines = s.sup.lines
  buf : t.sup.buf = s.sup.buf
  avail : t.sup.avail = s.sup.avail
  spawned : t.sh.spawned = s.sh.spawned
  results : ∀ k v, (t.sh.replies k).slot = .sent (.ok v) → (s.sh.replies k).slot = .sent (.ok v)

/-- The state is failed or shutting down once `run_session` has returned. -/
def Published (s : Sys) : Prop := s.sup.pc.published = true → s.sh.state.isClosed = true

/-- Only the handshake writes a state that would take the worker for usable. -/
theorem isClosed_step (hpc : ∀ info, s.sup.pc ≠ .readyState info) (h : s.step cx l = some t)
    (hs : s.sh.state.isClosed = true) : t.sh.state.isClosed = true := by
  rcases step_cases h with
    ⟨ev, p, eff, -, hp, rfl⟩ | ⟨key, ev, c, eff, -, hc', rfl⟩ | ⟨d, -, rfl⟩ | ⟨status, -, rfl⟩
  · by_cases he : ∃ state, eff = .setState state
    · obtain ⟨state, rfl⟩ := he
      rcases Sup.step_does hp with ⟨info, h, -⟩ | ⟨err, -, rfl⟩ | ⟨r, -, -, rfl⟩ | ⟨d, -, -, rfl⟩
      · exact absurd h (hpc info)
      all_goals rfl
    · rw [Shared.state_apply (by simpa using he)]
      exact hs
  · rcases (Call.step_moved hc').does.keeps with ⟨state, rfl⟩ | ⟨job, rfl⟩ | ⟨hstate, -⟩
    · rcases (Call.step_moved hc').does with rfl | ⟨-, r, -, rfl, -⟩
      all_goals rfl
    · exact hs
    · rw [hstate]
      exact hs
  · exact hs
  · exact hs

/-- A session with its outcome does not publish `Ready`. -/
theorem not_readyState (hc : s.sup.Coherent) (ho : s.sup.outcome.isSome) (info : WorkerInfo) :
    s.sup.pc ≠ .readyState info := by
  intro hpc
  simp_all [Sup.Coherent]

/-- A step after the failure leaves a closed state once `run_session` has returned. -/
theorem Published.step (hs : s.Published) (hc : s.sup.Coherent) {reason : String}
    (ho : s.sup.outcome = some (.restart reason)) (h : s.step cx l = some t) : t.Published := by
  intro hpub
  have hno := not_readyState hc (by rw [ho]; rfl)
  rcases step_cases h with
    ⟨ev, p, eff, -, hp, rfl⟩ | ⟨key, ev, c, eff, -, hc', rfl⟩ | ⟨d, -, rfl⟩ | ⟨status, -, rfl⟩
  · rcases Sup.step_published ho hc hp hpub with hold | hclosed
    · exact isClosed_step hno h (hs hold)
    · exact hclosed
  all_goals exact isClosed_step hno h (hs hpub)

/-- A failed session is what it has left. -/
theorem Frozen.refl {reason : String} (ho : s.sup.outcome = some (.restart reason)) :
    Frozen s s reason :=
  ⟨ho, rfl, rfl, rfl, rfl, rfl, rfl, fun _ _ h => h⟩

/-- One step leaves what a failed session has left. -/
theorem Frozen.step {r : Sys} {reason : String} (hf : Frozen r s reason)
    (hc : s.sup.Coherent) (h : s.step cx l = some t) : Frozen r t reason := by
  rcases step_cases h with
    ⟨ev, p, eff, -, hp, rfl⟩ | ⟨key, ev, c, eff, -, hc', rfl⟩ | ⟨d, -, rfl⟩ | ⟨status, -, rfl⟩
  · obtain ⟨ho, hfr, -, hl, hb, ha⟩ := Sup.step_settled hc hf.outcome hp
    have hd := Sup.step_does hp
    -- a session with its outcome neither writes nor spawns
    have hwrite : ∀ bytes, eff ≠ .write bytes := by
      rintro bytes rfl
      obtain ⟨id, key, out, hpc, -⟩ := hd
      simp [Sup.Coherent, hpc, hf.outcome] at hc
    have hspawn : ∀ pid, eff ≠ .spawn pid := by
      rintro pid rfl
      simp [Sup.Coherent, show s.sup.pc = .spawning from hd, hf.outcome] at hc
    refine ⟨ho, (Shared.stdin_apply hwrite).trans hf.stdin, hfr.trans hf.frames,
      hl.trans hf.lines, hb.trans hf.buf, ha.trans hf.avail,
      (Shared.spawned_apply hspawn).trans hf.spawned, fun k v hk => ?_⟩
    rcases Shared.slot_apply_eq_sent hk with hk | rfl
    · exact hf.results k v hk
    · -- the session would not have ended on a result
      rcases hd with ⟨next, hpc⟩ | ⟨detail, -, he⟩
      · exact absurd hpc (hc.quiet (by rw [hf.outcome]; rfl) k v next)
      · cases he
  · -- nor does a call
    have hd := (Call.step_moved hc').does
    have hwrite : ∀ bytes, eff ≠ .write bytes := by
      rintro bytes rfl
      exact hd
    have hspawn : ∀ pid, eff ≠ .spawn pid := by
      rintro pid rfl
      exact hd
    refine ⟨hf.outcome, (Shared.stdin_apply hwrite).trans hf.stdin, hf.frames, hf.lines, hf.buf,
      hf.avail, (Shared.spawned_apply hspawn).trans hf.spawned, fun k v hk => ?_⟩
    exact hf.results k v (by rwa [slot_of_call hd] at hk)
  · exact ⟨hf.outcome, hf.stdin, hf.frames, hf.lines, hf.buf, hf.avail, hf.spawned, hf.results⟩
  · exact ⟨hf.outcome, hf.stdin, hf.frames, hf.lines, hf.buf, hf.avail, hf.spawned, hf.results⟩

/-- Every run leaves what a failed session has left. -/
theorem Frozen.runs {reason : String} (h : (handle cx).Reachable s)
    (ho : s.sup.outcome = some (.restart reason)) (hr : (handle cx).Runs s t) :
    Frozen s t reason :=
  Machine.stable_of_step (P := fun t => Frozen s t reason)
    (fun _ _ _ hu hf hstep => hf.step (Handshake.reachable hu).coherent hstep)
    h (Frozen.refl ho) hr

/-- A restart is published by the time `run_session` returns. -/
theorem Published.reachable (h : (handle cx).Reachable s) :
    ∀ reason, s.sup.outcome = some (.restart reason) → s.Published := by
  refine Machine.Reachable.induct
    (P := fun s => ∀ reason, s.sup.outcome = some (.restart reason) → s.Published) ?_ ?_ h
  · intro reason ho
    simp [handle, Sys.init, Sup.init] at ho
  · intro s l t hr hs hstep reason ho
    have hc := (Handshake.reachable hr).coherent
    cases hold : s.sup.outcome with
    | some o =>
      have hf : t.sup.outcome = s.sup.outcome := by
        rcases step_cases hstep with
          ⟨ev, p, eff, -, hp, rfl⟩ | ⟨_, _, _, _, -, -, rfl⟩ | ⟨_, -, rfl⟩ | ⟨_, -, rfl⟩
        · exact (Sup.step_settled hc hold hp).1.trans hold.symm
        all_goals rfl
      have hso := hf.symm.trans ho
      exact (hs reason hso).step hc hso hstep
    | none =>
      intro hpub
      rcases step_cases hstep with
        ⟨ev, p, eff, -, hp, rfl⟩ | ⟨_, _, _, _, -, -, rfl⟩ | ⟨_, -, rfl⟩ | ⟨_, -, rfl⟩
      · exact absurd hpub (by simp [Sup.step_decides hc hold hp ho])
      all_goals exact absurd (hold.symm.trans ho) (by simp)

/-- A closed state stays closed after a failed session. -/
theorem isClosed_runs {reason : String} (h : (handle cx).Reachable s)
    (ho : s.sup.outcome = some (.restart reason)) (hr : (handle cx).Runs s t)
    (hs : s.sh.state.isClosed = true) : t.sh.state.isClosed = true := by
  refine (Machine.stable_of_step
    (P := fun t => t.sup.outcome = some (.restart reason) ∧ t.sh.state.isClosed = true)
    ?_ h ⟨ho, hs⟩ hr).2
  rintro u l v hu ⟨huo, huc⟩ hstep
  have hc := (Handshake.reachable hu).coherent
  exact ⟨((Frozen.refl huo).step hc hstep).outcome,
    isClosed_step (not_readyState hc (by rw [huo]; rfl)) hstep huc⟩

/-- **Failing closed is permanent.**  From the event on that makes the session return a
    restart: nothing is written to the worker or read from it, no prediction returns a result
    that was not already sent, no worker is spawned (and there was one at most), and once
    `run_session` has returned the state is failed or shutting down. -/
theorem failing_closed_permanent {reason : String} (h : (handle cx).Reachable s)
    (ho : s.sup.outcome = some (.restart reason)) (hr : (handle cx).Runs s t) :
    t.sup.outcome = some (.restart reason) ∧
    (t.sh.stdin = s.sh.stdin ∧ t.sup.frames = s.sup.frames) ∧
    (t.sup.lines = s.sup.lines ∧ t.sup.buf = s.sup.buf ∧ t.sup.avail = s.sup.avail) ∧
    (∀ k v, (t.calls k).answered = some (.ok v) → (s.sh.replies k).slot = .sent (.ok v)) ∧
    (t.sh.spawned = s.sh.spawned ∧ t.sh.spawned.length ≤ 1) ∧
    (s.sup.pc.published = true → t.sh.state.isClosed = true) := by
  have ht := h.runs hr
  have hf := Frozen.runs h ho hr
  exact ⟨hf.outcome, ⟨hf.stdin, hf.frames⟩, ⟨hf.lines, hf.buf, hf.avail⟩,
    fun k v hk => hf.results k v ((Served.reachable ht).answered_ok hk),
    ⟨hf.spawned, (Single.reachable ht).1⟩,
    fun hpub => isClosed_runs h ho hr (Published.reachable h reason ho hpub)⟩

open Replay in
/-- The result at a run: the worker exits while idle, and a prediction comes after
    `run_session` has returned. -/
theorem failing_closed_permanent_exit :
    ∃ s t, (handle demo).Reachable s ∧ (handle demo).Runs s t ∧
      s.sup.outcome = some (.restart "worker exited with signal: 9 (SIGKILL)") ∧
      (t.calls 1).answered.isSome ∧ t.sh.spawned = [7] ∧ t.sh.state.isClosed = true := by
  have hrun : ((handle demo).exec (handle demo).init
      (ready ++ [.exit "signal: 9 (SIGKILL)", .sup .reap] ++ go 2)).bind (fun s =>
        ((handle demo).exec s [.call 1 (.begin (.predict .null)), .call 1 .go]).map (fun t =>
          decide (s.sup.outcome = some (.restart "worker exited with signal: 9 (SIGKILL)") ∧
            s.sup.pc.published = true ∧ (t.calls 1).answered.isSome ∧ s.sh.spawned = [7]))) =
      some true := by decide +kernel
  obtain ⟨s, t, hs, ht, hv⟩ := Machine.runs_of_exec_exec hrun
  obtain ⟨ho, hpub, hans, hsp⟩ := of_decide_eq_true hv
  obtain ⟨-, -, -, -, ⟨hspawned, -⟩, hclosed⟩ := failing_closed_permanent hs ho ht
  exact ⟨s, t, hs, ht, ho, hans, hspawned.trans hsp, hclosed hpub⟩

end Sys

end Layad
