import Layad.Worker.FailClosed

namespace Layad

open Channel Transition

/-!
# The child is reaped, and never signalled afterwards

Every path that leaves a session goes through `shutdown_child`, which waits for the child.
The task therefore ends with the child reaped, unless `shutdown_child` has reported that the
wait failed, or that it was not over in time after `SIGKILL` (`Sys.gaveUp`).  A signal goes
to a child that was not reaped yet, and to no other process (`Sys.child_reaped`).
-/

/-- The points after `shutdown_child`, up to the end of `supervise`. -/
def Pc.reported : Pc → Bool
  | .stopPid | .stopInfo | .failSettle _ | .mark .. | .drain _ | .drainReply .. => true
  | _ => false

/-- After a frame `shutdown_child` has not returned, and the task does not end. -/
theorem Pc.reported_of_decided {pc : Pc} (h : pc.decided = true) :
    pc.reported = false ∧ pc.ending = false := by
  cases pc <;> simp_all [Pc.decided, Pc.reported, Pc.ending]

/-- After a frame no wait for the child is under way. -/
theorem Pc.not_reapingKilled {pc : Pc} (h : pc.decided = true) (reason : Option String)
    (deadline : Nat) : pc ≠ .reapingKilled reason deadline := by
  rintro rfl
  cases h

namespace Child

/-- The child was reaped. -/
def Reaped (c : Child) : Prop := ∃ status, c = .reaped status

/-- A child with a status is reaped by a wait. -/
theorem Reaped.reap_of_status {c : Child} (h : c.status.isSome) : c.reap.Reaped := by
  cases c with
  | exited _ status => exact ⟨status, rfl⟩
  | reaped status => exact ⟨status, rfl⟩
  | absent | running => cases h

/-- A reaped child has no pid, and nothing changes it but a new spawn. -/
theorem Reaped.id {c : Child} (h : c.Reaped) : c.id = none := by
  obtain ⟨status, rfl⟩ := h
  rfl

end Child

namespace Sup

variable {cx : Ctx} {sh : Shared} {p p' : Sup} {ev : SupEv} {eff : Eff}

/-- `shutdown_child` has returned. -/
def Stopped (p : Sup) : Prop := p.pc.reported = true ∨ (p.pc.ending = true ∧ p.outcome.isSome)

/-- No child was spawned, and none will be unless the task is at its beginning. -/
def Childless (p : Sup) : Prop :=
  p.outcome = none ∧ (p.pc.unborn = true ∨ p.pc.ending = true ∨
    (∃ err, p.pc = .spawnFailed err) ∨ ∃ err, p.pc = .spawnSettle err)

/-- After a frame `shutdown_child` has not returned. -/
theorem not_stopped_of_decided (hpc : p.pc.decided = true) : ¬p.Stopped := by
  obtain ⟨hr, he⟩ := Pc.reported_of_decided hpc
  simp [Stopped, hr, he]

/-- After a frame there is a child. -/
theorem not_childless_of_decided (hpc : p.pc.decided = true) : ¬p.Childless := by
  cases hp : p.pc <;> simp_all [Childless, Pc.decided, Pc.unborn, Pc.ending]

/-- The event by which `shutdown_child` reports that the child could not be reaped. -/
def gaveUp (p : Sup) : SupEv → Bool
  | .waitFailed _ =>
    match p.pc with
    | .reaping .. | .reapingKilled .. => true
    | _ => false
  | .deadline =>
    match p.pc with
    | .reapingKilled .. => true
    | _ => false
  | _ => false

/-- `shutdown_child` returns with the child reaped, or reports that it could not be. -/
theorem step_stopped (hc : p.Coherent) (h : p.step cx sh ev = some (p', eff))
    (hs : p'.Stopped) :
    (p.Stopped ∧ ∀ pid, eff ≠ .spawn pid) ∨ (eff = .reap ∧ sh.child.status.isSome) ∨
      p.gaveUp ev = true := by
  revert h
  fun_cases Sup.step cx sh p ev
  all_goals intro h
  all_goals simp only [Option.some.injEq, Prod.mk.injEq, reduceCtorEq] at h
  all_goals obtain ⟨rfl, rfl⟩ := h
  all_goals try (simp_all [Stopped, Pc.reported, Pc.ending, Coherent, gaveUp]; done)
  all_goals try
    apply absurd hs
    apply not_stopped_of_decided
    simp
    done
  -- a read without a frame
  all_goals try
    rename p.read cx _ = some _ => hr
    obtain ⟨buf, avail, rfl⟩ := read_eq hr
    exact Or.inl ⟨hs, by simp⟩
  -- what is done depends on the state found
  all_goals
    refine Or.inl ⟨Or.inl (by simp [Pc.reported, *]), ?_⟩
    split <;> simp

/-- The second wait begins with `SIGKILL`. -/
theorem step_escalated (h : p.step cx sh ev = some (p', eff)) {reason : Option String}
    {deadline : Nat} (hp : p'.pc = .reapingKilled reason deadline) :
    eff = .signal .kill ∧ deadline = sh.now + max cx.config.shutdownTimeout 200 := by
  revert h
  fun_cases Sup.step cx sh p ev
  all_goals intro h
  all_goals simp only [Option.some.injEq, Prod.mk.injEq, reduceCtorEq] at h
  all_goals obtain ⟨rfl, rfl⟩ := h
  all_goals try (simp_all; done)
  -- the end of `shutdown_child`, and the ends of a session
  all_goals try
    rename Option String => r
    cases r <;> cases hp
  all_goals try (simp [Pc.not_reapingKilled] at hp)
  all_goals
    rename p.read cx _ = some _ => hr
    obtain ⟨buf, avail, rfl⟩ := read_eq hr
    simp_all

/-- No child appears without a spawn. -/
theorem step_childless (hc : p.Coherent) (h : p.step cx sh ev = some (p', eff))
    (hs : p'.Childless) : p.Childless ∧ ∀ pid, eff ≠ .spawn pid := by
  have ho : p.outcome = none := by
    by_contra hne
    obtain ⟨o, ho⟩ := Option.ne_none_iff_exists'.mp hne
    exact absurd hs.1 (by simp [(step_settled hc ho h).1])
  have hl := hc.not_leaving ho
  revert h
  fun_cases Sup.step cx sh p ev
  all_goals intro h
  all_goals simp only [Option.some.injEq, Prod.mk.injEq, reduceCtorEq] at h
  all_goals obtain ⟨rfl, rfl⟩ := h
  all_goals try (simp_all [Childless, Pc.leaving, Pc.unborn, Pc.ending]; done)
  all_goals try
    apply absurd hs
    apply not_childless_of_decided
    simp
  -- a read without a frame
  all_goals
    rename p.read cx _ = some _ => hr
    obtain ⟨buf, avail, rfl⟩ := read_eq hr
    exact ⟨hs, by simp⟩

end Sup

namespace Shared

variable {sh : Shared} {eff : Eff}

/-- Only a spawn gives a reaped child up for another. -/
theorem reaped_apply (h : ∀ pid, eff ≠ .spawn pid) {status : String}
    (hs : sh.child = .reaped status) :
    (sh.apply eff).child = .reaped status ∧ (sh.apply eff).signals = sh.signals := by
  cases eff <;> simp_all [apply, signalChild, Child.reap, Child.id]

/-- A child has its pid from its spawn. -/
theorem id_apply (h : ∀ pid, eff ≠ .spawn pid) {pid : Nat}
    (hs : (sh.apply eff).child.id = some pid) : sh.child.id = some pid := by
  cases eff with
  | spawn p => exact absurd rfl (h p)
  | reap =>
    revert hs
    show sh.child.reap.id = some pid → sh.child.id = some pid
    cases sh.child <;> simp [Child.reap, Child.id]
  | _ => exact hs

/-- A signal is sent to the child. -/
theorem mem_signals_apply {pid : Nat} {signal : Signal}
    (hs : (pid, signal) ∈ (sh.apply eff).signals) :
    (pid, signal) ∈ sh.signals ∨ sh.child.id = some pid := by
  have hsent : ∀ sig, (pid, signal) ∈ (sh.signalChild sig).signals →
      (pid, signal) ∈ sh.signals ∨ sh.child.id = some pid := by
    intro sig hmem
    rcases List.mem_append.mp hmem with hmem | hmem
    · exact Or.inl hmem
    · obtain ⟨p, hp, he⟩ := Option.map_eq_some_iff.mp (Option.mem_toList.mp hmem)
      obtain ⟨rfl, -⟩ := Prod.mk.inj he
      exact Or.inr hp
  cases eff with
  | signal sig => exact hsent sig hs
  | dropReceiver => exact hsent .kill hs
  | _ => exact Or.inl hs

/-- There is no child without a spawn, and its pid and every signal's are of one spawned. -/
structure Owned (sh : Shared) : Prop where
  absent : sh.spawned = [] → sh.child = .absent
  pid : ∀ pid, sh.child.id = some pid → pid ∈ sh.spawned
  signals : ∀ pid signal, (pid, signal) ∈ sh.signals → pid ∈ sh.spawned

/-- An operation signals the child only, and spawns it before. -/
theorem Owned.apply (h : sh.Owned) (eff : Eff) : (sh.apply eff).Owned := by
  by_cases he : ∃ pid, eff = .spawn pid
  · obtain ⟨pid, rfl⟩ := he
    refine ⟨fun hno => ?_, fun p hp => ?_, fun p sig hmem => ?_⟩
    · simp [Shared.apply] at hno
    · obtain rfl : pid = p := Option.some.inj hp
      exact List.mem_append_right _ (List.mem_singleton_self pid)
    · exact List.mem_append_left _ (h.signals p sig hmem)
  · have he : ∀ pid, eff ≠ .spawn pid := by simpa using he
    have hspawned : (sh.apply eff).spawned = sh.spawned := spawned_apply he
    refine ⟨fun hno => ?_, fun p hp => ?_, fun p sig hmem => ?_⟩
    · have habs := h.absent (hspawned ▸ hno)
      cases eff <;> simp_all [Shared.apply, signalChild, Child.reap]
    · exact hspawned ▸ h.pid p (id_apply he hp)
    · rcases mem_signals_apply hmem with hmem | hid
      · exact hspawned ▸ h.signals p sig hmem
      · exact hspawned ▸ h.pid p hid

end Shared

/-- An exit leaves the pid as it is. -/
theorem Child.id_exit (c : Child) (status : String) : (c.exit status).id = c.id := by
  cases c <;> rfl

namespace Sys

variable {cx : Ctx} {s t : Sys} {l : Label}

/-- `shutdown_child` reports that the child could not be reaped: the wait failed, or it was not
    over in time after `SIGKILL`. -/
def gaveUp (s : Sys) : Label → Bool
  | .sup ev => s.sup.gaveUp ev
  | _ => false

/-- Calls spawn nothing. -/
theorem not_spawn_of_call {c c' : Call} {key : Nat} {eff : Eff} (h : Call.Does s.sh key c c' eff)
    (pid : Nat) : eff ≠ .spawn pid := by
  rintro rfl
  exact h

/-- The child and the signals are in order: no child without a spawn, no signal to another
    process, and `SIGKILL` sent before the second wait. -/
structure Raised (s : Sys) : Prop where
  owned : s.sh.Owned
  childless : s.sup.Childless → s.sh.spawned = []
  escalated : ∀ reason deadline pid, s.sup.pc = .reapingKilled reason deadline →
    s.sh.child.id = some pid → (pid, .kill) ∈ s.sh.signals

/-- A new handle has no child and sent no signal. -/
theorem Raised.init (cx : Ctx) : (Sys.init cx).Raised where
  owned := ⟨fun _ => rfl, by simp [Sys.init, Child.id], by simp [Sys.init]⟩
  childless _ := rfl
  escalated _ _ _ h := by simp [Sys.init, Sup.init] at h

/-- The supervisor sends `SIGKILL` before the second wait, and signals its child only. -/
theorem Raised.sup (h : s.Raised) (hc : s.sup.Coherent) {ev : SupEv} {p : Sup} {eff : Eff}
    (hp : s.sup.step cx s.sh ev = some (p, eff)) :
    Raised { s with sup := p, sh := s.sh.apply eff } := by
  refine ⟨h.owned.apply eff, fun hno => ?_, fun reason deadline pid hpc hid => ?_⟩
  · obtain ⟨hold, he⟩ := Sup.step_childless hc hp hno
    show (s.sh.apply eff).spawned = []
    rw [Shared.spawned_apply he, h.childless hold]
  · obtain ⟨rfl, -⟩ := Sup.step_escalated hp hpc
    have hid : s.sh.child.id = some pid := hid
    show (pid, Signal.kill) ∈ (s.sh.signalChild .kill).signals
    simp [Shared.signalChild, hid]

/-- A call sends no signal. -/
theorem Raised.call (h : s.Raised) {key : Nat} {ev : CallEv} {c : Call} {eff : Eff}
    (hc : (s.calls key).step cx s.sh key ev = some (c, eff)) :
    Raised { s with calls := Function.update s.calls key c, sh := s.sh.apply eff } := by
  have he := not_spawn_of_call (Call.step_moved hc).does
  refine ⟨h.owned.apply eff, fun hno => ?_, fun reason deadline pid hpc hid => ?_⟩
  · show (s.sh.apply eff).spawned = []
    rw [Shared.spawned_apply he, h.childless hno]
  · have hkept : s.sh.signals ⊆ (s.sh.apply eff).signals := by
      cases eff <;> simp [Shared.apply, Shared.signalChild]
    exact hkept (h.escalated reason deadline pid hpc (Shared.id_apply he hid))

/-- In every reachable state the child and the signals are in order. -/
theorem Raised.reachable (h : (handle cx).Reachable s) : s.Raised := by
  refine Machine.Reachable.induct (Raised.init cx) ?_ h
  intro s l s' hr hs hstep
  have hc := (Handshake.reachable hr).coherent
  rcases step_cases hstep with
    ⟨ev, p, eff, -, hp, rfl⟩ | ⟨key, ev, c, eff, -, hc', rfl⟩ | ⟨d, -, rfl⟩ | ⟨status, -, rfl⟩
  · exact hs.sup hc hp
  · exact hs.call hc'
  · exact ⟨⟨hs.owned.absent, hs.owned.pid, hs.owned.signals⟩, hs.childless, hs.escalated⟩
  · have hid := Child.id_exit s.sh.child status
    refine ⟨⟨fun hno => ?_, fun pid hp => hs.owned.pid pid (hid ▸ hp), hs.owned.signals⟩,
      hs.childless,
      fun reason deadline pid hpc hp => hs.escalated reason deadline pid hpc (hid ▸ hp)⟩
    show s.sh.child.exit status = .absent
    rw [hs.owned.absent hno]
    rfl

/-! ### A reaped child -/

/-- A child is spawned before it is reaped, so no other follows. -/
theorem not_spawning_of_reaped (h : (handle cx).Reachable s) (hs : s.sh.child.Reaped) :
    s.sup.pc ≠ .spawning := by
  intro hpc
  have hnone := (Single.reachable h).2 (by rw [hpc]; rfl)
  obtain ⟨status, hst⟩ := hs
  rw [(Raised.reachable h).owned.absent hnone] at hst
  cases hst

/-- A reaped child stays reaped, and is sent no signal. -/
theorem reaped_step {status : String} (hr : (handle cx).Reachable s)
    (hs : s.sh.child = .reaped status) (h : s.step cx l = some t) :
    t.sh.child = .reaped status ∧ t.sh.signals = s.sh.signals := by
  rcases step_cases h with
    ⟨ev, p, eff, -, hp, rfl⟩ | ⟨key, ev, c, eff, -, hc, rfl⟩ | ⟨d, -, rfl⟩ | ⟨status', -, rfl⟩
  · refine Shared.reaped_apply ?_ hs
    rintro pid rfl
    exact not_spawning_of_reaped hr ⟨status, hs⟩ (Sup.step_does hp)
  · exact Shared.reaped_apply (not_spawn_of_call (Call.step_moved hc).does) hs
  · exact ⟨hs, rfl⟩
  · exact ⟨by rw [hs]; rfl, rfl⟩

/-- A child that was reaped gets no signal any more. -/
theorem reaped_runs {status : String} (hr : (handle cx).Reachable s)
    (hs : s.sh.child = .reaped status) (h : (handle cx).Runs s t) :
    t.sh.child = .reaped status ∧ t.sh.signals = s.sh.signals :=
  Machine.stable_of_step
    (P := fun t => t.sh.child = .reaped status ∧ t.sh.signals = s.sh.signals)
    (fun _ _ _ hu ⟨hc, hsig⟩ hstep =>
      ⟨(reaped_step hu hc hstep).1, (reaped_step hu hc hstep).2.trans hsig⟩)
    hr ⟨hs, rfl⟩ h

/-- After `shutdown_child` the child is reaped, in every run in which it reported nothing else. -/
theorem reaped_of_stopped (h : ((handle cx).restrict fun s l => !s.gaveUp l).Reachable s) :
    s.sup.Stopped → s.sh.child.Reaped := by
  refine Machine.invariant_of_restrict (P := fun s => s.sup.Stopped → s.sh.child.Reaped) ?_ ?_ h
  · rintro (hs | ⟨hs, -⟩) <;> cases hs
  · intro s l t hr hs hg hstep ht
    have hkeep : s.sup.Stopped → t.sh.child.Reaped := fun hold => by
      obtain ⟨status, hst⟩ := hs hold
      exact ⟨status, (reaped_step hr hst hstep).1⟩
    rcases step_cases hstep with
      ⟨ev, p, eff, rfl, hp, rfl⟩ | ⟨_, _, _, _, -, -, rfl⟩ | ⟨_, -, rfl⟩ | ⟨_, -, rfl⟩
    · rcases Sup.step_stopped (Handshake.reachable hr).coherent hp ht with
        ⟨hold, -⟩ | ⟨rfl, hst⟩ | hgave
      · exact hkeep hold
      · exact Child.Reaped.reap_of_status hst
      · simp [gaveUp, hgave] at hg
    all_goals exact hkeep ht

/-- **No orphan and no stray signal.**  In every reachable state: at most one child was
    spawned; every signal went to it; a child that was reaped stays so and is sent no signal
    any more; `SIGKILL` was sent before `shutdown_child` can report that the child did not
    exit; and in a run in which it reported nothing of the kind, a task that spawned a child
    comes to its end with the child reaped. -/
theorem child_reaped (h : (handle cx).Reachable s) :
    s.sh.spawned.length ≤ 1 ∧
    (∀ pid signal, (pid, signal) ∈ s.sh.signals → s.sh.spawned = [pid]) ∧
    (∀ status t, s.sh.child = .reaped status → (handle cx).Runs s t →
      t.sh.child = .reaped status ∧ t.sh.signals = s.sh.signals) ∧
    (∀ reason deadline pid, s.sup.pc = .reapingKilled reason deadline →
      s.sh.child.id = some pid → (pid, .kill) ∈ s.sh.signals) ∧
    (((handle cx).restrict fun s l => !s.gaveUp l).Reachable s → s.sh.spawned ≠ [] →
      s.sup.pc.ending = true → ∃ status, s.sh.child = .reaped status) := by
  have hone := (Single.reachable h).1
  have hraised := Raised.reachable h
  refine ⟨hone, fun pid signal hmem => ?_, fun status t hs hr => reaped_runs h hs hr,
    hraised.escalated, fun hrestrict hsp hend => reaped_of_stopped hrestrict ?_⟩
  · have hpid := hraised.owned.signals pid signal hmem
    match hspawned : s.sh.spawned with
    | [p] => simp_all
    | [] => simp_all
    | p :: q :: rest => simp_all
  · -- a task that ends without an outcome has spawned nothing
    refine Or.inr ⟨hend, ?_⟩
    by_contra ho
    have ho : s.sup.outcome = none := by simpa using ho
    exact hsp (hraised.childless ⟨ho, Or.inr (Or.inl hend)⟩)

open Replay in
/-- The result at a run: the daemon shuts down, the child ignores `SIGTERM`, and is reaped after
    `SIGKILL`. -/
theorem child_reaped_killed :
    ∃ s status, (handle demo).Reachable s ∧ s.sup.pc.ending = true ∧
      s.sh.signals = [(7, .term), (7, .kill)] ∧ s.sh.child = .reaped status := by
  have hrun : (((handle demo).restrict fun s l => !s.gaveUp l).exec (handle demo).init
      (ready ++ [.call 1 (.begin (.shutdown 10000)), .call 1 .go, .call 1 .go, .sup .recv] ++
        go 6 ++ [.tick 10000, .sup .deadline] ++ go 1 ++
        [.exit "signal: 9 (SIGKILL)", .sup .reap] ++
        go 4)).map (fun s => decide (s.sup.pc.ending = true ∧ s.sh.spawned = [7] ∧
          s.sh.signals = [(7, .term), (7, .kill)])) = some true := by decide +kernel
  obtain ⟨s, hs, hv⟩ := Machine.reachable_of_exec hrun
  obtain ⟨hend, hsp, hsig⟩ := of_decide_eq_true hv
  obtain ⟨-, -, -, -, hreaped⟩ := child_reaped hs.of_restrict
  obtain ⟨status, hst⟩ := hreaped hs (by simp [hsp]) hend
  exact ⟨s, status, hs.of_restrict, hend, hsig, hst⟩

end Sys

end Layad
