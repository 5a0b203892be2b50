import Layad.Daemon.Steps
import Layad.Joint.Answers
import Layad.Worker.Diagnosis

namespace Layad

open Channel Transition

/-!
# How the daemon exits

The process ends for a cause: without a signal and while the server runs, only because it could
not bind, because the worker did not start, or because it was lost (`Daemon.exits_for_cause`).
Whichever way it ends, no worker is left behind that was not sent `SIGKILL`
(`Daemon.no_orphan`), also not by `process::exit`, which drops nothing.
-/

/-! ### A worker that was lost -/

/-- The points after a fatal fault was reported. -/
def Pc.warned : Pc → Bool
  | .drain _ | .drainReply .. | .closing | .notify | .finished => true
  | _ => false

namespace Sup

variable {cx : Ctx} {sh : Shared} {p p' : Sup} {ev : SupEv} {eff : Eff}

/-- The session has ended in a restart, and that was reported. -/
def Alarmed (p : Sup) : Prop := (∃ reason, p.outcome = some (.restart reason)) ∧ p.pc.warned = true

/-- A session whose fault was reported has ended in a restart. -/
theorem Alarmed.stopped (h : p.Alarmed) : p.Stopped := by
  obtain ⟨⟨reason, ho⟩, hpc⟩ := h
  cases hp : p.pc <;> simp_all [Stopped, Pc.warned, Pc.reported, Pc.ending]

/-- Only a session that has ended in a restart reports a fault. -/
theorem alarmed_of_sendFatal (hc : p.Coherent) {reason : String}
    (h : p.step cx sh ev = some (p', .sendFatal reason)) : p'.Alarmed := by
  revert h
  fun_cases Sup.step cx sh p ev
  all_goals intro h
  all_goals simp only [Option.some.injEq, Prod.mk.injEq, reduceCtorEq, and_false] at h
  all_goals obtain ⟨rfl, he⟩ := h
  all_goals try (simp_all [Alarmed, Pc.warned, Coherent]; done)
  -- an operation that depends on the state found
  all_goals split at he <;> cases he

/-- A session whose fault was reported goes on to the end. -/
theorem Alarmed.step (hc : p.Coherent) (ha : p.Alarmed) (h : p.step cx sh ev = some (p', eff)) :
    p'.Alarmed := by
  obtain ⟨⟨reason, ho⟩, hpc⟩ := ha
  refine ⟨⟨reason, (step_settled hc ho h).1⟩, ?_⟩
  -- the session is over, so that no force stop drops it any more
  have hk : killable p.pc = false := by
    cases hp : p.pc <;> simp_all [Pc.warned, killable]
  revert h
  fun_cases Sup.step cx sh p ev
  all_goals intro h
  all_goals simp only [Option.some.injEq, Prod.mk.injEq, reduceCtorEq] at h
  all_goals obtain ⟨rfl, rfl⟩ := h
  all_goals simp_all [Pc.warned]

end Sup

namespace Sys

variable {cx : Ctx} {s s' : Sys} {l : Label}

/-- A running worker was sent `SIGKILL`. -/
def Slain (s : Sys) : Prop := ∀ pid, s.sh.child = .running pid → (pid, .kill) ∈ s.sh.signals

/-- A running worker stays the one it is, and signals stay sent. -/
theorem Slain.apply {sh : Shared} {eff : Eff} (he : ∀ pid, eff ≠ .spawn pid)
    (hs : ∀ pid, sh.child = .running pid → (pid, .kill) ∈ sh.signals) (pid : Nat)
    (hrun : (sh.apply eff).child = .running pid) : (pid, .kill) ∈ (sh.apply eff).signals := by
  have hkept : sh.signals ⊆ (sh.apply eff).signals := by
    cases eff <;> simp [Shared.apply, Shared.signalChild]
  have hold : sh.child = .running pid := by
    cases eff with
    | spawn p => exact absurd rfl (he p)
    | reap =>
      have hreap : sh.child.reap = .running pid := hrun
      cases hchild : sh.child <;> simp_all [Child.reap]
    | _ => exact hrun
  exact hkept (hs pid hold)

/-- A wait for the worker fails before it was sent `SIGKILL`. -/
def losesSight (s : Sys) : Label → Bool
  | .sup (.waitFailed _) =>
    match s.sup.pc with
    | .reaping .. => true
    | _ => false
  | _ => false

/-- What `shutdown_child` gives up was sent `SIGKILL`. -/
theorem slain_of_gaveUp (hr : s.Raised) {ev : SupEv} {p : Sup} {eff : Eff}
    (hp : s.sup.step cx s.sh ev = some (p, eff)) (hgave : s.sup.gaveUp ev = true)
    (hsight : s.losesSight (.sup ev) = false) :
    Slain { s with sup := p, sh := s.sh.apply eff } := by
  obtain ⟨reason, deadline, hpc⟩ : ∃ r t, s.sup.pc = .reapingKilled r t := by
    cases ev <;> cases hpc : s.sup.pc <;> simp_all [Sup.gaveUp, losesSight]
  have heff : eff = .skip := by
    cases ev <;> simp_all [Sup.gaveUp, Sup.step]
  subst heff
  intro pid hrun
  exact hr.escalated reason deadline pid hpc (by rw [show s.sh.child = .running pid from hrun]; rfl)

/-- After `shutdown_child` a worker that still runs was sent `SIGKILL`. -/
theorem slain_step (hr : (handle cx).Reachable s) (hs : s.sup.Stopped → s.Slain)
    (hsight : s.losesSight l = false) (h : s.step cx l = some s') : s'.sup.Stopped → s'.Slain := by
  intro hstopped
  rcases step_cases h with
    ⟨ev, p, eff, rfl, hp, rfl⟩ | ⟨key, ev, c, eff, -, hc, rfl⟩ | ⟨n, -, rfl⟩ | ⟨status, -, rfl⟩
  · rcases Sup.step_stopped (Handshake.reachable hr).coherent hp hstopped with
      ⟨hold, he⟩ | ⟨rfl, hstatus⟩ | hgave
    · exact Slain.apply he (hs hold)
    -- the worker was waited for, so that none runs
    · intro pid hrun
      have hreap : s.sh.child.reap = .running pid := hrun
      cases hchild : s.sh.child <;> simp_all [Child.reap, Child.status]
    · exact slain_of_gaveUp (Raised.reachable hr) hp hgave hsight
  · exact Slain.apply (not_spawn_of_call (Call.step_moved hc).does) (hs hstopped)
  · exact hs hstopped
  · intro pid hrun
    have hexit : s.sh.child.exit status = .running pid := hrun
    cases hchild : s.sh.child <;> simp_all [Child.exit]

/-- A supervisor that has dropped its `Child` has sent `SIGKILL` to a worker that still runs. -/
theorem slain_of_gone (h : (handle cx).Reachable s) : s.sup.pc.gone = true → s.Slain := by
  refine Machine.invariant_of_step (P := fun s => s.sup.pc.gone = true → s.Slain) ?_ ?_ h
  · exact nofun
  · intro s l s' hs hstep hgone
    rcases step_cases hstep with
      ⟨ev, p, eff, -, hp, rfl⟩ | ⟨key, ev, c, eff, -, hc, rfl⟩ | ⟨n, -, rfl⟩ | ⟨status, -, rfl⟩
    · rcases (Sup.step_gone hp).mp hgone with hold | rfl
      · refine Slain.apply ?_ (hs hold)
        rintro pid rfl
        have hpc : s.sup.pc = .spawning := Sup.step_does hp
        rw [hpc] at hold
        cases hold
      -- `kill_on_drop`
      · intro pid hrun
        have hchild : s.sh.child = .running pid := hrun
        simp [Shared.apply, Shared.signalChild, hchild, Child.id]
    · exact Slain.apply (not_spawn_of_call (Call.step_moved hc).does) (hs hgone)
    · exact hs hgone
    · intro pid hrun
      have hexit : s.sh.child.exit status = .running pid := hrun
      cases hchild : s.sh.child <;> simp_all [Child.exit]

/-- A fault was reported only of a session that has ended in a restart. -/
def Warns (s : Sys) : Prop := s.sh.fatal ≠ [] → s.sup.Alarmed

/-- While no call marks the handle failed, the supervisor alone reports a fault. -/
theorem Warns.step (hw : s.Warns) (hc : s.sup.Coherent)
    (hcalls : ∀ key, (s'.calls key).kind ≠ .markFailed) (h : s.step cx l = some s') :
    s'.Warns := by
  intro hfatal
  rcases step_cases h with
    ⟨ev, p, eff, -, hp, rfl⟩ | ⟨key, ev, c, eff, -, hc', rfl⟩ | ⟨n, -, rfl⟩ | ⟨status, -, rfl⟩
  · by_cases hsend : ∃ reason, eff = .sendFatal reason
    · obtain ⟨reason, rfl⟩ := hsend
      exact Sup.alarmed_of_sendFatal hc hp
    · have hkept : (s.sh.apply eff).fatal = s.sh.fatal := by
        cases eff with
        | sendFatal reason => exact absurd ⟨reason, rfl⟩ hsend
        | _ => rfl
      exact (hw (hkept ▸ hfatal)).step hc hp
  -- of the calls only `mark_failed` reports a fault, and nobody makes it
  · have hkept : (s.sh.apply eff).fatal = s.sh.fatal := by
      cases eff with
      | sendFatal reason =>
        obtain ⟨stage, rfl⟩ := Call.step_sendFatal hc'
        exact absurd (by simp [Call.kind]) (hcalls key)
      | _ => rfl
    exact hw (hkept ▸ hfatal)
  · exact hw hfatal
  · exact hw hfatal

/-- A fault that was reported stays so. -/
theorem fatal_step (h : s.step cx l = some s') (hfatal : s.sh.fatal ≠ []) : s'.sh.fatal ≠ [] := by
  have hkept : ∀ eff, (s.sh.apply eff).fatal ≠ [] := fun eff => by
    cases eff <;> simp [Shared.apply, Shared.signalChild, hfatal]
  rcases step_cases h with
    ⟨ev, p, eff, -, hp, rfl⟩ | ⟨key, ev, c, eff, -, hc', rfl⟩ | ⟨n, -, rfl⟩ | ⟨status, -, rfl⟩
  · exact hkept eff
  · exact hkept eff
  · exact hfatal
  · exact hfatal

end Sys

/-- The watcher acts on a fault. -/
def WatchPc.alarmed : WatchPc → Bool
  | .reporting _ | .killing | .awaitKill => true
  | _ => false

/-- The watcher is about to exit the process. -/
def WatchPc.fires : WatchPc → Bool
  | .killing | .awaitKill => true
  | _ => false

/-- A watcher that is to exit the process has seen the fault. -/
theorem WatchPc.alarmed_of_fires {pc : WatchPc} (h : pc.fires = true) : pc.alarmed = true := by
  cases pc <;> first | rfl | cases h

/-! ### Runs of the process to replay -/

namespace Replay

/-- What `main` and the watcher do, `n` times. -/
def mains (n : Nat) : List Action := List.replicate n (.main .go)

/-- Steps below. -/
def below (ms : List Move) : List Action := ms.map .joint

/-- The process starts the worker. -/
def launched : List Action := mains 1 ++ below started

/-- The readiness future returns, and the process serves. -/
def serving : List Action :=
  launched ++ below [.daemon (.call 0 .go), .daemon (.call 0 .go)] ++ mains 4 ++ [.watch .go]

/-- The worker exits, and the supervisor reports it and comes to its end. -/
def died : List Action :=
  below (.daemon (.exit "exit status: 1") :: [sup .reap] ++ goes 3 ++ [sup .reap] ++ goes 8)

/-- The watcher exits the process after its grace. -/
def fired : List Action :=
  [.watch .go, .watch .go, .watch .go, .joint (.daemon (.call Daemon.killKey .go)), .watch .go,
    .joint (.daemon (.tick failFastGrace)), .fuse]

/-- A signal while the worker loads, with a supervisor that does not come to act: the shutdown
    of `main` gives up waiting, and the process returns. -/
def interrupted : List Action :=
  mains 1 ++ below (goes 1 ++ [sup (.spawned 7)] ++ goes 1) ++ [.main .signal, .main .go] ++
    below [.daemon (.call 1 .go), .daemon (.call 1 .go),
      .daemon (.tick config.shutdownTimeout), .daemon (.call 1 .elapsed),
      .daemon (.call 1 .go), .daemon (.call 1 .go),
      .daemon (.tick config.shutdownTimeout), .daemon (.call 1 .elapsed),
      .daemon (.call 1 .go)] ++ mains 2

end Replay

namespace Daemon

variable {σ : Type} {w : World σ} {d d' : Daemon σ} {a : Action}

/-- In every reachable state of the process a reported fault is that of the session. -/
theorem warns (h : (daemon w).Reachable d) : d.sys.Warns := by
  refine Machine.Reachable.induct (P := fun d : Daemon σ => d.sys.Warns) ?_ ?_ h
  · intro hfatal
    exact absurd rfl hfatal
  · intro d a d' hr hs hstep
    rcases step_sys hstep with he | ⟨l, hl, -⟩
    · rwa [he]
    · refine hs.step (Sys.Handshake.reachable (reachable_sys hr)).coherent (fun key hkind => ?_) hl
      rcases calls_owned (hr.step hstep) key with hk | hk
      · rw [hk] at hkind
        cases hkind
      · rw [hk, kindOf] at hkind
        repeat' split at hkind
        all_goals cases hkind

/-- What the watcher does, and an exit that is due, comes from a fault that was reported; the
    process is only exited if it is to fail fast. -/
structure Alert (w : World σ) (d : Daemon σ) : Prop where
  watch : d.watch.alarmed = true → d.sys.sh.fatal ≠ []
  fires : d.watch.fires = true → w.cx.config.failFast = true
  fuse : d.fuse ≠ none → d.sys.sh.fatal ≠ [] ∧ w.cx.config.failFast = true

/-- A fault that was reported stays reported. -/
theorem fatal_step (h : d.step w a = some d') (hfatal : d.sys.sh.fatal ≠ []) :
    d'.sys.sh.fatal ≠ [] := by
  rcases step_sys h with he | ⟨l, hl, -⟩
  · rwa [he]
  · exact Sys.fatal_step hl hfatal

/-- `main` leaves the watcher alone but for spawning it. -/
theorem mainStep_watch {ev : MainEv} (h : d.mainStep w ev = some d') :
    (d'.watch = d.watch ∨ d'.watch = .taking) ∧ d'.fuse = d.fuse := by
  revert h
  fun_cases Daemon.mainStep w d ev
  all_goals intro h
  all_goals first
    | (cases h; done)
    | (cases h; exact ⟨.inl rfl, rfl⟩)
    | (cases h; exact ⟨.inr rfl, rfl⟩)
    | skip
  all_goals
    obtain ⟨t, hl, rfl⟩ := Option.map_eq_some_iff.mp h
    first
      | exact ⟨.inl rfl, rfl⟩
      | (rw [lower_eq hl]; exact ⟨.inl rfl, rfl⟩)

/-- The watcher acts on a fault, exits only to fail fast, and only after it has tried a kill. -/
theorem watchStep_alarmed {ev : WatchEv} (h : d.watchStep w ev = some d') :
    (d'.watch.alarmed = true →
      d.watch.alarmed = true ∨ d.sys.sh.fatal ≠ []) ∧
    (d'.watch.fires = true →
      d.watch.fires = true ∨ w.cx.config.failFast = true) ∧
    (d'.fuse = d.fuse ∨ d.watch.fires = true) := by
  revert h
  fun_cases Daemon.watchStep w d ev
  all_goals intro h
  all_goals first
    | (cases h; done)
    | (cases h; simp_all [WatchPc.alarmed, WatchPc.fires]; done)
    | skip
  case case4 hpc =>
    cases h
    dsimp only
    refine ⟨fun _ => .inl (by rw [hpc]; rfl), fun hfires => ?_, .inl rfl⟩
    split at hfires
    · exact .inr ‹_›
    · cases hfires
  all_goals
    obtain ⟨t, hl, rfl⟩ := Option.map_eq_some_iff.mp h
    obtain ⟨joint, -, rfl⟩ := Option.map_eq_some_iff.mp hl
    simp_all [WatchPc.alarmed, WatchPc.fires]

/-- The watcher goes on to act on a reported fault only. -/
theorem Alert.step (ha : d.Alert w) (h : d.step w a = some d') : d'.Alert w := by
  have hfatal := fatal_step h
  have hkeep : d'.watch = d.watch → d'.fuse = d.fuse → d'.Alert w := fun hwatch hfuse =>
    ⟨fun hw => hfatal (ha.watch (hwatch ▸ hw)), fun hw => ha.fires (hwatch ▸ hw),
      fun hf => ⟨hfatal (ha.fuse (hfuse ▸ hf)).1, (ha.fuse (hfuse ▸ hf)).2⟩⟩
  cases tasked h with
  | main h =>
    obtain ⟨hwatch | hwatch, hfuse⟩ := mainStep_watch h
    · exact hkeep hwatch hfuse
    · refine ⟨fun hw => ?_, fun hw => ?_, fun hf => ?_⟩
      · rw [hwatch] at hw
        cases hw
      · rw [hwatch] at hw
        cases hw
      · exact ⟨hfatal (ha.fuse (hfuse ▸ hf)).1, (ha.fuse (hfuse ▸ hf)).2⟩
  | watch h =>
    obtain ⟨hwatch, hfires, hfuse⟩ := watchStep_alarmed h
    refine ⟨fun hw => hfatal ((hwatch hw).elim ha.watch id),
      fun hw => (hfires hw).elim ha.fires id, fun hf => ?_⟩
    rcases hfuse with hfuse | hfires
    · obtain ⟨hold, hff⟩ := ha.fuse (hfuse ▸ hf)
      exact ⟨hfatal hold, hff⟩
    · exact ⟨hfatal (ha.watch (WatchPc.alarmed_of_fires hfires)), ha.fires hfires⟩
  | other _ _ he => exact hkeep (by rw [he]) (by rw [he])

/-- In every reachable state the watcher acts on a reported fault only. -/
theorem alert (h : (daemon w).Reachable d) : d.Alert w := by
  refine Machine.invariant_of_step (P := fun d : Daemon σ => d.Alert w) ?_ ?_ h
  · exact ⟨nofun, nofun, nofun⟩
  · exact fun d a d' ha hstep => ha.step hstep

/-! ### The end of the process -/

/-- How the process has ended: it could not bind, `main` has returned and the tasks were dropped,
    or it was exited. -/
inductive Ended (w : World σ) (d : Daemon σ) (code : Nat) : Prop where
  | unbound (hmain : d.main = .binding) (hcode : code = failFastExitCode)
  | returned (hmain : d.main = .returning code) (hdrop : d.onDrop = dropped d.sys)
  | exited (hfuse : d.fuse ≠ none) (hcode : code = failFastExitCode)

/-- What `main` ends the process by. -/
theorem mainStep_exit {ev : MainEv} (h : d.mainStep w ev = some d') :
    d'.exit = d.exit ∨ (d.main = .binding ∧ d' = { d with exit := some failFastExitCode }) ∨
      ∃ code, d.main = .returning code ∧
        d' = { d with exit := some code, onDrop := dropped d.sys } := by
  revert h
  fun_cases Daemon.mainStep w d ev
  all_goals intro h
  all_goals first
    | (cases h; done)
    | (cases h; exact .inl rfl)
    | skip
  case case2 hmain =>
    cases h
    exact .inr (.inl ⟨hmain, rfl⟩)
  case case3 =>
    obtain ⟨main, -, rfl⟩ := Option.map_eq_some_iff.mp h
    exact .inl rfl
  case case23 code hmain =>
    cases h
    exact .inr (.inr ⟨code, hmain, rfl⟩)
  all_goals
    obtain ⟨t, hl, rfl⟩ := Option.map_eq_some_iff.mp h
    obtain ⟨joint, -, rfl⟩ := Option.map_eq_some_iff.mp hl
    exact .inl rfl

/-- A process that has ended has done so in one of the three ways. -/
theorem ended (h : (daemon w).Reachable d) {code : Nat} (hexit : d.exit = some code) :
    Ended w d code := by
  refine Machine.invariant_of_step
    (P := fun d : Daemon σ => ∀ code, d.exit = some code → Ended w d code) ?_ ?_ h code hexit
  · exact nofun
  · intro d a d' hs hstep code hexit
    obtain ⟨hnone, hstepped⟩ := stepped hstep
    have hkept : d'.exit ≠ d.exit := by simp [hexit, hnone]
    cases hstepped with
    | joint _ _ h => exact absurd (by rw [lower_eq h]) hkept
    | main h =>
      rcases mainStep_exit h with he | ⟨hmain, rfl⟩ | ⟨code', hmain, rfl⟩
      · exact absurd he hkept
      · cases hexit
        exact .unbound hmain rfl
      · cases hexit
        exact .returned hmain rfl
    | watch h => exact absurd (watchStep_kept h).1.1 hkept
    | fuse hfuse =>
      cases hexit
      exact .exited (by simp [hfuse]) rfl
    | request _ _ _ h =>
      obtain ⟨pc, he⟩ := arrive_eq h
      exact absurd (by rw [he]) hkept
    | respond => exact absurd rfl hkept

/-! ### No worker is left behind -/

/-- Before the port is bound nothing has begun. -/
structure Unbegun (w : World σ) (d : Daemon σ) : Prop where
  joint : d.joint = (Layad.joint w).init
  watch : d.watch = .unborn
  fuse : d.fuse = none

/-- `main` never binds again. -/
theorem mainStep_bound {ev : MainEv} (h : d.mainStep w ev = some d') (hmain : d'.main = .binding) :
    d.main = .binding ∧ d' = { d with exit := some failFastExitCode } := by
  revert h
  fun_cases Daemon.mainStep w d ev
  all_goals intro h
  all_goals first
    | (cases h; done)
    | (cases h; cases hmain)
    | skip
  case case2 hbind =>
    cases h
    exact ⟨hbind, rfl⟩
  case case23 hreturn =>
    cases h
    exact absurd (hreturn.symm.trans hmain) (by simp)
  case case3 =>
    obtain ⟨main, hafter, rfl⟩ := Option.map_eq_some_iff.mp h
    obtain rfl : main = .binding := hmain
    unfold afterStart at hafter
    split at hafter <;> cases hafter
  case case18 =>
    cases h
    dsimp only at hmain
    split at hmain <;> cases hmain
  all_goals
    obtain ⟨t, -, rfl⟩ := Option.map_eq_some_iff.mp h
    cases hmain

/-- In every reachable state nothing has begun before the port is bound. -/
theorem unbegun (h : (daemon w).Reachable d) : d.main = .binding → Unbegun w d := by
  refine Machine.invariant_of_step (P := fun d : Daemon σ => d.main = .binding → Unbegun w d)
    ?_ ?_ h
  · exact fun _ => ⟨rfl, rfl, rfl⟩
  · intro d a d' hs hstep hmain
    cases (stepped hstep).2 with
    | main h =>
      obtain ⟨hold, rfl⟩ := mainStep_bound h hmain
      exact ⟨(hs hold).joint, (hs hold).watch, (hs hold).fuse⟩
    | joint hbound _ h =>
      rw [lower_eq h] at hmain
      exact absurd hmain hbound
    | watch h =>
      obtain ⟨⟨-, hkept, -⟩, hborn⟩ := watchStep_kept h
      exact absurd (hs (hkept ▸ hmain)).watch hborn
    | fuse hfuse => exact absurd ((hs hmain).fuse ▸ hfuse) (by simp)
    | request hbound _ _ h =>
      obtain ⟨pc, he⟩ := arrive_eq h
      rw [he] at hmain
      exact absurd hmain hbound
    | respond => exact ⟨(hs hmain).joint, (hs hmain).watch, (hs hmain).fuse⟩

/-- A wait for the worker fails before it was sent `SIGKILL`. -/
def losesSight (d : Daemon σ) : Action → Bool
  | .joint (.daemon l) => d.sys.losesSight l
  | _ => false

/-- While no wait fails too early, a worker that outlives its session was sent `SIGKILL`. -/
theorem slain_of_stopped (h : ((daemon w).restrict fun d a => !d.losesSight a).Reachable d) :
    d.sys.sup.Stopped → d.sys.Slain := by
  refine Machine.invariant_of_restrict
    (P := fun d : Daemon σ => d.sys.sup.Stopped → d.sys.Slain) ?_ ?_ h
  · rintro (hs | ⟨hs, -⟩) <;> cases hs
  · intro d a d' hr hs hguard hstep
    rcases step_sys hstep with he | ⟨l, hl, hbelow⟩
    · rwa [he]
    · refine Sys.slain_step (reachable_sys hr) hs ?_ hl
      cases hbelow with
      | own h => simpa [losesSight] using hguard
      | _ => rfl

/-- **No worker is left behind.**  Whenever the process has ended, by the return of `main` or by
    `process::exit`, a worker that still runs was sent `SIGKILL`, or is killed because its
    `Child` is dropped with the tasks; unless a wait for it had failed before. -/
theorem no_orphan (h : ((daemon w).restrict fun d a => !d.losesSight a).Reachable d)
    {code pid : Nat} (hexit : d.exit = some code) (hrun : d.sys.sh.child = .running pid) :
    (pid, .kill) ∈ d.sys.sh.signals ∨ d.onDrop = some pid := by
  have hr := Machine.Reachable.of_restrict h
  cases ended hr hexit with
  | unbound hmain =>
    have hinit : d.sys = Sys.init w.cx := by rw [sys, (unbegun hr hmain).joint]; rfl
    rw [hinit] at hrun
    cases hrun
  -- the tasks are dropped, and with them the `Child`, unless the supervisor has dropped it before
  | returned hmain hdrop =>
    by_cases hgone : d.sys.sup.pc.gone = true
    · exact .inl (Sys.slain_of_gone (reachable_sys hr) hgone pid hrun)
    · rw [hdrop, dropped, if_neg hgone, hrun]
      exact .inr rfl
  -- nothing is dropped; but the fault was reported after `shutdown_child`
  | exited hfuse =>
    have halarmed := warns hr ((alert hr).fuse hfuse).1
    exact .inl (slain_of_stopped h halarmed.stopped pid hrun)

open Replay in
/-- The result at a run: the process returns after a signal, and drops a worker that runs. -/
theorem no_orphan_interrupted : ∃ d, (daemon world).Reachable d ∧ d.exit = some 0 ∧
    d.sys.sh.child = .running 7 ∧ ((7, .kill) ∈ d.sys.sh.signals ∨ d.onDrop = some 7) := by
  have hrun : (((daemon world).restrict fun d a => !d.losesSight a).exec (daemon world).init
      interrupted).map (fun d => decide (d.exit = some 0 ∧ d.sys.sh.child = .running 7)) =
        some true := by decide +kernel
  obtain ⟨d, hd, hv⟩ := Machine.reachable_of_exec hrun
  obtain ⟨hexit, hchild⟩ := of_decide_eq_true hv
  exact ⟨d, Machine.Reachable.of_restrict hd, hexit, hchild, no_orphan hd hexit hchild⟩

/-! ### The cause -/

/-- The readiness future has returned an error: the worker did not start. -/
def StartLost (s : Sys) : Prop := ∃ err, s.calls 0 = .readiness (.over (some (.error err)))

/-- `main` has met no signal, and the server has not ended. -/
def Steady (d : Daemon σ) : Prop :=
  match d.main with
  | .binding | .starting | .attaching | .publishing | .spawnWatch | .serving => True
  | .startFailed _ => StartLost d.sys
  | .returning code => code = failFastExitCode ∧ StartLost d.sys
  | _ => False

/-- A signal, or the end of the server. -/
def disturbs : Action → Bool
  | .main .signal | .main (.serverEnded _) => true
  | _ => false

/-- The error that the readiness future returned stays. -/
theorem StartLost.step (hs : StartLost d.sys) (h : d.step w a = some d') : StartLost d'.sys := by
  obtain ⟨err, hover⟩ := hs
  rcases step_sys h with he | ⟨l, hl, -⟩
  · exact ⟨err, by rw [he, hover]⟩
  · rcases Sys.step_cases hl with
      ⟨ev, p, eff, -, hp, he⟩ | ⟨key, ev, c, eff, -, hc, he⟩ | ⟨n, -, he⟩ | ⟨status, -, he⟩
    · exact ⟨err, by rw [he, hover]⟩
    · by_cases hkey : key = 0
      · rw [hkey, hover] at hc
        cases hc
      · exact ⟨err, by rw [he]; simp [Function.update_of_ne (Ne.symm hkey), hover]⟩
    · exact ⟨err, by rw [he, hover]⟩
    · exact ⟨err, by rw [he, hover]⟩

/-- Without a signal, and while the server runs, `main` only serves or reports its start. -/
theorem Steady.main {ev : MainEv} (hs : Steady d) (hd : disturbs (.main ev) = false)
    (h : d.mainStep w ev = some d') : Steady d' := by
  revert h
  fun_cases Daemon.mainStep w d ev
  all_goals intro h
  all_goals first
    | (cases h; done)
    | (cases hd; done)
    | (cases h; simp_all [Steady]; done)
    | (exfalso; simp_all [Steady]; done)
    | skip
  case case3 =>
    obtain ⟨main, hafter, rfl⟩ := Option.map_eq_some_iff.mp h
    unfold afterStart at hafter
    split at hafter <;> cases hafter
    · trivial
    · exact ⟨_, ‹_›⟩
    · exact ⟨_, ‹_›⟩
  case case6 hmain =>
    cases h
    rw [Steady, hmain] at hs
    exact ⟨rfl, hs⟩
  case case23 hmain =>
    cases h
    rw [Steady, hmain] at hs ⊢
    exact hs

/-- Without a signal, and while the server runs, `main` stays as it is or goes on serving. -/
theorem Steady.step (hs : Steady d) (hd : disturbs a = false) (h : d.step w a = some d') :
    Steady d' := by
  have hlost := fun hs : StartLost d.sys => hs.step h
  have hkeep : d'.main = d.main → Steady d' := fun hmain => by
    unfold Steady at hs ⊢
    rw [hmain]
    split at hs <;> simp_all
  cases tasked h with
  | main h => exact hs.main hd h
  | watch h => exact hkeep (watchStep_kept h).1.2.1
  | other _ _ he => exact hkeep (by rw [he])

/-- In every run without a signal in which the server does not end, `main` is steady. -/
theorem steady (h : ((daemon w).restrict fun _ a => !disturbs a).Reachable d) : Steady d := by
  refine Machine.invariant_of_restrict (P := fun d : Daemon σ => Steady d) ?_ ?_ h
  · trivial
  · exact fun d a d' _ hs hguard hstep => hs.step (by simpa using hguard) hstep

/-- **The process ends for a cause.**  Unless it was sent a signal or its server ended, it ends
    with the exit code of a daemon that fails closed, and only because it could not bind, because
    the worker did not start, or because the worker was lost and it is to fail fast. -/
theorem exits_for_cause (h : ((daemon w).restrict fun _ a => !disturbs a).Reachable d) {code : Nat}
    (hexit : d.exit = some code) :
    code = failFastExitCode ∧
      (d.joint = (Layad.joint w).init ∨ StartLost d.sys ∨
        w.cx.config.failFast = true ∧ ∃ reason, d.sys.sup.outcome = some (.restart reason)) := by
  have hr := Machine.Reachable.of_restrict h
  cases ended hr hexit with
  | unbound hmain hcode => exact ⟨hcode, .inl (unbegun hr hmain).joint⟩
  | returned hmain =>
    obtain ⟨hcode, hlost⟩ : code = failFastExitCode ∧ StartLost d.sys := by
      simpa [Steady, hmain] using steady h
    exact ⟨hcode, .inr (.inl hlost)⟩
  | exited hfuse hcode =>
    obtain ⟨hfatal, hfast⟩ := (alert hr).fuse hfuse
    exact ⟨hcode, .inr (.inr ⟨hfast, (warns hr hfatal).1⟩)⟩

open Replay in
/-- The result at a run: the worker exits while the process serves. -/
theorem exits_for_cause_died : ∃ d code, (daemon world).Reachable d ∧ d.exit = some code ∧
    code = failFastExitCode ∧
      (d.joint = (Layad.joint world).init ∨ StartLost d.sys ∨ world.cx.config.failFast = true ∧
        ∃ reason, d.sys.sup.outcome = some (.restart reason)) := by
  have hrun : (((daemon world).restrict fun _ a => !disturbs a).exec (daemon world).init
      (serving ++ died ++ fired)).map (fun d => d.exit) = some (some 70) := by decide +kernel
  obtain ⟨d, hd, hexit⟩ := Machine.reachable_of_exec hrun
  exact ⟨d, 70, Machine.Reachable.of_restrict hd, hexit, exits_for_cause hd hexit⟩

end Daemon

end Layad
