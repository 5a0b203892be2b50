import Layad.Joint.Answers

namespace Layad

open Channel Transition

/-!
# Ready means ready

The daemon calls a worker ready, publishes what it is and sends it requests only if its start
went well: the model was loaded, the memory budget applied, the warm-up passed, and the device
is known (`Joint.ready_sound`).
-/

/-- What a start that goes well comes to. -/
theorem Worker.greeting_ok {σ : Type} {rt : Runtime} {args : Args} {agent : Agent σ}
    {startup : Startup σ} {info : WorkerInfo} (h : greeting rt args agent startup = .ok info) :
    ∃ s limits types t, startup.load = .ok s ∧
      applyMemoryBudget args startup.mlx = .ok limits ∧ warmup args agent s = (.ok types, t) ∧
      info = reported rt args (deviceLabel startup.device) ∧ info.device ≠ "unknown" := by
  unfold greeting at h
  split at h
  · cases h
  rename_i s hload
  split at h
  · cases h
  rename_i limits hbudget
  split at h
  · cases h
  rename_i types hwarm
  dsimp only at h
  split at h
  · cases h
  rename_i hdevice
  cases h
  refine ⟨s, limits, types, (warmup args agent s).2, hload, hbudget, ?_, rfl, hdevice⟩
  rw [← hwarm]

namespace Sup

variable {cx : Ctx} {sh : Shared} {p p' : Sup} {ev : SupEv} {eff : Eff}

/-- The worker as it is being announced. -/
def announcing (p : Sup) : Option WorkerInfo :=
  match p.pc with
  | .readyState info | .readyInfo info | .readySettle info => some info
  | _ => none

/-- A ready line was accepted. -/
def Accepts (p : Sup) (info : WorkerInfo) : Prop := ∃ line ∈ p.lines, line.fate = .ready info

/-- A ready line that was accepted stays accepted. -/
theorem Accepts.mono {info : WorkerInfo} (h : p.Accepts info) (hl : p.lines <+: p'.lines) :
    p'.Accepts info := by
  obtain ⟨line, hmem, hfate⟩ := h
  exact ⟨line, hl.subset hmem, hfate⟩

/-- A worker is announced while the session goes on. -/
theorem Coherent.not_announcing (hc : p.Coherent) (ho : p.outcome.isSome = true) :
    p.announcing = none := by
  unfold announcing
  split <;> simp_all [Coherent]

/-- A frame that leads to an announcement is an accepted ready line. -/
theorem Files.accepts {frame : Except String Frame} (h : Files cx sh p p' frame)
    (hc : p'.Coherent) (hends : (∃ text, frame = .ok (.line text)) ∨ p'.outcome.isSome = true)
    {info : WorkerInfo} (ha : p'.announcing = some info) : p'.Accepts info := by
  have ho : p'.outcome.isSome = true → p'.Accepts info := fun ho => by
    rw [hc.not_announcing ho] at ha
    cases ha
  rcases h with ⟨text, fate, rfl, hl, hfiled⟩ | ⟨hno, -⟩
  · cases fate with
    | ready info' =>
      obtain ⟨-, -, hpc, -⟩ := hfiled
      rw [announcing, hpc] at ha
      cases ha
      exact ⟨⟨text, .ready info⟩, by rw [hl]; simp, rfl⟩
    | reply id body =>
      obtain ⟨value, key, -, -, -, -, hpc, -⟩ := hfiled
      rw [announcing, hpc] at ha
      cases ha
    | ended =>
      obtain ⟨⟨reason, hout⟩, -⟩ := hfiled
      exact ho (by rw [hout]; rfl)
  · exact ho (hends.resolve_left fun ⟨text, ht⟩ => hno text ht)

/-- What is announced was announced before, or is accepted now. -/
theorem step_announcing (hc : p.Coherent) (h : p.step cx sh ev = some (p', eff))
    {info : WorkerInfo} (ha : p'.announcing = some info) :
    p.announcing = some info ∨ p'.Accepts info := by
  rcases step_turns h with ⟨hread, -⟩ | ⟨source, p₁, result, rfl, -, hr, -, -, hdone⟩
  · left
    have hc' := hc.step h
    have hout : p'.outcome = none := by
      by_contra hne
      rw [hc'.not_announcing (Option.isSome_iff_ne_none.mpr hne)] at ha
      cases ha
    revert h
    fun_cases Sup.step cx sh p ev
    all_goals intro h
    all_goals simp only [Option.some.injEq, Prod.mk.injEq, reduceCtorEq] at h
    all_goals obtain ⟨rfl, rfl⟩ := h
    all_goals first
      | exact absurd rfl (hread _)
      | (rename Option String => reason
         cases reason <;> cases ha)
      | simp_all [announcing]
  · rcases hdone with ⟨-, rfl⟩ | ⟨frame, -, hfiles, hends⟩
    · left
      obtain ⟨buf, avail, rfl⟩ := read_eq hr
      exact ha
    · exact .inr (hfiles.accepts (hc.step h) hends ha)

end Sup

/-- The readiness future returns without an error once the handshake is settled. -/
theorem Call.step_started {cx : Ctx} {sh : Shared} {key : Nat} {c c' : Call} {ev : CallEv}
    {eff : Eff} (h : c.step cx sh key ev = some (c', eff))
    (hover : c' = .readiness (.over (some (.ok ())))) :
    ∃ info, sh.ready.slot = .sent (.ok info) := by
  cases stepped h with
  | started request hs =>
    revert hs
    fun_cases start sh request
    all_goals rintro ⟨⟩
    all_goals cases hover
  | @readiness pc pc' eff hs =>
    obtain rfl := Call.readiness.inj hover
    revert hs
    fun_cases readinessStep cx sh key pc ev
    all_goals intro hs
    case case10 err pc₀ =>
      obtain ⟨pc₁, -, ⟨-, hno⟩ | ⟨e, hno⟩⟩ := stopping_cases hs
      · cases err <;> cases hno
      · cases hno
    all_goals simp_all
  | predict | shutdown | killNow | markFailed => cases hover

namespace Sys

variable {cx : Ctx} {s : Sys}

/-- What the handle says of the worker comes from an accepted ready line. -/
structure Informed (s : Sys) : Prop where
  announcing : ∀ info, s.sup.announcing = some info → s.sup.Accepts info
  info : ∀ info, s.sh.info = some info → s.sup.Accepts info
  state : s.sh.state = .ready → ∃ info, s.sup.Accepts info
  slot : ∀ info, s.sh.ready.slot = .sent (.ok info) → s.sup.Accepts info
  started : ∀ k, s.calls k = .readiness (.over (some (.ok ()))) → ∃ info, s.sup.Accepts info

/-- At the start the handle says nothing of a worker. -/
theorem Informed.init (cx : Ctx) : (Sys.init cx).Informed where
  announcing _ h := by simp [Sys.init, Sup.init, Sup.announcing] at h
  info _ h := by simp [Sys.init] at h
  state h := by simp [Sys.init] at h
  slot _ h := by simp [Sys.init] at h
  started k h := by
    simp only [Sys.init] at h
    split at h <;> cases h

/-- The supervisor announces a worker of an accepted ready line only. -/
theorem Informed.sup (hs : s.Informed) (hc : s.sup.Coherent) {ev : SupEv} {p : Sup} {eff : Eff}
    (hp : s.sup.step cx s.sh ev = some (p, eff)) :
    Informed { s with sup := p, sh := s.sh.apply eff } := by
  have hd := Sup.step_does hp
  have hmono : ∀ {info}, s.sup.Accepts info → p.Accepts info := fun h =>
    h.mono (Sup.lines_mono hp)
  refine ⟨fun info ha => ?_, fun info hi => ?_, fun hstate => ?_, fun info hslot => ?_,
    fun k hk => (hs.started k hk).imp fun _ => hmono⟩
  · -- a worker is announced with its ready line
    exact (Sup.step_announcing hc hp ha).elim (fun h => hmono (hs.announcing info h)) id
  · cases eff with
    -- the metadata, the state and the handshake follow the announcement
    | setInfo info' =>
      rcases hd with ⟨i, hpc, rfl⟩ | ⟨rfl, -⟩
      · cases hi
        exact hmono (hs.announcing info (by rw [Sup.announcing, hpc]))
      · cases hi
    | _ => exact hmono (hs.info info hi)
  · cases eff with
    | setState state =>
      rcases hd with ⟨i, hpc, -⟩ | ⟨err, -, rfl⟩ | ⟨reason, -, -, rfl⟩ | ⟨detail, -, -, rfl⟩
      · exact ⟨i, hmono (hs.announcing i (by rw [Sup.announcing, hpc]))⟩
      all_goals cases hstate
    | _ => exact (hs.state hstate).imp fun _ => hmono
  · cases eff with
    | settle result =>
      rcases Oneshot.slot_send_eq_sent hslot with hold | ⟨-, rfl⟩
      · exact hmono (hs.slot info hold)
      · rcases hd with ⟨i, hpc, hi⟩ | ⟨err, hno, -⟩
        · cases hi
          exact hmono (hs.announcing info (by rw [Sup.announcing, hpc]))
        · cases hno
    | dropReceiver => exact hmono (hs.slot info (Oneshot.slot_dropSender_eq_sent hslot))
    | closeReady => cases hd
    | _ => exact hmono (hs.slot info hslot)

/-- A call announces no worker. -/
theorem Informed.call (hs : s.Informed) {key : Nat} {ev : CallEv} {c : Call} {eff : Eff}
    (hc : (s.calls key).step cx s.sh key ev = some (c, eff)) :
    Informed { s with calls := Function.update s.calls key c, sh := s.sh.apply eff } := by
  have hd := (Call.step_moved hc).does
  refine ⟨hs.announcing, fun info hi => ?_, fun hstate => ?_, fun info hslot => ?_,
    fun k hk => ?_⟩
  · cases eff with
    | setInfo info' =>
      rw [show info' = none from hd] at hi
      cases hi
    | _ => exact hs.info info hi
  · cases eff with
    | setState state =>
      rcases hd with rfl | ⟨-, reason, -, rfl, -⟩ <;> cases hstate
    | _ => exact hs.state hstate
  · cases eff with
    | closeReady => exact hs.slot info (by simpa [Shared.apply] using hslot)
    | settle | dropReceiver => cases hd
    | _ => exact hs.slot info hslot
  · dsimp only at hk
    by_cases he : k = key
    · subst he
      rw [Function.update_self] at hk
      obtain ⟨info, hslot⟩ := Call.step_started hc hk
      exact ⟨info, hs.slot info hslot⟩
    · rw [Function.update_of_ne he] at hk
      exact hs.started k hk

/-- In every reachable state what the handle says of the worker comes from its ready line. -/
theorem Informed.reachable (h : (handle cx).Reachable s) : s.Informed := by
  refine Machine.Reachable.induct (Informed.init cx) ?_ h
  intro s l s' hr hs hstep
  rcases step_cases hstep with
    ⟨ev, p, eff, -, hp, rfl⟩ | ⟨key, ev, c, eff, -, hc, rfl⟩ | ⟨d, -, rfl⟩ | ⟨status, -, rfl⟩
  · exact hs.sup (Handshake.reachable hr).coherent hp
  · exact hs.call hc
  · exact ⟨hs.announcing, hs.info, hs.state, hs.slot, hs.started⟩
  · exact ⟨hs.announcing, hs.info, hs.state, hs.slot, hs.started⟩

end Sys

namespace Joint

variable {σ : Type} {w : World σ} {parseFloat : String → PyFloat} {j : Joint σ}

/-- The start of the worker as process `pid` went well, and this is what it is. -/
def Started (w : World σ) (pid : Nat) (info : WorkerInfo) : Prop :=
  ∃ s limits types t, w.startup.load = .ok s ∧
    Worker.applyMemoryBudget w.args w.startup.mlx = .ok limits ∧
    Worker.warmup w.args w.agent s = (.ok types, t) ∧
    info = Worker.reported { w.runtime with pid } w.args (Worker.deviceLabel w.startup.device) ∧
    info.device ≠ "unknown"

/-- An accepted ready line is that of the one worker that was spawned. -/
theorem started_of_accepts (hw : w.Lawful parseFloat) (h : (joint w).Reachable j)
    {info : WorkerInfo} (ha : j.sys.sup.Accepts info) :
    ∃ pid, j.sys.sh.spawned = [pid] ∧ Started w pid info := by
  obtain ⟨line, hmem, hfate⟩ := ha
  obtain ⟨i, hlt, hi⟩ := List.getElem_of_mem hmem
  obtain ⟨pid, hpid, hgreeting⟩ :=
    ((linked hw h).lines i line (by rw [List.getElem?_eq_getElem hlt, hi])).ready info hfate
  refine ⟨pid, ?_, Worker.greeting_ok hgreeting⟩
  have hone := (Sys.Single.reachable (reachable_sys h)).1
  match hs : j.sys.sh.spawned with
  | [] => simp [hs] at hpid
  | [only] =>
    rw [hs] at hpid
    rw [List.mem_singleton.mp hpid]
  | _ :: _ :: _ => simp [hs] at hone

/-- **Ready means ready.**  In every reachable state, if the handle's state is `Ready`, or the
    readiness future has returned without an error, or a request was begun, or the handle
    tells what the worker is, then one worker was spawned and its start went well: the model
    was loaded, the memory budget applied, the warm-up passed, and the device is known; and
    what the handle tells is what that worker is. -/
theorem ready_sound (hw : w.Lawful parseFloat) (h : (joint w).Reachable j) :
    (∀ info, j.sys.sh.info = some info →
      ∃ pid, j.sys.sh.spawned = [pid] ∧ Started w pid info) ∧
    (j.sys.sh.state = .ready ∨ j.sys.calls 0 = .readiness (.over (some (.ok ()))) ∨
        j.sys.sup.frames ≠ [] →
      ∃ pid info, j.sys.sh.spawned = [pid] ∧ Started w pid info) := by
  have hsys := reachable_sys h
  have hinformed := Sys.Informed.reachable hsys
  have hstarted : (∃ info, j.sys.sup.Accepts info) →
      ∃ pid info, j.sys.sh.spawned = [pid] ∧ Started w pid info := by
    rintro ⟨info, ha⟩
    obtain ⟨pid, hpid, hs⟩ := started_of_accepts hw h ha
    exact ⟨pid, info, hpid, hs⟩
  refine ⟨fun info hi => started_of_accepts hw h (hinformed.info info hi), ?_⟩
  rintro (hstate | hover | hframes)
  · exact hstarted (hinformed.state hstate)
  · exact hstarted (hinformed.started 0 hover)
  · rcases (Sys.Handshake.reachable hsys).staged.weaken with ⟨hno, -⟩ | ⟨first, rest, he, hinfo, -⟩
    · exact absurd hno hframes
    · obtain ⟨info, hfate⟩ := hinfo
      exact hstarted ⟨info, first, by rw [he]; exact List.mem_cons_self, hfate⟩

open Replay in
/-- The result at a run: the handle is ready, and tells what the worker is. -/
theorem ready_sound_cpu : ∃ j info pid, (joint world).Reachable j ∧ j.sys.sh.state = .ready ∧
    j.sys.sh.info = some info ∧ j.sys.sh.spawned = [pid] ∧ Started world pid info := by
  have hrun : ((joint world).exec (joint world).init started).map (fun j =>
      decide (j.sys.sh.state = .ready) && j.sys.sh.info.isSome) = some true := by decide +kernel
  obtain ⟨j, hj, hv⟩ := Machine.reachable_of_exec hrun
  obtain ⟨hstate, hinfo⟩ := (Bool.and_eq_true _ _).mp hv
  obtain ⟨info, hinfo⟩ := Option.isSome_iff_exists.mp hinfo
  obtain ⟨pid, hpid, hstarted⟩ := (ready_sound lawful_world hj).1 info hinfo
  exact ⟨j, info, pid, hj, of_decide_eq_true hstate, hinfo, hpid, hstarted⟩

end Joint

end Layad
