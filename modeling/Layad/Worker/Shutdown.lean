import Layad.Worker.FailClosed

namespace Layad

open Channel Transition

/-!
# A requested shutdown

`shutdown` sets the state to `ShuttingDown`.  Of the other writers `mark_failed` and
`run_session` look at the state first; the ready handshake and a failed spawn do not, and
overwrite it (`Sys.ready_overwrites_shuttingDown`).  In a run in which these two never find
a shutdown, the state is absorbing, nothing is admitted any more and no wake-up job is sent
to the worker (`Sys.shuttingDown_absorbing`).
-/

namespace Sup

variable {cx : Ctx} {sh : Shared} {p p' : Sup} {ev : SupEv} {eff : Eff}

/-- The job in hand is the one just received. -/
theorem step_taken (hc : p.Coherent) (h : p.step cx sh ev = some (p', eff)) :
    p'.taken = [] ∨ (p'.taken = p.taken ∧ eff = .skip) ∨
      ∃ job rest, eff = .recv ∧ sh.jobs.buffer = job :: rest ∧ p'.taken = [job] := by
  have hc' := hc.step h
  revert h
  fun_cases Sup.step cx sh p ev
  all_goals intro h
  all_goals simp only [Option.some.injEq, Prod.mk.injEq, reduceCtorEq] at h
  all_goals obtain ⟨rfl, rfl⟩ := h
  all_goals try (left; rfl)
  all_goals try (simp_all [taken]; done)
  -- the way out
  all_goals try
    refine Or.inl (Over.taken (.of_leaving hc' ?_) hc')
    first | rfl | simp
  -- a read
  all_goals
    rename p.read cx _ = some _ => hr
    obtain ⟨buf, avail, rfl⟩ := read_eq hr
  · exact Or.inr (Or.inl ⟨rfl, rfl⟩)
  · exact Or.inl (onIdleFrame_taken _).1
  · exact Or.inr (Or.inl ⟨rfl, rfl⟩)
  · exact Or.inl (onWaitFrame_taken _).1

end Sup

namespace Sys

variable {cx : Ctx} {s t : Sys} {l : Label}

/-- A step that announces readiness or a failed spawn finds no shutdown requested. -/
def unraced (s : Sys) : Label → Bool
  | .sup .go =>
    match s.sup.pc with
    | .readyState _ | .spawnFailed _ => s.sh.state ≠ .shuttingDown
    | _ => true
  | _ => true

/-- The operations of the supervisor on the state are done by a step without a choice. -/
theorem go_of_setState {ev : SupEv} {p : Sup} {state : State}
    (hp : s.sup.step cx s.sh ev = some (p, .setState state)) : ev = .go := by
  revert hp
  fun_cases Sup.step cx s.sh s.sup ev
  all_goals simp

/-- **A requested shutdown stays requested** in a step that is not raced. -/
theorem shuttingDown_step (hg : s.unraced l = true) (h : s.step cx l = some t)
    (hs : s.sh.state = .shuttingDown) : t.sh.state = .shuttingDown := by
  rcases step_cases h with
    ⟨ev, p, eff, rfl, hp, rfl⟩ | ⟨key, ev, c, eff, -, hc, rfl⟩ | ⟨d, -, rfl⟩ | ⟨status, -, rfl⟩
  · by_cases he : ∃ state, eff = .setState state
    · obtain ⟨state, rfl⟩ := he
      obtain rfl := go_of_setState hp
      rcases Sup.step_does hp with ⟨info, hpc, -⟩ | ⟨err, hpc, -⟩ | ⟨r, -, hopen, -⟩ |
        ⟨d, -, hne, -⟩
      · simp [unraced, hpc, hs] at hg
      · simp [unraced, hpc, hs] at hg
      · simp [hs, State.isClosed] at hopen
      · exact absurd hs hne
    · rw [Shared.state_apply (by simpa using he)]
      exact hs
  · rcases (Call.step_moved hc).does.keeps with ⟨state, rfl⟩ | ⟨job, rfl⟩ | ⟨hstate, -⟩
    · rcases (Call.step_moved hc).does with rfl | ⟨hne, -⟩
      · rfl
      · exact absurd hs hne
    · exact hs
    · rw [hstate]
      exact hs
  · exact hs
  · exact hs

/-! ### Wake-up jobs -/

/-- The jobs taken from the queue or still in it, oldest first. -/
def waiting (s : Sys) : List Job := s.sup.taken ++ s.sh.jobs.buffer

/-- A shutdown is about to send its wake-up job, or the job of a call that is no prediction
    is on its way. -/
def Waking (s : Sys) : Prop :=
  (∃ k, (s.calls k).waking = true) ∨
    ∃ job ∈ s.waiting, (s.calls job.reply).isPrediction = false

/-- Wake-up jobs are on their way during a shutdown only, and none was begun. -/
structure Quelled (s : Sys) : Prop where
  waking : s.Waking → s.sh.state = .shuttingDown
  frames : ∀ f ∈ s.sup.frames, (s.calls f.job.reply).isPrediction = true

/-- The supervisor only takes jobs off. -/
theorem waiting_sup (hc : s.sup.Coherent) {ev : SupEv} {p : Sup} {eff : Eff}
    (hp : s.sup.step cx s.sh ev = some (p, eff)) {job : Job}
    (hj : job ∈ waiting { s with sup := p, sh := s.sh.apply eff }) : job ∈ s.waiting := by
  obtain ⟨dropped, hbuf⟩ := buffer_of_sup hp
  rcases List.mem_append.mp hj with hj | hj
  · rcases Sup.step_taken hc hp with h | ⟨h, -⟩ | ⟨job', rest, -, hb, h⟩
    · simp [h] at hj
    · exact List.mem_append_left _ (h ▸ hj)
    · rw [h, List.mem_singleton] at hj
      exact List.mem_append_right _ (by simp [hb, hj])
  · exact List.mem_append_right _ (hbuf ▸ List.mem_append_right _ hj)

/-- A job that waits, or was begun, was accepted. -/
theorem Served.accepted (hs : s.Served cx) {job : Job}
    (hj : job ∈ s.waiting ∨ ∃ f ∈ s.sup.frames, f.job = job) : job ∈ s.sh.jobs.accepted := by
  obtain ⟨lost, hacc, -⟩ := hs.queue
  rw [hacc, Sup.begun]
  rcases hj with hj | ⟨f, hf, rfl⟩
  · rcases List.mem_append.mp hj with hj | hj <;> simp [hj]
  · simp only [List.append_assoc]
    exact List.mem_append_left _ (List.mem_map_of_mem hf)

/-- A call whose job was accepted stays what it is. -/
theorem isPrediction_call (hb : s.Booked) {key : Nat} {ev : CallEv} {c : Call} {eff : Eff}
    (hc : (s.calls key).step cx s.sh key ev = some (c, eff)) {job : Job}
    (hj : job ∈ s.sh.jobs.accepted) :
    (Function.update s.calls key c job.reply).isPrediction = (s.calls job.reply).isPrediction := by
  by_cases he : job.reply = key
  · subst he
    rw [Function.update_self]
    rcases (Call.step_moved hc).kind with hidle | hkind
    · exact absurd (List.mem_map_of_mem hj) (hb.fresh job.reply (by simp [hidle]))
    · exact hkind
  · rw [Function.update_of_ne he]

/-- In such a run the supervisor begins no wake-up job. -/
theorem Quelled.sup (hq : s.Quelled) (hc : s.sup.Coherent) {ev : SupEv} {p : Sup} {eff : Eff}
    (hg : s.unraced (.sup ev) = true) (hp : s.sup.step cx s.sh ev = some (p, eff)) :
    Quelled { s with sup := p, sh := s.sh.apply eff } := by
  have hstep : s.step cx (.sup ev) = some { s with sup := p, sh := s.sh.apply eff } := by
    simp [Sys.step, hp]
  refine ⟨fun hw => shuttingDown_step hg hstep (hq.waking ?_), fun f hf => ?_⟩
  · exact hw.imp_right (Exists.imp fun job => And.imp_left (waiting_sup hc hp))
  · rcases frames_step hstep hf with hf | ⟨-, hpc, hst, -⟩
    · exact hq.frames f hf
    · -- a wake-up job in hand would say that a shutdown was requested
      by_contra hno
      refine hst (hq.waking (Or.inr ⟨f.job, ?_, by simpa using hno⟩))
      simp [waiting, Sup.taken, hpc]

/-- A call sends a wake-up job during a shutdown only. -/
theorem Quelled.call (hq : s.Quelled) (hb : s.Booked) (hs : s.Served cx) {key : Nat} {ev : CallEv}
    {c : Call} {eff : Eff} (hc : (s.calls key).step cx s.sh key ev = some (c, eff)) :
    Quelled { s with calls := Function.update s.calls key c, sh := s.sh.apply eff } := by
  have hm := Call.step_moved hc
  have hstep : s.step cx (.call key ev) =
      some { s with calls := Function.update s.calls key c, sh := s.sh.apply eff } := by
    simp [Sys.step, hc]
  have hstable : s.sh.state = .shuttingDown → (s.sh.apply eff).state = .shuttingDown :=
    shuttingDown_step (l := .call key ev) rfl hstep
  refine ⟨?_, fun f hf => ?_⟩
  · rintro (⟨k, hk⟩ | ⟨job, hj, hno⟩)
    · -- a call that is about to wake has set the state before
      dsimp only at hk
      by_cases he : k = key
      · subst he
        rw [Function.update_self] at hk
        rw [hm.waking hk]
        rfl
      · rw [Function.update_of_ne he] at hk
        exact hstable (hq.waking (Or.inl ⟨k, hk⟩))
    · -- an old job, or the one the call has just sent
      have hold : job ∈ s.waiting → (s.sh.apply eff).state = .shuttingDown := by
        intro hw
        rw [isPrediction_call hb hc (hs.accepted (Or.inl hw))] at hno
        exact hstable (hq.waking (Or.inr ⟨job, hw, hno⟩))
      rcases hm.does.keeps with ⟨state, rfl⟩ | ⟨new, rfl⟩ | ⟨-, hjobs⟩
      · exact hold hj
      · have hj' : job ∈ s.waiting ∨ job = new := by
          simpa [waiting, Shared.apply, Mpsc.push, or_assoc] using hj
        rcases hj' with hw | rfl
        · exact hold hw
        · obtain ⟨rfl, -, -, -, ⟨-, rfl⟩ | ⟨hw, -⟩⟩ := hm.does
          · simp at hno
          · exact hstable (hq.waking (Or.inl ⟨_, hw⟩))
      · exact hold (by simpa [waiting, hjobs] using hj)
  · rw [isPrediction_call hb hc (hs.accepted (Or.inr ⟨f, hf, rfl⟩))]
    exact hq.frames f hf

/-- In every run without the race a wake-up job means a shutdown. -/
theorem Quelled.reachable (h : ((handle cx).restrict unraced).Reachable s) : s.Quelled := by
  refine Machine.invariant_of_restrict ?_ ?_ h
  · refine ⟨?_, fun f hf => ?_⟩
    · rintro (⟨k, hk⟩ | ⟨job, hj, -⟩)
      · simp only [handle, Sys.init] at hk
        split at hk <;> simp at hk
      · simp [handle, Sys.init, Sup.init, waiting, Sup.taken] at hj
    · simp [handle, Sys.init, Sup.init] at hf
  · intro s l t hr hq hg hstep
    have hb := Booked.reachable hr
    rcases step_cases hstep with
      ⟨ev, p, eff, rfl, hp, rfl⟩ | ⟨key, ev, c, eff, -, hc, rfl⟩ | ⟨d, -, rfl⟩ | ⟨status, -, rfl⟩
    · exact hq.sup hb.coherent hg hp
    · exact hq.call hb (Served.reachable hr) hc
    · exact ⟨hq.waking, hq.frames⟩
    · exact ⟨hq.waking, hq.frames⟩

/-! ### Admission -/

/-- A prediction that comes too late: a shutdown was requested, and its job is in no queue. -/
structure Barred (k : Nat) (s : Sys) : Prop where
  state : s.sh.state = .shuttingDown
  sending : (s.calls k).sending = false
  unsent : (s.calls k).isPrediction = true → k ∉ s.ledger.accepted

/-- A prediction that comes too late stays so. -/
theorem Barred.step {k : Nat} (hb : s.Barred k) (hbooked : s.Booked) (hg : s.unraced l = true)
    (h : s.step cx l = some t) : t.Barred k := by
  have hstate := shuttingDown_step hg h hb.state
  rcases step_cases h with
    ⟨ev, p, eff, -, hp, rfl⟩ | ⟨key, ev, c, eff, -, hc, rfl⟩ | ⟨d, -, rfl⟩ | ⟨status, -, rfl⟩
  · exact ⟨hstate, hb.sending, by simpa only [ledger, accepted_of_sup hp] using hb.unsent⟩
  · refine ⟨hstate, ?_, unsent_call hbooked hb.sending hb.unsent hc⟩
    dsimp only
    by_cases he : k = key
    · subst he
      rw [Function.update_self]
      by_contra hs
      have hready := ((Call.step_moved hc).sending (by simpa using hs)).1
      exact absurd (hready.symm.trans hb.state) (by simp)
    · rw [Function.update_of_ne he]
      exact hb.sending
  · exact ⟨hstate, hb.sending, hb.unsent⟩
  · exact ⟨hstate, hb.sending, hb.unsent⟩

/-- **`ShuttingDown` is absorbing** in every run in which readiness and a failed spawn are
    announced to no state that says `ShuttingDown` already: from then on the state is
    `ShuttingDown`, and no prediction that starts afterwards is admitted to the queue.  No
    job but a prediction's is ever sent to the worker. -/
theorem shuttingDown_absorbing (h : ((handle cx).restrict unraced).Reachable s) :
    (s.sh.state = .shuttingDown → ∀ t, ((handle cx).restrict unraced).Runs s t →
      t.sh.state = .shuttingDown ∧
      ∀ k, s.calls k = .idle → (t.calls k).isPrediction = true → k ∉ t.ledger.accepted) ∧
    (∀ f ∈ s.sup.frames, (s.calls f.job.reply).isPrediction = true) := by
  refine ⟨fun hs t hr => ⟨?_, fun k hk hpred => ?_⟩, (Quelled.reachable h).frames⟩
  · exact Machine.stable_of_restrict (P := fun s => s.sh.state = .shuttingDown)
      (fun _ _ _ _ hu hg hstep => shuttingDown_step hg hstep hu) h.of_restrict hs hr
  · have hbarred : s.Barred k := ⟨hs, by simp [hk], by simp [hk]⟩
    refine (Machine.stable_of_restrict (P := Barred k) ?_ h.of_restrict hbarred hr).unsent hpred
    exact fun u l v hu hb hg hstep => hb.step (Booked.reachable hu) hg hstep

open Replay in
/-- The result at a run: a shutdown while the worker is ready, and a prediction after it. -/
theorem shuttingDown_absorbing_refused :
    ∃ s t, ((handle demo).restrict unraced).Reachable s ∧
      ((handle demo).restrict unraced).Runs s t ∧ s.sh.state = .shuttingDown ∧
      t.sh.state = .shuttingDown ∧ (t.calls 2).isPrediction = true ∧ 2 ∉ t.ledger.accepted := by
  have hrun : (((handle demo).restrict unraced).exec ((handle demo).restrict unraced).init
      (ready ++ [.call 1 (.begin (.shutdown 1000)), .call 1 .go])).bind (fun s =>
        (((handle demo).restrict unraced).exec s
          [.call 1 .go, .call 2 (.begin (.predict .null)), .call 2 .go]).map (fun t =>
            decide (s.sh.state = .shuttingDown ∧ (s.calls 2).isIdle = true ∧
              (t.calls 2).isPrediction = true))) = some true := by decide +kernel
  obtain ⟨s, t, hs, ht, hv⟩ := Machine.runs_of_exec_exec hrun
  obtain ⟨hst, hidle, hpred⟩ := of_decide_eq_true hv
  obtain ⟨ht', hno⟩ := (shuttingDown_absorbing hs).1 hst t ht
  exact ⟨s, t, hs, ht, hst, ht', hpred, hno 2 (Call.isIdle_iff.mp hidle) hpred⟩

open Replay in
/-- A shutdown between the ready frame and the handshake: the handshake sets the state back
    to `Ready`, a later prediction is admitted, and the wake-up job goes to the worker. -/
theorem ready_overwrites_shuttingDown :
    ∃ s t, (handle demo).Reachable s ∧ (handle demo).Runs s t ∧
      s.sh.state = .shuttingDown ∧ t.sh.state = .ready ∧
      t.ledger.accepted = [1, 2] ∧ (t.calls 2).isPrediction = true ∧
      t.sup.frames.map (fun f => f.job.reply) = [1] ∧ (t.calls 1).isPrediction = false := by
  have hrun : ((handle demo).exec (handle demo).init
      (boot ++ [emits 0, .call 1 (.begin (.shutdown 1000)), .call 1 .go])).bind (fun s =>
        ((handle demo).exec s
          (go 5 ++ [.call 1 .go] ++ predict 2 ++ dispatch)).map (fun t =>
            decide (s.sh.state = .shuttingDown ∧ t.sh.state = .ready ∧
              t.ledger.accepted = [1, 2] ∧ (t.calls 2).isPrediction = true ∧
              t.sup.frames.map (fun f => f.job.reply) = [1] ∧
              (t.calls 1).isPrediction = false))) = some true := by decide +kernel
  obtain ⟨s, t, hs, ht, hv⟩ := Machine.runs_of_exec_exec hrun
  exact ⟨s, t, hs, ht, of_decide_eq_true hv⟩

end Sys

end Layad
