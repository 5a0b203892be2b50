import Layad.Worker.Synchronisation

namespace Layad

open Channel Transition

/-!
# What the session waits with

Step 2 of the session waits for a reply with three variables that are kept apart: the request
in flight, the inference deadline and the handshake.  The deadline is written where a frame is
begun and nowhere else, so it is always that of the frame begun last (`Sup.Timed`), and the
frame begun last is the one that is waited for.
-/

namespace Sup

variable {cx : Ctx} {sh : Shared} {p p' : Sup} {ev : SupEv} {eff : Eff}

/-! ### The deadline -/

/-- Failing the handshake leaves the deadline alone. -/
@[simp] theorem settleRestart_inferenceDeadline (err : StartError) (reason : String) :
    (p.settleRestart sh err reason).inferenceDeadline = p.inferenceDeadline := by
  unfold settleRestart
  split <;> simp

/-- Failing the request in flight leaves the deadline alone. -/
@[simp] theorem failInflight_inferenceDeadline (err : WorkerError) (reason : String) :
    (p.failInflight err reason).inferenceDeadline = p.inferenceDeadline := by
  unfold failInflight
  split <;> simp

/-- A frame read between requests leaves the deadline alone. -/
@[simp] theorem onIdleFrame_inferenceDeadline (frame : Except String Frame) :
    (p.onIdleFrame cx sh frame).inferenceDeadline = p.inferenceDeadline := by
  unfold onIdleFrame
  repeat' split
  all_goals simp

/-- A frame read for the request in flight leaves the deadline alone. -/
@[simp] theorem onWaitFrame_inferenceDeadline (frame : Except String Frame) :
    (p.onWaitFrame cx sh frame).inferenceDeadline = p.inferenceDeadline := by
  unfold onWaitFrame onReply
  dsimp only
  repeat' split
  all_goals simp

/-- Only a step that begins a frame writes the deadline. -/
theorem step_inferenceDeadline (h : p.step cx sh ev = some (p', eff)) :
    p'.inferenceDeadline = p.inferenceDeadline ∨ ∃ job, p' = p.dispatch cx sh job := by
  revert h
  fun_cases Sup.step cx sh p ev
  all_goals intro h
  all_goals simp only [Option.some.injEq, Prod.mk.injEq, reduceCtorEq] at h
  all_goals obtain ⟨rfl, rfl⟩ := h
  all_goals try (left; simp; done)
  all_goals try
    rename p.read cx _ = some _ => hr
    obtain ⟨buf, avail, rfl⟩ := read_eq hr
    left
    simp
  exact Or.inr ⟨_, rfl⟩

/-- The deadline is that of the frame begun last, and no frame was begun in the future. -/
structure Timed (cx : Ctx) (now : Nat) (p : Sup) : Prop where
  deadline : p.inferenceDeadline =
    p.frames.getLast?.map fun d => d.time + cx.config.inferenceTimeout
  past : ∀ d ∈ p.frames, d.time ≤ now

/-- A new supervisor has no deadline. -/
theorem Timed.init (cx : Ctx) : Sup.init.Timed cx 0 := ⟨rfl, by simp [Sup.init]⟩

/-- A frame that is begun sets the deadline. -/
theorem Timed.dispatch (hp : p.Timed cx sh.now) (job : Job) :
    (p.dispatch cx sh job).Timed cx sh.now where
  deadline := by simp
  past d hd := by
    rcases List.mem_append.mp hd with hd | hd
    · exact hp.past d hd
    · rw [List.mem_singleton.mp hd]

/-- No other step of the supervisor sets one. -/
theorem Timed.step (hp : p.Timed cx sh.now) (h : p.step cx sh ev = some (p', eff)) :
    p'.Timed cx sh.now := by
  rcases step_frames h with ⟨hf, -⟩ | ⟨job, -, -, rfl, -⟩
  · rcases step_inferenceDeadline h with hd | ⟨job, rfl⟩
    · exact ⟨by rw [hd, hf, hp.deadline], by rw [hf]; exact hp.past⟩
    · exact hp.dispatch job
  · exact hp.dispatch job

/-- Where a request is in flight and the handshake settled, a line is taken for the reply. -/
theorem onWaitFrame_line (hr : sh.ready.isPending = false) {id : String} {key : Nat}
    (hi : p.inflight = some (id, key)) (text : String) :
    p.onWaitFrame cx sh (.ok (.line text)) =
      match cx.host.fromStr text with
      | .error err =>
        (p.saw text .ended).failInflight (.workerFailed s!"worker sent invalid JSON: {err}")
          s!"malformed worker frame: {err}"
      | .ok value => p.onReply cx text value id key := by
  rw [onWaitFrame]
  cases cx.host.fromStr text with
  | error err => rfl
  | ok value => simp only [hr, hi, Bool.false_and, Bool.false_eq_true, if_false]

end Sup

namespace Sys

variable {cx : Ctx} {s : Sys}

/-- In every reachable state the deadline is that of the frame begun last. -/
theorem timed_of_reachable (h : (handle cx).Reachable s) : s.sup.Timed cx s.sh.now := by
  refine Machine.invariant_of_step (P := fun s => s.sup.Timed cx s.sh.now) (Sup.Timed.init cx)
    (fun s l s' hs hstep => ?_) h
  rcases step_cases hstep with
    ⟨ev, p, eff, -, hp, rfl⟩ | ⟨key, ev, c, eff, -, hc, rfl⟩ | ⟨d, -, rfl⟩ | ⟨status, -, rfl⟩
  · show p.Timed cx (s.sh.apply eff).now
    rw [Shared.apply_now]
    exact hs.step hp
  · show s.sup.Timed cx (s.sh.apply eff).now
    rw [Shared.apply_now]
    exact hs
  · exact ⟨hs.deadline, fun f hf => (hs.past f hf).trans (Nat.le_add_right _ _)⟩
  · exact hs

/-- The request in flight is the frame begun last, and has its id to itself. -/
theorem inflight_last (h : (handle cx).Reachable s)
    (hpc : s.sup.pc = .wait ∨ s.sup.pc = .pollState) :
    ∃ before d, s.sup.frames = before ++ [d] ∧ (∀ f ∈ before, f.id ≠ d.id) ∧
      s.sup.inflight = some (d.id, d.job.reply) := by
  have hs := (Served.reachable h).synced
  have hc := (Handshake.reachable h).coherent
  have hinflight : s.sup.inflight.isSome = true := by
    rcases hpc with hpc | hpc
    all_goals
      simp only [Sup.Coherent, hpc] at hc
      exact hc.2.1
  have houtstanding : s.sup.outstanding = s.sup.inflight := by
    rcases hpc with hpc | hpc
    all_goals simp only [Sup.outstanding, hpc]
  obtain ⟨⟨id, key⟩, hi⟩ := Option.isSome_iff_exists.mp hinflight
  obtain ⟨before, d, hframes, rfl, rfl, -⟩ := hs.outstanding id key (houtstanding.trans hi)
  refine ⟨before, d, hframes, fun f hf he => ?_, hi⟩
  have hids : (s.sup.frames.map Dispatch.id).Nodup := hs.ids ▸ nodup_ids _
  rw [hframes, List.map_append, List.nodup_append] at hids
  exact hids.2.2 _ (List.mem_map_of_mem hf) _ (by simp) he

/-- A request is in flight only after the handshake. -/
theorem settled_of_wait (h : (handle cx).Reachable s)
    (hpc : s.sup.pc = .wait ∨ s.sup.pc = .pollState) : s.sh.ready.isPending = false := by
  have hp := (Handshake.reachable h).staged
  rcases hpc with hpc | hpc
  all_goals
    simp only [Sup.Staged, hpc] at hp
    exact hp.1

/-- **A request is awaited with its own deadline, after the handshake.**  In every reachable
    state in which the session is at the wait of step 2, or at the poll inside it: the
    handshake is settled; a request is in flight, the one whose frame was begun last; and the
    deadline is there, counted from when that frame was begun.  So the poll is always on, the
    deadline can strike, and a line that comes in is taken for the reply to that request: not
    for a ready frame, and never for one that nobody asked for. -/
theorem wait_has_deadline (h : (handle cx).Reachable s)
    (hpc : s.sup.pc = .wait ∨ s.sup.pc = .pollState) :
    s.sh.ready.isPending = false ∧
    ∃ before d, s.sup.frames = before ++ [d] ∧ (∀ f ∈ before, f.id ≠ d.id) ∧
      d.time ≤ s.sh.now ∧ s.sup.inflight = some (d.id, d.job.reply) ∧
      s.sup.inferenceDeadline = some (d.time + cx.config.inferenceTimeout) ∧
      (s.sup.pc = .wait →
        s.sup.step cx s.sh .tick = some ({ s.sup with pc := .pollState }, .skip) ∧
        (d.time + cx.config.inferenceTimeout ≤ s.sh.now →
          s.sup.step cx s.sh .deadline =
            some (s.sup.failInflight (.inferenceTimeout cx.config.inferenceTimeout)
              s!"worker did not answer within {asSecs cx.config.inferenceTimeout}s", .skip)) ∧
        ∀ source p text, s.sup.read cx source = some (p, some (.ok (.line text))) →
          s.sup.step cx s.sh (.read source) = some
            (match cx.host.fromStr text with
              | .error err =>
                (p.saw text .ended).failInflight
                  (.workerFailed s!"worker sent invalid JSON: {err}")
                  s!"malformed worker frame: {err}"
              | .ok value => p.onReply cx text value d.id d.job.reply, .skip)) := by
  have hsettled := settled_of_wait h hpc
  have htimed := timed_of_reachable h
  obtain ⟨before, d, hframes, hfresh, hi⟩ := inflight_last h hpc
  have hdeadline : s.sup.inferenceDeadline = some (d.time + cx.config.inferenceTimeout) := by
    rw [htimed.deadline, hframes, List.getLast?_concat]
    rfl
  refine ⟨hsettled, before, d, hframes, hfresh, htimed.past d (by simp [hframes]), hi, hdeadline,
    fun hwait => ⟨?_, fun hlate => ?_, fun source p text hread => ?_⟩⟩
  · simp [Sup.step, hwait, hdeadline]
  · simp [Sup.step, hwait, hdeadline, hlate]
  · -- a read moves the buffers only
    have hinflight : p.inflight = s.sup.inflight := by
      obtain ⟨buf, avail, rfl⟩ := Sup.read_eq hread
      rfl
    rw [Sup.step_wait_read hwait hread, Sup.onWaitFrame_line hsettled (hinflight.trans hi)]

/-- The session waits for a reply. -/
def isWait : Pc → Bool
  | .wait => true
  | _ => false

/-- The test of the wait. -/
theorem eq_of_isWait {pc : Pc} (h : isWait pc = true) : pc = .wait := by
  cases pc <;> first | rfl | cases h

open Replay in
/-- The result at a run that comes to wait for the first request. -/
theorem wait_has_deadline_first :
    ∃ s, (handle demo).Reachable s ∧ s.sup.pc = .wait ∧
      s.sup.inferenceDeadline = some 60000 := by
  have hrun : ((handle demo).exec (handle demo).init (ready ++ predict 1 ++ dispatch)).map
      (fun s => isWait s.sup.pc && s.sup.frames.all (·.time = 0)) = some true := by
    decide +kernel
  obtain ⟨s, hs, hv⟩ := Machine.reachable_of_exec hrun
  obtain ⟨hwait, htimes⟩ := Bool.and_eq_true_iff.mp hv
  have hpc := eq_of_isWait hwait
  obtain ⟨-, before, d, hframes, -, -, -, hdeadline, -⟩ := wait_has_deadline hs (Or.inl hpc)
  have htime : d.time = 0 := by
    rw [List.all_eq_true] at htimes
    simpa using htimes d (by simp [hframes])
  refine ⟨s, hs, hpc, ?_⟩
  rw [hdeadline, htime]
  rfl

end Sys

end Layad
