import Layad.Worker.Synchronisation

namespace Layad

open Channel Transition

/-!
# Cancellation before dispatch

A caller that goes away while its job is queued leaves a closed reply channel behind.  The
session looks at that channel only after the frame was written, so the job is sent all the
same and the first poll ends the session (`Sys.canceled_job_is_sent`).  As long as every
job that is sent finds its caller there, cancellation in the queue is harmless
(`Sys.canceled_before_dispatch`).
-/

/-- The shared state as it would be had no caller gone away. -/
def Shared.attended (sh : Shared) : Shared :=
  { sh with replies := fun k => { sh.replies k with closed := false } }

/-- A caller that went away stays away. -/
theorem Shared.closed_apply {sh : Shared} {k : Nat} (h : (sh.replies k).closed = true)
    (eff : Eff) : ((sh.apply eff).replies k).closed = true := by
  have hdrop : ∀ keys, (dropReplies sh.replies keys k).closed = true := by
    intro keys
    unfold dropReplies
    split <;> simp [h]
  cases eff with
  | reply key answer => by_cases hk : k = key <;> simp_all [apply]
  | closeReply key => by_cases hk : k = key <;> simp_all [apply]
  | abandon key => exact hdrop [key]
  | kill keys => exact hdrop keys
  | dropReceiver => exact hdrop _
  | _ => exact h

namespace Sup

variable {cx : Ctx} {sh : Shared} {p p' : Sup} {ev : SupEv} {eff : Eff}

/-- The session looks for a caller that went away in the poll only. -/
theorem step_attended (hpc : p.pc ≠ .pollState) (hd : ∀ job, p.pc ≠ .dequeued job) :
    p.step cx sh.attended ev = p.step cx sh ev := by
  unfold step
  split <;> first | rfl | simp_all

/-- A poll that ends the session has found the caller of the request in flight gone. -/
theorem step_pollState (hpc : p.pc = .pollState) (h : p.step cx sh ev = some (p', eff))
    (ho : p.outcome = none) {reason : String} (hr : p'.outcome = some (.restart reason)) :
    ∃ id key, p.inflight = some (id, key) ∧ (sh.replies key).closed = true ∧
      reason = s!"request {id} was canceled by the caller" := by
  revert h
  fun_cases Sup.step cx sh p ev
  all_goals intro h
  all_goals simp only [Option.some.injEq, Prod.mk.injEq, reduceCtorEq] at h
  all_goals obtain ⟨rfl, rfl⟩ := h
  all_goals simp_all

/-- A job in hand is sent, or refused by a shutdown, or dropped by a kill. -/
theorem step_dequeued {job : Job} (hpc : p.pc = .dequeued job)
    (h : p.step cx sh ev = some (p', eff)) (ho : p.outcome = none) (reason : String) :
    p'.outcome ≠ some (.restart reason) := by
  revert h
  fun_cases Sup.step cx sh p ev
  all_goals intro h
  all_goals simp only [Option.some.injEq, Prod.mk.injEq, reduceCtorEq] at h
  all_goals obtain ⟨rfl, rfl⟩ := h
  all_goals simp_all

end Sup

namespace Sys

variable {cx : Ctx} {s t : Sys}

/-- A step that sends the job in hand finds its caller there. -/
def attended (s : Sys) : Label → Bool
  | .sup .go =>
    match s.sup.pc with
    | .dequeued job => s.sh.state = .shuttingDown || !(s.sh.replies job.reply).closed
    | _ => true
  | _ => true

/-- The job that an attended step sends has a caller. -/
theorem closed_of_attended {job : Job} (hg : s.attended (.sup .go) = true)
    (hpc : s.sup.pc = .dequeued job) (hst : s.sh.state ≠ .shuttingDown) :
    (s.sh.replies job.reply).closed = false := by
  simpa [attended, hpc, hst] using hg

/-- A caller that has left does not come back. -/
theorem closed_step {l : Label} (h : s.step cx l = some t) {k : Nat}
    (hk : (s.sh.replies k).closed = true) : (t.sh.replies k).closed = true := by
  rcases step_cases h with
    ⟨ev, p, eff, rfl, hp, rfl⟩ | ⟨key, ev, c, eff, -, hc, rfl⟩ | ⟨d, -, rfl⟩ | ⟨status, -, rfl⟩
  · exact Shared.closed_apply hk eff
  · exact Shared.closed_apply hk eff
  · exact hk
  · exact hk

/-- A caller gone before its frame is begun never has one begun. -/
theorem unsent_of_attended (h : ((handle cx).restrict attended).Reachable s)
    (hr : ((handle cx).restrict attended).Runs s t) {k : Nat} (hk : (s.sh.replies k).closed = true)
    (hf : ∀ f ∈ s.sup.frames, f.job.reply ≠ k) : ∀ f ∈ t.sup.frames, f.job.reply ≠ k := by
  refine (Machine.stable_of_restrict (P := fun s => (s.sh.replies k).closed = true ∧
    ∀ f ∈ s.sup.frames, f.job.reply ≠ k) ?_ h.of_restrict ⟨hk, hf⟩ hr).2
  rintro s l t - ⟨hk, hf⟩ hg hstep
  refine ⟨closed_step hstep hk, fun f hft he => ?_⟩
  rcases frames_step hstep hft with hfs | ⟨rfl, hpc, hst, -⟩
  · exact hf f hfs he
  · have hopen := closed_of_attended hg hpc hst
    rw [he, hk] at hopen
    cases hopen

/-- A job that still waits has no frame. -/
theorem unsent_of_queued (hs : s.Served cx) (hb : s.Booked) {k : Nat}
    (hk : k ∈ s.ledger.queued) : ∀ f ∈ s.sup.frames, f.job.reply ≠ k := by
  rintro f hf rfl
  obtain ⟨lost, hacc, -⟩ := hs.queue
  have hnodup := hb.balanced.accepted_nodup
  simp only [ledger, hacc, Sup.begun, List.append_assoc, List.map_append, List.map_map] at hnodup
  refine (List.nodup_append.mp hnodup).2.2 f.job.reply (List.mem_map_of_mem hf) f.job.reply ?_ rfl
  simp only [List.mem_append]
  exact Or.inr (Or.inr hk)

/-- Every frame was begun for a caller that was there. -/
theorem wanted_of_attended (h : ((handle cx).restrict attended).Reachable s) :
    ∀ f ∈ s.sup.frames, f.wanted = true := by
  refine Machine.invariant_of_restrict (P := fun s => ∀ f ∈ s.sup.frames, f.wanted = true) ?_ ?_ h
  · intro f hf
    simp [handle, Sys.init, Sup.init] at hf
  · intro s l t _ hs hg hstep f hf
    rcases frames_step hstep hf with hfs | ⟨rfl, hpc, hst, hw⟩
    · exact hs f hfs
    · rw [hw, closed_of_attended hg hpc hst]
      rfl

/-- **A cancellation before dispatch is harmless** in every run that sends a job only while
    its caller is there.  A caller that goes away while its job waits, or before its frame is
    begun, never has a frame begun; and a step that ends the session in a restart does so
    with every caller still there just as well, unless the request in flight was wanted when
    its frame was begun and its caller has gone since. -/
theorem canceled_before_dispatch (h : ((handle cx).restrict attended).Reachable s) :
    (∀ t k, ((handle cx).restrict attended).Runs s t → (s.sh.replies k).closed = true →
      (k ∈ s.ledger.queued ∨ ∀ f ∈ s.sup.frames, f.job.reply ≠ k) →
      ∀ f ∈ t.sup.frames, f.job.reply ≠ k) ∧
    (∀ ev p eff reason, s.sup.outcome = none → s.sup.step cx s.sh ev = some (p, eff) →
      p.outcome = some (.restart reason) →
      s.sup.step cx s.sh.attended ev = some (p, eff) ∨
      ∃ f ∈ s.sup.frames, s.sup.inflight = some (f.id, f.job.reply) ∧ f.wanted = true ∧
        (s.sh.replies f.job.reply).closed = true) := by
  have hb := Booked.reachable h.of_restrict
  have hs := Served.reachable h.of_restrict
  refine ⟨fun t k hr hk hq => ?_, fun ev p eff reason ho hp hrestart => ?_⟩
  · exact unsent_of_attended h hr hk (hq.elim (unsent_of_queued hs hb) id)
  · by_cases hpc : s.sup.pc = .pollState
    · obtain ⟨id, key, hi, hclosed, -⟩ := Sup.step_pollState hpc hp ho hrestart
      obtain ⟨before, f, he, rfl, rfl, -⟩ :=
        hs.synced.outstanding id key (by simp [Sup.outstanding, hpc, hi])
      have hmem : f ∈ s.sup.frames := by simp [he]
      exact Or.inr ⟨f, hmem, hi, wanted_of_attended h f hmem, hclosed⟩
    · by_cases hd : ∃ job, s.sup.pc = .dequeued job
      · -- a job in hand is sent, or refused by a shutdown: neither is a restart
        obtain ⟨job, hd⟩ := hd
        exact absurd hrestart (Sup.step_dequeued hd hp ho reason)
      · rw [Sup.step_attended hpc (by simpa using hd)]
        exact Or.inl hp

open Replay in
/-- The result at a run: the caller of request `1` goes away while its job is queued, and a
    shutdown comes before the job is sent. -/
theorem canceled_before_dispatch_stopped :
    ∃ s t, ((handle demo).restrict attended).Reachable s ∧
      ((handle demo).restrict attended).Runs s t ∧ 1 ∈ s.ledger.queued ∧
      (s.sh.replies 1).closed = true ∧ t.sup.outcome = some .shutdown ∧
      ∀ f ∈ t.sup.frames, f.job.reply ≠ 1 := by
  have hrun : ((((handle demo).restrict attended)).exec ((handle demo).restrict attended).init
      (ready ++ predict 1 ++ [.call 1 .cancel])).bind (fun s =>
        (((handle demo).restrict attended).exec s
          ([.call 2 (.begin (.shutdown 1000)), .call 2 .go, .sup .recv] ++ go 1)).map (fun t =>
            decide (1 ∈ s.ledger.queued ∧ (s.sh.replies 1).closed = true ∧
              t.sup.outcome = some .shutdown))) = some true := by decide +kernel
  obtain ⟨s, t, hs, ht, hv⟩ := Machine.runs_of_exec_exec hrun
  obtain ⟨hq, hcl, ho⟩ := of_decide_eq_true hv
  exact ⟨s, t, hs, ht, hq, hcl, ho, (canceled_before_dispatch hs).1 t 1 ht hcl (Or.inl hq)⟩

open Replay in
/-- The caller of request `2` goes away while its job is queued behind request `1`.  The worker
    answers that one; then the job is sent all the same, and the first poll ends the session on
    account of that caller. -/
theorem canceled_job_is_sent :
    ∃ s t, (handle demo).Reachable s ∧ (handle demo).Runs s t ∧
      s.sup.inflight = some ("1", 1) ∧ s.ledger.queued = [2] ∧ (s.sh.replies 2).closed = true ∧
      t.sup.frames.map (fun f => (f.job.reply, f.wanted)) = [(1, true), (2, false)] ∧
      t.sh.stdin = t.sup.frames.flatMap (Dispatch.bytes demo) ∧
      t.sup.outcome = some (.restart "request 2 was canceled by the caller") := by
  have hrun : ((handle demo).exec (handle demo).init
      (ready ++ predict 1 ++ dispatch ++ predict 2 ++ [.call 2 .cancel])).bind (fun s =>
        ((handle demo).exec s ([emits 1] ++ go 3 ++ dispatch ++ [.sup .tick, .sup .go])).map
          (fun t => decide (s.sup.inflight = some ("1", 1) ∧ s.ledger.queued = [2] ∧
            (s.sh.replies 2).closed = true ∧
            t.sup.frames.map (fun f => (f.job.reply, f.wanted)) = [(1, true), (2, false)] ∧
            t.sh.stdin = t.sup.frames.flatMap (Dispatch.bytes demo) ∧
            t.sup.outcome = some (.restart "request 2 was canceled by the caller")))) =
      some true := by decide +kernel
  obtain ⟨s, t, hs, ht, hv⟩ := Machine.runs_of_exec_exec hrun
  exact ⟨s, t, hs, ht, of_decide_eq_true hv⟩

end Sys

end Layad
