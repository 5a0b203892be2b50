import Layad.Worker.Finish

namespace Layad

open Channel Transition

/-!
# The end of the task is announced once

The supervisor's last act is one `notify_one`: it wakes one call that waits, or leaves one
permit for the next.  Any number of calls may wait, so one whose permit another call took can
only let its deadline pass (`Sys.second_shutdown_waits_in_vain`).  A call that waits can be
notified as long as no other call takes the notification from it, and it did not come when it
was gone (`Sys.notified_unless_taken`).
-/

/-- The call waits for the supervisor. -/
@[simp]
def KillPc.waits : KillPc → Bool
  | .awaitDone _ => true
  | _ => false

/-- The call is about to wait. -/
@[simp]
def KillPc.arriving : KillPc → Bool
  | .notifyStop => true
  | _ => false

/-- The shutdown waits on the notification. -/
@[simp]
def ShutPc.waits : ShutPc → Bool
  | .awaitDone _ => true
  | .killing pc => pc.waits
  | _ => false

/-- The shutdown's next step begins such a wait. -/
@[simp]
def ShutPc.arriving : ShutPc → Bool
  | .wake => true
  | .killing pc => pc.arriving
  | _ => false

/-- The notification arrives. -/
def CallEv.isNotified : CallEv → Bool
  | .notified => true
  | _ => false

/-- The test of a notification. -/
theorem CallEv.isNotified_iff {ev : CallEv} : ev.isNotified = true ↔ ev = .notified := by
  cases ev <;> simp [isNotified]

namespace Call

variable {cx : Ctx} {sh : Shared} {key grace : Nat} {c c' : Call} {ev : CallEv} {eff : Eff}

/-- The call waits on the `done` notification, in `shutdown` or in `kill_now`. -/
def waits : Call → Bool
  | .readiness (.stopping _ pc) | .shutdown _ pc => pc.waits
  | .killNow pc => pc.waits
  | _ => false

/-- The next step of the call begins such a wait. -/
def arriving : Call → Bool
  | .readiness (.stopping _ pc) | .shutdown _ pc => pc.arriving
  | .killNow pc => pc.arriving
  | _ => false

/-! ### One step of a call -/

/-- A wait takes one step to begin and one to end, and a call is notified while there is a
    permit, which it takes. -/
structure Heeds (sh : Shared) (ev : CallEv) (arriving waits : Bool) (eff : Eff) : Prop where
  arrives : waits = arriving
  undisturbed : arriving = true → ev ≠ .notified
  permit : ev = .notified → sh.done = true
  takes : eff = .takeDone ↔ ev = .notified

/-- How `kill_now` comes to its wait, and leaves it. -/
theorem killStep_heeds {pc pc' : KillPc} (h : killStep cx sh pc ev = some (pc', eff)) :
    Heeds sh ev pc.arriving pc'.waits eff := by
  revert h
  fun_cases killStep cx sh pc ev
  all_goals intro h
  all_goals simp only [Option.some.injEq, Prod.mk.injEq, reduceCtorEq] at h
  all_goals obtain ⟨rfl, rfl⟩ := h
  case case1 =>
    split
    all_goals constructor <;> simp
  all_goals constructor <;> simp_all

/-- How `shutdown` comes to its wait, and leaves it. -/
theorem shutdownStep_heeds {pc pc' : ShutPc}
    (h : shutdownStep cx sh key grace pc ev = some (pc', eff)) :
    Heeds sh ev pc.arriving pc'.waits eff := by
  revert h
  fun_cases shutdownStep cx sh key grace pc ev
  all_goals intro h
  case case8 pc =>
    -- the kill has its own steps; its end is no wait
    obtain ⟨⟨pc₁, eff₁⟩, hk, hm⟩ := Option.map_eq_some_iff.mp h
    obtain ⟨rfl, rfl⟩ := Prod.mk.inj hm
    have hheeds := killStep_heeds hk
    refine ⟨?_, hheeds.undisturbed, hheeds.permit, hheeds.takes⟩
    rw [ShutPc.arriving, ← hheeds.arrives]
    cases pc₁ <;> rfl
  all_goals simp only [Option.some.injEq, Prod.mk.injEq, reduceCtorEq] at h
  all_goals obtain ⟨rfl, rfl⟩ := h
  case case2 =>
    split
    all_goals constructor <;> simp
  all_goals constructor <;> simp_all

/-- How the readiness future comes to its wait, and leaves it. -/
theorem readinessStep_heeds {pc pc' : StartPc}
    (h : readinessStep cx sh key pc ev = some (pc', eff)) :
    Heeds sh ev (Call.readiness pc).arriving (Call.readiness pc').waits eff := by
  rcases readinessStep_cases h with ⟨err, pc₀, rfl⟩ | ⟨hpc, hev, heff, hpc'⟩
  · obtain ⟨pc₁, hs, ⟨rfl, rfl⟩ | ⟨e, rfl⟩⟩ := stopping_cases h
    · have hheeds := shutdownStep_heeds hs
      exact ⟨hheeds.arrives, hheeds.undisturbed, hheeds.permit, hheeds.takes⟩
    · exact shutdownStep_heeds hs
  · rcases hpc with rfl | ⟨deadline, rfl⟩
    all_goals
      rcases heff with rfl | rfl
      all_goals
        rcases hpc' with ⟨later, rfl⟩ | rfl | rfl | ⟨err, rfl, -⟩
        all_goals constructor <;> simp [waits, arriving, hev]

/-- How a call comes to its wait, and leaves it. -/
theorem step_heeds (h : c.step cx sh key ev = some (c', eff)) :
    Heeds sh ev c.arriving c'.waits eff := by
  cases stepped h with
  | started request hs =>
    have hev : ev ≠ .notified := by
      rintro rfl
      cases h
    revert hs
    fun_cases start sh request
    all_goals rintro ⟨⟩
    all_goals constructor <;> simp [waits, arriving, hev]
  | readiness hs => exact readinessStep_heeds hs
  | @predict params pc pc' eff hs =>
    rcases predictStep_does hs with ⟨hev, rfl | rfl | rfl | rfl⟩
    all_goals constructor <;> simp [waits, arriving, hev]
  | shutdown hs => exact shutdownStep_heeds hs
  | killNow hs => exact killStep_heeds hs
  | @markFailed reason stage stage' eff hs =>
    rcases markStep_does hs with ⟨hev, rfl | ⟨rfl, -⟩ | rfl | rfl | rfl⟩
    all_goals constructor <;> simp [waits, arriving, hev]

/-- With a permit there the wait of `kill_now` may end. -/
theorem killStep_notified {pc : KillPc} (hw : pc.waits = true) (hd : sh.done = true) :
    killStep cx sh pc .notified = some (.over, .takeDone) := by
  cases pc <;> simp_all [killStep]

/-- With a permit there the wait of `shutdown` may end. -/
theorem shutdownStep_notified {pc : ShutPc} (hw : pc.waits = true) (hd : sh.done = true) :
    shutdownStep cx sh key grace pc .notified = some (.leaving, .takeDone) := by
  cases pc with
  | killing pc => simp [shutdownStep, killStep_notified hw hd]
  | _ => simp_all [shutdownStep]

/-- While there is a permit, a call that waits can take it. -/
theorem step_notified (hw : c.waits = true) (hd : sh.done = true) :
    ∃ c', c.step cx sh key .notified = some (c', .takeDone) := by
  cases c with
  | readiness pc =>
    cases pc with
    | stopping err pc => simp [step, readinessStep, shutdownStep_notified hw hd]
    | _ => simp [waits] at hw
  | shutdown grace pc => simp [step, shutdownStep_notified hw hd]
  | killNow pc => simp [step, killStep_notified hw hd]
  | _ => simp [waits] at hw

/-- No call notifies the others. -/
theorem ne_notifyDone (h : c.step cx sh key ev = some (c', eff)) : eff ≠ .notifyDone := by
  rintro rfl
  exact (step_moved h).does

end Call

/-! ### The permit -/

/-- The permit is left by the last step of the supervisor and taken by the calls. -/
theorem Shared.done_apply {sh : Shared} {eff : Eff} (hn : eff ≠ .notifyDone)
    (ht : eff ≠ .takeDone) : (sh.apply eff).done = sh.done := by
  cases eff <;> simp_all [apply, signalChild]

/-- After a frame the task is not finished. -/
theorem Pc.not_finished_of_decided {pc : Pc} (h : pc.decided = true) : pc ≠ .finished := by
  rintro rfl
  cases h

/-- The supervisor finishes by the notification, and notifies by finishing. -/
theorem Sup.step_notifyDone {cx : Ctx} {sh : Shared} {p p' : Sup} {ev : SupEv} {eff : Eff}
    (h : p.step cx sh ev = some (p', eff)) : eff = .notifyDone ↔ p'.pc = .finished := by
  revert h
  fun_cases Sup.step cx sh p ev
  all_goals intro h
  all_goals simp only [Option.some.injEq, Prod.mk.injEq, reduceCtorEq] at h
  all_goals obtain ⟨rfl, rfl⟩ := h
  all_goals try (simp; done)
  -- the ends of the session and of `shutdown_child`, and what depends on the state found
  all_goals first
    | exact iff_of_false (by simp) (Pc.not_finished_of_decided (decided_settleRestart _ _))
    | exact iff_of_false (by simp) (Pc.not_finished_of_decided (decided_failInflight _ _))
    | exact iff_of_false (by simp) (Pc.not_finished_of_decided (decided_onIdleFrame _))
    | exact iff_of_false (by simp) (Pc.not_finished_of_decided (decided_onWaitFrame _))
    | (rename Option String => reason
       cases reason <;> simp [afterReap])
    | (split <;> simp)
    | (rename p.read cx _ = some _ => hr
       obtain ⟨buf, avail, rfl⟩ := read_eq hr
       simp [*])

/-- The supervisor does not take its own notification. -/
theorem Sup.ne_takeDone {cx : Ctx} {sh : Shared} {p p' : Sup} {ev : SupEv} {eff : Eff}
    (h : p.step cx sh ev = some (p', eff)) : eff ≠ .takeDone := by
  rintro rfl
  exact step_does h

namespace Sys

variable {cx : Ctx} {s t : Sys} {l : Label}

/-- The supervisor has finished, and its notification was taken. -/
def Spent (s : Sys) : Prop := s.sup.pc = .finished ∧ s.sh.done = false

/-- What is spent stays so. -/
theorem Spent.step (hs : s.Spent) (h : s.step cx l = some t) : t.Spent := by
  obtain ⟨hf, hd⟩ := hs
  refine ⟨finished_step hf h, ?_⟩
  rcases step_cases h with
    ⟨ev, p, eff, -, hp, rfl⟩ | ⟨key, ev, c, eff, -, hc, rfl⟩ | ⟨d, -, rfl⟩ | ⟨status, -, rfl⟩
  · rw [Sup.step_finished hf] at hp
    cases hp
  · rw [Shared.done_apply (Call.ne_notifyDone hc) fun ht => ?_]
    · exact hd
    · exact absurd hd (by simp [(Call.step_heeds hc).permit ((Call.step_heeds hc).takes.mp ht)])
  · exact hd
  · exact hd

/-- Call `k` can still be notified: the run can go on so that it is. -/
def Notifiable (cx : Ctx) (s : Sys) (k : Nat) : Prop :=
  ∃ t u, (handle cx).Runs s t ∧ (handle cx).step t (.call k .notified) = some u

/-- With a permit there a call that waits can be notified. -/
theorem notifiable_of_done {k : Nat} (hw : (s.calls k).waits = true) (hd : s.sh.done = true) :
    s.Notifiable cx k := by
  obtain ⟨c, hc⟩ : ∃ c, (s.calls k).step cx s.sh k .notified = some (c, .takeDone) :=
    Call.step_notified hw hd
  have hstep : (handle cx).step s (.call k .notified) =
      some { s with calls := Function.update s.calls k c, sh := s.sh.apply .takeDone } := by
    simp [handle, step, hc]
  exact ⟨s, _, Machine.Runs.refl s, hstep⟩

/-- Once the notification was taken no call can be notified. -/
theorem Spent.not_notifiable (hs : s.Spent) (k : Nat) : ¬ s.Notifiable cx k := by
  rintro ⟨t, u, hr, hstep⟩
  have ht : t.Spent := by
    clear hstep
    induction hr with
    | refl => exact hs
    | tail _ hn ih =>
      obtain ⟨l, hl⟩ := hn
      exact ih.step hl
  obtain ⟨⟨c, eff⟩, hc, -⟩ := Option.map_eq_some_iff.mp hstep
  exact absurd ht.2 (by simp [(Call.step_heeds hc).permit rfl])

/-- Nobody takes the notification from call `k`: no other call is notified while it waits, and
    it does not begin to wait when the notification is gone. -/
def leaves (k : Nat) (s : Sys) : Label → Bool
  | .call key ev =>
    if key = k then !((s.calls k).arriving && s.sup.pc.isFinished && !s.sh.done)
    else !(ev.isNotified && (s.calls k).waits)
  | _ => true

/-- A permit is there only when the supervisor has finished. -/
theorem finished_of_done (h : (handle cx).Reachable s) :
    s.sh.done = true → s.sup.pc = .finished := by
  refine Machine.invariant_of_step (P := fun s => s.sh.done = true → s.sup.pc = .finished)
    (fun h => by cases h) (fun s l t hs h hd => ?_) h
  rcases step_cases h with
    ⟨ev, p, eff, rfl, hp, rfl⟩ | ⟨key, ev, c, eff, rfl, hc, rfl⟩ | ⟨d, -, rfl⟩ | ⟨status, -, rfl⟩
  · by_cases hn : eff = .notifyDone
    · exact (Sup.step_notifyDone hp).mp hn
    · dsimp only at hd
      rw [Shared.done_apply hn (Sup.ne_takeDone hp)] at hd
      rw [Sup.step_finished (hs hd)] at hp
      cases hp
  · have hheeds := Call.step_heeds hc
    by_cases ht : eff = .takeDone
    · exact hs (hheeds.permit (hheeds.takes.mp ht))
    · dsimp only at hd
      rw [Shared.done_apply (Call.ne_notifyDone hc) ht] at hd
      exact hs hd
  · exact hs hd
  · exact hs hd

/-- The permit is there for call `k`, if it waits for a supervisor that has finished. -/
def Kept (k : Nat) (s : Sys) : Prop :=
  s.sup.pc = .finished → (s.calls k).waits = true → s.sh.done = true

/-- The supervisor finishes with a permit. -/
theorem Kept.sup {k : Nat} {ev : SupEv} {p : Sup} {eff : Eff}
    (hp : s.sup.step cx s.sh ev = some (p, eff)) :
    Kept k { s with sup := p, sh := s.sh.apply eff } := by
  intro hf hw
  obtain rfl := (Sup.step_notifyDone hp).mpr hf
  rfl

/-- A call that is not notified takes no permit. -/
theorem Kept.call {k : Nat} (hs : s.Kept k) {key : Nat} {ev : CallEv} {c : Call} {eff : Eff}
    (hg : s.leaves k (.call key ev) = true)
    (hc : (s.calls key).step cx s.sh key ev = some (c, eff)) :
    Kept k { s with calls := Function.update s.calls key c, sh := s.sh.apply eff } := by
  have hheeds := Call.step_heeds hc
  have hn := Call.ne_notifyDone hc
  intro hf hw
  dsimp only at hf hw ⊢
  by_cases hk : key = k
  · -- the call has just begun to wait, and the notification was not gone
    subst hk
    rw [Function.update_self, hheeds.arrives] at hw
    rw [Shared.done_apply hn fun ht => hheeds.undisturbed hw (hheeds.takes.mp ht)]
    rw [leaves, if_pos rfl, hw, Pc.isFinished_iff.mpr hf] at hg
    simpa using hg
  · rw [Function.update_of_ne (Ne.symm hk)] at hw
    have ht : eff ≠ .takeDone := by
      intro ht
      obtain rfl := hheeds.takes.mp ht
      simp [leaves, hk, hw, CallEv.isNotified] at hg
    rw [Shared.done_apply hn ht]
    exact hs hf hw

/-- A step that takes no notification from the call leaves it a permit. -/
theorem Kept.step {k : Nat} (hs : s.Kept k) (hg : s.leaves k l = true)
    (h : s.step cx l = some t) : t.Kept k := by
  rcases step_cases h with
    ⟨ev, p, eff, rfl, hp, rfl⟩ | ⟨key, ev, c, eff, rfl, hc, rfl⟩ | ⟨d, -, rfl⟩ | ⟨status, -, rfl⟩
  · exact Kept.sup hp
  · exact hs.call hg hc
  · exact hs
  · exact hs

/-- The first step that takes the notification from call `k`. -/
theorem spent_of_taken {k : Nat} (hf : s.sh.done = true → s.sup.pc = .finished)
    (hg : s.leaves k l = false) (h : s.step cx l = some t) :
    t.Spent ∧ (t.calls k).waits = true := by
  rcases step_cases h with
    ⟨ev, p, eff, rfl, hp, rfl⟩ | ⟨key, ev, c, eff, rfl, hc, rfl⟩ | ⟨d, rfl, rfl⟩ |
    ⟨status, rfl, rfl⟩
  case inr.inl =>
    have hheeds := Call.step_heeds hc
    by_cases hk : key = k
    · -- it comes too late
      subst hk
      rw [leaves, if_pos rfl] at hg
      obtain ⟨⟨harr, hfin⟩, hd⟩ : ((s.calls key).arriving = true ∧ s.sup.pc.isFinished = true) ∧
          s.sh.done = false := by simpa using hg
      refine ⟨⟨Pc.isFinished_iff.mp hfin, ?_⟩, ?_⟩
      · rw [Shared.done_apply (Call.ne_notifyDone hc)
          fun ht => hheeds.undisturbed harr (hheeds.takes.mp ht)]
        exact hd
      · dsimp only
        rw [Function.update_self, hheeds.arrives, harr]
    · -- another call is notified
      rw [leaves, if_neg hk] at hg
      obtain ⟨hev, hw⟩ : ev.isNotified = true ∧ (s.calls k).waits = true := by simpa using hg
      have hev := CallEv.isNotified_iff.mp hev
      obtain rfl := hheeds.takes.mpr hev
      refine ⟨⟨hf (hheeds.permit hev), rfl⟩, ?_⟩
      dsimp only
      rw [Function.update_of_ne (Ne.symm hk)]
      exact hw
  all_goals cases hg

/-- **A call that waits can be notified unless the notification is taken from it.**  As long
    as no other call is notified while call `k` waits, and call `k` does not begin to wait when
    the notification is gone: whenever the supervisor has finished and call `k` waits, it can
    still be notified.  The first step against this ends that for good. -/
theorem notified_unless_taken (k : Nat) :
    (∀ s, ((handle cx).restrict (leaves k)).Reachable s → s.sup.pc = .finished →
      (s.calls k).waits = true → s.Notifiable cx k) ∧
    ∀ s l t, (handle cx).Reachable s → (handle cx).step s l = some t → s.leaves k l = false →
      t.sup.pc = .finished ∧ (t.calls k).waits = true ∧ ¬ t.Notifiable cx k := by
  refine ⟨fun s hs hf hw => ?_, fun s l t hs h hg => ?_⟩
  · have hkept : s.Kept k := Machine.invariant_of_restrict (P := Kept k) (fun h => by cases h)
      (fun _ _ _ _ hk hg h => hk.step hg h) hs
    exact notifiable_of_done hw (hkept hf hw)
  · obtain ⟨hspent, hw⟩ := spent_of_taken (finished_of_done hs) hg h
    exact ⟨hspent.1, hw, hspent.not_notifiable k⟩

open Replay in
/-- The worker is ready, call `1` is a shutdown that comes to wait, and the supervisor stops
    the worker and finishes. -/
def stopped : List Label :=
  ready ++ [.call 1 (.begin (.shutdown 10000)), .call 1 .go, .call 1 .go, .sup .recv] ++ go 6 ++
    [.exit "signal: 15 (SIGTERM)", .sup .reap] ++ go 4

open Replay in
/-- The result at a run: the one shutdown can be notified. -/
theorem notified_unless_taken_shutdown :
    ∃ s, (handle demo).Reachable s ∧ s.sup.pc = .finished ∧ (s.calls 1).waits = true ∧
      s.Notifiable demo 1 := by
  have hrun : (((handle demo).restrict (leaves 1)).exec (handle demo).init stopped).map (fun s =>
      decide (s.sup.pc.isFinished = true ∧ (s.calls 1).waits = true)) = some true := by
    decide +kernel
  obtain ⟨s, hs, hv⟩ := Machine.reachable_of_exec hrun
  obtain ⟨hf, hw⟩ := of_decide_eq_true hv
  have hf := Pc.isFinished_iff.mp hf
  exact ⟨s, hs.of_restrict, hf, hw, (notified_unless_taken 1).1 s hs hf hw⟩

open Replay in
/-- A shutdown after the first has been notified: the supervisor has finished, and the call can
    only wait for its deadline. -/
theorem second_shutdown_waits_in_vain :
    ∃ s, (handle demo).Reachable s ∧ s.sup.pc = .finished ∧ (s.calls 2).waits = true ∧
      ¬ s.Notifiable demo 2 := by
  have hrun : ((handle demo).exec (handle demo).init
      (stopped ++ [.call 1 .notified, .call 2 (.begin (.shutdown 10000)), .call 2 .go,
        .call 2 .go])).map (fun s =>
          decide (s.sup.pc.isFinished = true ∧ s.sh.done = false ∧ (s.calls 2).waits = true)) =
      some true := by decide +kernel
  obtain ⟨s, hs, hv⟩ := Machine.reachable_of_exec hrun
  obtain ⟨hf, hd, hw⟩ := of_decide_eq_true hv
  have hf := Pc.isFinished_iff.mp hf
  exact ⟨s, hs, hf, hw, Spent.not_notifiable ⟨hf, hd⟩ 2⟩

end Sys

end Layad
