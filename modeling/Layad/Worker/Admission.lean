import Layad.Worker.Conservation
import Mathlib.Data.Finset.Card

namespace Layad

open Channel Transition

/-!
# What admission bounds

A prediction takes its permit when it starts and gives it back when its future ends.  Its
job may live longer: a caller that goes away leaves the job in the queue, and its permit lets
the next caller in (`Sys.abandoned_job_exceeds_bound`).  As long as a prediction sends its
job only while every open job has its caller waiting, no more than `max_concurrent` jobs are
queued or in flight (`Sys.predictions_bounded`).
-/

namespace Call

variable {cx : Ctx} {sh : Shared} {key : Nat} {c c' : Call} {ev : CallEv} {eff : Eff}

/-- The call holds a permit of the semaphore. -/
@[simp]
def holdsPermit : Call → Bool
  | .predict _ .checking | .predict _ .sending | .predict _ .awaiting
  | .predict _ (.leaving _) => true
  | _ => false

/-- The prediction waits for the answer to its job. -/
@[simp]
def isAwaiting : Call → Bool
  | .predict _ .awaiting => true
  | _ => false

/-- A prediction that awaits its answer holds a permit. -/
theorem holdsPermit_of_isAwaiting (h : c.isAwaiting = true) : c.holdsPermit = true := by
  unfold isAwaiting at h
  split at h
  · rfl
  · cases h

/-- A prediction that sends its job holds a permit. -/
theorem holdsPermit_of_sending (h : c.sending = true) :
    c.holdsPermit = true ∧ c.isPrediction = true := by
  unfold sending at h
  split at h
  · exact ⟨rfl, rfl⟩
  · cases h

/-- Only predictions hold permits. -/
theorem not_holdsPermit (h : c.isPrediction = false) : c.holdsPermit = false := by
  cases c <;> simp_all

/-- What a step does with the permits: it takes one for the call, gives the call's one back,
    or leaves them alone. -/
def Permits (sh : Shared) (c c' : Call) (eff : Eff) : Prop :=
  (c.holdsPermit = false ∧ c'.holdsPermit = true ∧ eff = .acquire ∧ 0 < sh.admission) ∨
  (c.holdsPermit = true ∧ c'.holdsPermit = false ∧ eff = .release) ∨
  (c'.holdsPermit = c.holdsPermit ∧ (sh.apply eff).admission = sh.admission)

/-- A call other than a prediction has no business with the semaphore. -/
theorem Permits.of_not_prediction (hc : c.isPrediction = false) (hc' : c'.isPrediction = false)
    (he : eff ≠ .acquire ∧ eff ≠ .release) : Permits sh c c' eff := by
  refine Or.inr (Or.inr ⟨?_, ?_⟩)
  · rw [not_holdsPermit hc, not_holdsPermit hc']
  · cases eff <;> simp_all [Shared.apply, Shared.signalChild]

/-- `kill_now` neither takes nor frees a permit. -/
theorem killStep_permits {pc pc' : KillPc} (h : killStep cx sh pc ev = some (pc', eff)) :
    eff ≠ .acquire ∧ eff ≠ .release := by
  rcases killStep_does h with rfl | rfl | rfl
  all_goals simp

/-- `shutdown` neither takes nor frees a permit. -/
theorem shutdownStep_permits {grace : Nat} {pc pc' : ShutPc}
    (h : shutdownStep cx sh key grace pc ev = some (pc', eff)) :
    eff ≠ .acquire ∧ eff ≠ .release := by
  rcases shutdownStep_cases h with
    ⟨-, -, rfl⟩ | ⟨-, -, rfl | ⟨rfl, -⟩⟩ | ⟨-, -, rfl | rfl | rfl | rfl⟩
  all_goals simp

/-- The readiness future neither takes nor frees a permit. -/
theorem readinessStep_permits {pc pc' : StartPc}
    (h : readinessStep cx sh key pc ev = some (pc', eff)) :
    eff ≠ .acquire ∧ eff ≠ .release := by
  rcases readinessStep_cases h with ⟨err, pc₀, rfl⟩ | ⟨-, -, rfl | rfl, -⟩
  · obtain ⟨pc₁, hs, -⟩ := stopping_cases h
    exact shutdownStep_permits hs
  all_goals simp

/-- `mark_failed` neither takes nor frees a permit. -/
theorem markStep_permits {reason : String} {stage : MarkPc} {stage' : Option MarkPc}
    (h : markStep sh reason stage ev = some (stage', eff)) :
    eff ≠ .acquire ∧ eff ≠ .release := by
  rcases markStep_does h with ⟨-, rfl | ⟨rfl, -⟩ | rfl | rfl | rfl⟩
  all_goals simp

/-- A prediction takes one permit, at its start, and gives it back at its end. -/
theorem predictStep_permits {params : Json} {pc pc' : PredictPc}
    (h : predictStep sh key params pc ev = some (pc', eff)) :
    Permits sh (.predict params pc) (.predict params pc') eff := by
  revert h
  fun_cases predictStep sh key params pc ev
  all_goals intro h
  all_goals simp only [Option.some.injEq, Prod.mk.injEq, reduceCtorEq] at h
  all_goals obtain ⟨rfl, rfl⟩ := h
  all_goals simp [Permits, Shared.apply]

/-- **What a step of a call does with the permits.** -/
theorem step_permits (h : c.step cx sh key ev = some (c', eff)) : Permits sh c c' eff := by
  cases stepped h with
  | started request hs =>
    revert hs
    fun_cases start sh request
    all_goals rintro ⟨⟩
    all_goals simp_all [Permits, Shared.apply]
  | readiness hs => exact .of_not_prediction rfl rfl (readinessStep_permits hs)
  | predict hs => exact predictStep_permits hs
  | shutdown hs => exact .of_not_prediction rfl rfl (shutdownStep_permits hs)
  | killNow hs => exact .of_not_prediction rfl rfl (killStep_permits hs)
  | markFailed hs => exact .of_not_prediction rfl rfl (markStep_permits hs)

end Call

namespace Sys

variable {cx : Ctx} {s s' t : Sys} {l : Label}

/-! ### The permits -/

/-- The permits that are out belong to finitely many calls, one each; with the free ones they
    make up the semaphore. -/
def PermitsOut (cx : Ctx) (s : Sys) (held : Finset Nat) : Prop :=
  (∀ k, k ∈ held ↔ (s.calls k).holdsPermit = true) ∧
    held.card + s.sh.admission = cx.config.maxConcurrent

/-- The supervisor leaves the semaphore alone. -/
theorem admission_of_sup {ev : SupEv} {p : Sup} {eff : Eff}
    (hp : s.sup.step cx s.sh ev = some (p, eff)) :
    (s.sh.apply eff).admission = s.sh.admission := by
  have hd := Sup.step_does hp
  cases eff <;> simp_all [Sup.Does, Shared.apply, Shared.signalChild]

/-- A call's step moves at most its own permit. -/
theorem PermitsOut.call {held : Finset Nat} (h : s.PermitsOut cx held) {key : Nat} {ev : CallEv}
    {c : Call} {eff : Eff} (hc : (s.calls key).step cx s.sh key ev = some (c, eff)) :
    ∃ held', PermitsOut cx
      { s with calls := Function.update s.calls key c, sh := s.sh.apply eff } held' := by
  obtain ⟨hmem, hcard⟩ := h
  -- the other calls keep what they have
  have hother : ∀ k, k ≠ key →
      (k ∈ held ↔ (Function.update s.calls key c k).holdsPermit = true) := by
    intro k hk
    rw [Function.update_of_ne hk]
    exact hmem k
  rcases Call.step_permits hc with ⟨hno, hyes, rfl, hpos⟩ | ⟨hyes, hno, rfl⟩ | ⟨hsame, hadm⟩
  · have hnew : key ∉ held := fun hk => by
      rw [(hmem key).mp hk] at hno
      cases hno
    refine ⟨insert key held, fun k => ?_, ?_⟩
    · by_cases hk : k = key
      · subst hk
        refine iff_of_true (Finset.mem_insert_self k held) ?_
        show (Function.update s.calls k c k).holdsPermit = true
        rw [Function.update_self, hyes]
      · rw [Finset.mem_insert, or_iff_right hk]
        exact hother k hk
    · have hlen := Finset.card_insert_of_notMem hnew
      show (insert key held).card + (s.sh.admission - 1) = _
      omega
  · have hold : key ∈ held := (hmem key).mpr hyes
    refine ⟨held.erase key, fun k => ?_, ?_⟩
    · by_cases hk : k = key
      · subst hk
        refine iff_of_false (Finset.notMem_erase k held) ?_
        show ¬(Function.update s.calls k c k).holdsPermit = true
        rw [Function.update_self, hno]
        exact Bool.false_ne_true
      · rw [Finset.mem_erase, and_iff_right hk]
        exact hother k hk
    · have hlen := Finset.card_erase_add_one hold
      show (held.erase key).card + (s.sh.admission + 1) = _
      omega
  · refine ⟨held, fun k => ?_, ?_⟩
    · by_cases hk : k = key
      · subst hk
        show _ ↔ (Function.update s.calls k c k).holdsPermit = true
        rw [hmem, Function.update_self, hsame]
      · exact hother k hk
    · show held.card + (s.sh.apply eff).admission = _
      rw [hadm, hcard]

/-- **The semaphore is conserved** in every reachable state. -/
theorem PermitsOut.reachable (h : (handle cx).Reachable s) : ∃ held, s.PermitsOut cx held := by
  refine Machine.invariant_of_step (P := fun s => ∃ held, s.PermitsOut cx held) ?_ ?_ h
  · refine ⟨∅, fun k => ?_, Nat.zero_add _⟩
    simp only [handle, Sys.init, Finset.notMem_empty, false_iff]
    split <;> simp
  · rintro s l s' ⟨held, hs⟩ hstep
    rcases step_cases hstep with
      ⟨ev, p, eff, -, hp, rfl⟩ | ⟨key, ev, c, eff, -, hc, rfl⟩ | ⟨d, -, rfl⟩ | ⟨status, -, rfl⟩
    · refine ⟨held, hs.1, ?_⟩
      show held.card + (s.sh.apply eff).admission = _
      rw [admission_of_sup hp]
      exact hs.2
    · exact hs.call hc
    · exact ⟨held, hs⟩
    · exact ⟨held, hs⟩

/-! ### The open jobs -/

/-- The jobs that are queued or worked on. -/
def openJobs (s : Sys) : List Nat := s.ledger.queued ++ s.ledger.held

/-- Those of predictions: all but the wake-up jobs of shutdowns. -/
def predictions (s : Sys) : List Nat := s.openJobs.filter fun k => (s.calls k).isPrediction

/-- A prediction sends its job only while every open job of a prediction has its caller
    waiting. -/
def accompanied (s : Sys) : Label → Bool
  | .call key .go => !(s.calls key).sending || s.predictions.all fun k => (s.calls k).isAwaiting
  | _ => true

/-- No prediction is counted twice. -/
theorem nodup_predictions (hb : s.Booked) : s.predictions.Nodup :=
  hb.balanced.open_nodup.filter _

/-- An open job is one that was accepted and not answered. -/
theorem mem_openJobs (hb : s.Booked) {k : Nat} :
    k ∈ s.openJobs ↔ k ∈ s.ledger.accepted ∧ (s.sh.replies k).slot = .empty :=
  hb.balanced.mem_open k

/-- A job that was accepted before a step and is open after it was open before. -/
theorem openJobs_step (hb : s.Booked) (hb' : t.Booked) (h : s.step cx l = some t) {k : Nat}
    (hacc : k ∈ s.ledger.accepted) (hk : k ∈ t.openJobs) : k ∈ s.openJobs := by
  rw [mem_openJobs hb']  at hk
  refine (mem_openJobs hb).mpr ⟨hacc, ?_⟩
  by_contra hne
  exact hne (slot_stable_step hb h hne ▸ hk.2)

/-- A call whose job was accepted is a prediction after a step just if it was one before. -/
theorem isPrediction_update (hb : s.Booked) {key : Nat} {ev : CallEv} {c : Call} {eff : Eff}
    (hc : (s.calls key).step cx s.sh key ev = some (c, eff)) {k : Nat}
    (hk : k ∈ s.ledger.accepted) :
    (Function.update s.calls key c k).isPrediction = (s.calls k).isPrediction := by
  by_cases he : k = key
  · subst he
    rw [Function.update_self]
    refine (Call.step_moved hc).kind.resolve_left fun hidle => ?_
    exact hb.fresh k (by rw [hidle]; rfl) hk
  · rw [Function.update_of_ne he]

/-- A prediction leaves the sending point with its job sent by going on. -/
theorem go_of_sent {key : Nat} {params : Json} {ev : CallEv} {eff : Eff}
    (h : (Call.predict params .sending).step cx s.sh key ev =
      some (.predict params .awaiting, eff)) : ev = .go := by
  cases ev <;> simp_all [Call.step, Call.predictStep]

/-- A step opens no prediction's job but the one a prediction sends in it. -/
theorem predictions_step (hb : s.Booked) (hb' : t.Booked) (h : s.step cx l = some t) :
    t.predictions ⊆ s.predictions ∨
      ∃ key, l = .call key .go ∧ (s.calls key).sending = true ∧
        t.predictions ⊆ key :: s.predictions := by
  have hmem : ∀ {k}, k ∈ t.predictions ↔ k ∈ t.openJobs ∧ (t.calls k).isPrediction = true :=
    List.mem_filter
  have hkeep : ∀ {k}, k ∈ t.predictions → k ∈ s.ledger.accepted →
      (t.calls k).isPrediction = (s.calls k).isPrediction → k ∈ s.predictions := by
    intro k hk hacc hkind
    obtain ⟨hk, hpred⟩ := hmem.mp hk
    exact List.mem_filter.mpr ⟨openJobs_step hb hb' h hacc hk, hkind ▸ hpred⟩
  have hacc : ∀ {k}, k ∈ t.predictions → k ∈ t.ledger.accepted :=
    fun hk => ((mem_openJobs hb').mp (hmem.mp hk).1).1
  rcases step_cases h with
    ⟨ev, p, eff, -, hp, rfl⟩ | ⟨key, ev, c, eff, rfl, hc, rfl⟩ | ⟨d, -, rfl⟩ | ⟨status, -, rfl⟩
  · -- the supervisor only takes jobs away
    refine Or.inl fun k hk => hkeep hk ?_ rfl
    simpa only [ledger, accepted_of_sup hp] using hacc hk
  · have hm := Call.step_moved hc
    rcases accepted_of_call hm.does with ha | ⟨params, ha, rfl, -⟩
    · refine Or.inl fun k hk => ?_
      have hk' : k ∈ s.ledger.accepted := by simpa only [ledger, ha] using hacc hk
      exact hkeep hk hk' (isPrediction_update hb hc hk')
    · -- the job sent in this step is the call's own
      have hsent : ∀ {k}, k ∈ predictions { s with
          calls := Function.update s.calls key c, sh := s.sh.apply (.push ⟨params, key⟩) } →
            k = key ∨ k ∈ s.predictions := by
        intro k hk
        have hk' : k ∈ s.ledger.accepted ∨ k = key := by
          simpa [ledger, ha] using hacc hk
        rcases hk' with hk' | rfl
        · exact Or.inr (hkeep hk hk' (isPrediction_update hb hc hk'))
        · exact Or.inl rfl
      obtain ⟨-, -, -, -, ⟨hs, hs'⟩ | ⟨hw, -⟩⟩ := hm.does
      · refine Or.inr ⟨key, ?_, by rw [hs]; rfl, fun k hk => List.mem_cons.mpr (hsent hk)⟩
        rw [hs, hs'] at hc
        rw [go_of_sent hc]
      · -- a wake-up job belongs to no prediction
        refine Or.inl fun k hk => (hsent hk).resolve_left ?_
        rintro rfl
        have hno := not_prediction_of_waking hw
        have hkind := hm.kind.resolve_left hno.2
        have hpred := (hmem.mp hk).2
        dsimp only at hpred
        rw [Function.update_self, hkind, hno.1] at hpred
        cases hpred
  · exact Or.inl fun k hk => hk
  · exact Or.inl fun k hk => hk

/-- A prediction that sends its job while the other open ones are waited for stays within the
    bound: all of them hold a permit. -/
theorem length_of_accompanied {held : Finset Nat} (hp : s.PermitsOut cx held) {key : Nat}
    (hsend : (s.calls key).sending = true) {jobs : List Nat} (hn : jobs.Nodup)
    (hjobs : jobs ⊆ key :: s.predictions)
    (hg : ∀ k ∈ s.predictions, (s.calls k).isAwaiting = true) :
    jobs.length ≤ cx.config.maxConcurrent := by
  have hsub : jobs.toFinset ⊆ held := by
    intro k hk
    refine (hp.1 k).mpr ?_
    rcases List.mem_cons.mp (hjobs (List.mem_toFinset.mp hk)) with rfl | hk
    · exact (Call.holdsPermit_of_sending hsend).1
    · exact Call.holdsPermit_of_isAwaiting (hg k hk)
  have hcard := Finset.card_le_card hsub
  have hlen := List.toFinset_card_of_nodup hn
  have hsum := hp.2
  omega

/-- **Admission bounds the outstanding work** in every run in which a prediction sends its job
    only while every open job of a prediction has its caller waiting: no more than
    `max_concurrent` of them are queued or in flight. -/
theorem predictions_bounded (h : ((handle cx).restrict accompanied).Reachable s) :
    s.predictions.length ≤ cx.config.maxConcurrent := by
  refine Machine.invariant_of_restrict
    (P := fun s => s.predictions.length ≤ cx.config.maxConcurrent) ?_ ?_ h
  · exact Nat.zero_le _
  · intro s l t hr hs hg hstep
    have hb := Booked.reachable hr
    have hb' := Booked.reachable (hr.step hstep)
    rcases predictions_step hb hb' hstep with hsub | ⟨key, rfl, hsend, hsub⟩
    · exact Nat.le_trans (List.Subperm.length_le
        (List.subperm_of_subset (nodup_predictions hb') hsub)) hs
    · obtain ⟨held, hp⟩ := PermitsOut.reachable hr
      refine length_of_accompanied hp hsend (nodup_predictions hb') hsub fun k hk => ?_
      simp only [accompanied, hsend, Bool.not_true, Bool.false_or] at hg
      exact List.all_eq_true.mp hg k hk

/-! ### Two runs -/

open Replay in
/-- A handle that admits two predictions. -/
def two : Ctx := { demo with config := { config with maxConcurrent := 2 } }

open Replay in
/-- The result at a run: one prediction is in flight and one queued, and a third is refused. -/
theorem predictions_bounded_full :
    ∃ s, (handle two).Reachable s ∧ s.predictions = [2, 1] ∧
      (s.calls 3).failure = some .overloaded ∧ s.predictions.length ≤ 2 := by
  have hrun : (((handle two).restrict accompanied).exec (handle two).init
      (ready ++ predict 1 ++ dispatch ++ predict 2 ++ [.call 3 (.begin (.predict .null))])).map
      (fun s => (s.predictions, (s.calls 3).failure)) = some ([2, 1], some .overloaded) := by
    decide +kernel
  obtain ⟨s, hs, hv⟩ := Machine.reachable_of_exec hrun
  obtain ⟨hpred, hfail⟩ := Prod.mk.inj hv
  exact ⟨s, hs.of_restrict, hpred, hfail, predictions_bounded hs⟩

open Replay in
/-- One prediction is in flight and one queued, whose caller goes away: a third is admitted, and
    three jobs are at a worker that is meant to have two. -/
theorem abandoned_job_exceeds_bound :
    ∃ s, (handle two).Reachable s ∧ s.sup.inflight = some ("1", 1) ∧ s.ledger.queued = [2, 3] ∧
      two.config.maxConcurrent < s.predictions.length := by
  have hrun : ((handle two).exec (handle two).init
      (ready ++ predict 1 ++ dispatch ++ predict 2 ++ [.call 2 .cancel, .call 2 .go] ++
        predict 3)).map (fun s => decide (s.sup.inflight = some ("1", 1) ∧
          s.ledger.queued = [2, 3] ∧ two.config.maxConcurrent < s.predictions.length)) =
      some true := by decide +kernel
  obtain ⟨s, hs, hv⟩ := Machine.reachable_of_exec hrun
  exact ⟨s, hs, of_decide_eq_true hv⟩

end Sys

end Layad
