import Layad.Worker.FailClosed

namespace Layad

open Channel Transition

/-!
# When a failure is published

The session sends a caller the error it ends with before `run_session` sets the state to
`Failed`.  In between, a prediction that starts after the error was returned still finds
`Ready` and enters the queue of the dying worker (`Sys.failure_reported_before_published`).
A prediction whose check comes after `run_session` has returned is refused
(`Sys.refused_once_published`).
-/

/-- The answers of a prediction that is turned away at the door. -/
def Refusal (answer : Answer) : Prop :=
  answer = .error .overloaded ∨ answer = .error .shuttingDown ∨
    ∃ detail, answer = .error (.unavailable detail)

namespace Call

variable {cx : Ctx} {sh : Shared} {key : Nat} {c c' : Call} {ev : CallEv} {eff : Eff}

/-- Not a prediction, or one that is before its check or was turned away. -/
def Outside : Call → Prop
  | .predict _ .checking => True
  | .predict _ (.leaving answer) | .predict _ (.over answer) => ∀ a, answer = some a → Refusal a
  | .predict _ _ => False
  | _ => True

/-- A closed state refuses every prediction. -/
theorem refusal_of_isClosed {state : State} (h : state.isClosed = true) :
    ∃ err, refusal state = some err ∧ Refusal (.error err) := by
  cases state <;> simp_all [State.isClosed, refusal, Refusal]

/-- A prediction that is outside sends no job. -/
theorem sending_of_outside (h : c.Outside) : c.sending = false := by
  unfold Outside at h
  split at h <;> simp_all

/-- A prediction that is outside is answered with a refusal, if at all. -/
theorem Outside.answered (h : c.Outside) : ∀ answer, c.answered = some answer → Refusal answer := by
  unfold Outside at h
  split at h <;> simp_all [Call.answered]

/-- A call stays outside when it is turned away at its check. -/
theorem step_outside (ho : c.Outside)
    (hcheck : ev = .go → (∃ params, c = .predict params .checking) → sh.state.isClosed = true)
    (h : c.step cx sh key ev = some (c', eff)) : c'.Outside := by
  cases stepped h with
  | started request hs =>
    revert hs
    fun_cases start sh request
    all_goals rintro ⟨⟩
    all_goals simp [Outside, Refusal]
  | readiness | shutdown | killNow | markFailed => trivial
  | @predict params pc pc' eff hs =>
    revert hs
    fun_cases predictStep sh key params pc ev
    all_goals intro hs
    all_goals simp only [Option.some.injEq, Prod.mk.injEq, reduceCtorEq] at hs
    all_goals obtain ⟨rfl, rfl⟩ := hs
    -- the check of the state
    all_goals try
      obtain ⟨err, herr, hno⟩ := refusal_of_isClosed (hcheck rfl ⟨params, rfl⟩)
      simp_all [Outside]
    all_goals simp_all [Outside, Refusal]

end Call

namespace Sys

variable {cx : Ctx} {s t : Sys} {l : Label}

/-- The check of call `k` comes after `run_session` has returned. -/
def checksLate (k : Nat) (s : Sys) : Label → Bool
  | .call key .go =>
    match s.calls key with
    | .predict _ .checking => key ≠ k || s.sup.pc.published
    | _ => true
  | _ => true

/-- A call outside a handle whose session has failed. -/
structure Shut (reason : String) (k : Nat) (s : Sys) : Prop where
  outcome : s.sup.outcome = some (.restart reason)
  outside : (s.calls k).Outside
  unsent : (s.calls k).isPrediction = true → k ∉ s.ledger.accepted

/-- A prediction that is outside a failed handle stays there. -/
theorem Shut.step {reason : String} {k : Nat} (hs : s.Shut reason k) (hr : (handle cx).Reachable s)
    (hg : s.checksLate k l = true) (h : s.step cx l = some t) : t.Shut reason k := by
  have ho := ((Frozen.refl hs.outcome).step (Handshake.reachable hr).coherent h).outcome
  rcases step_cases h with
    ⟨ev, p, eff, -, hp, rfl⟩ | ⟨key, ev, c, eff, rfl, hc, rfl⟩ | ⟨d, -, rfl⟩ | ⟨status, -, rfl⟩
  · exact ⟨ho, hs.outside, by simpa only [ledger, accepted_of_sup hp] using hs.unsent⟩
  · refine ⟨ho, ?_, unsent_call (Booked.reachable hr) (Call.sending_of_outside hs.outside)
      hs.unsent hc⟩
    dsimp only
    by_cases he : k = key
    · subst he
      rw [Function.update_self]
      refine Call.step_outside hs.outside ?_ hc
      rintro rfl ⟨params, hpc⟩
      exact Published.reachable hr reason hs.outcome (by simpa [checksLate, hpc] using hg)
    · rw [Function.update_of_ne he]
      exact hs.outside
  · exact ⟨ho, hs.outside, hs.unsent⟩
  · exact ⟨ho, hs.outside, hs.unsent⟩

/-- **A failure that was published turns everyone away.**  Once the session has decided on a
    restart, whatever it told its caller, a prediction that starts afterwards and whose check
    comes after `run_session` has returned never enters the queue, and every answer it is
    given refuses it. -/
theorem refused_once_published {reason : String} (h : (handle cx).Reachable s)
    (ho : s.sup.outcome = some (.restart reason)) {k : Nat} (hk : s.calls k = .idle)
    (hr : ((handle cx).restrict (checksLate k)).Runs s t)
    (hpred : (t.calls k).isPrediction = true) :
    k ∉ t.ledger.accepted ∧ ∀ answer, (t.calls k).answered = some answer → Refusal answer := by
  have hs : s.Shut reason k := ⟨ho, by simp [hk, Call.Outside], by simp [hk]⟩
  have ht : t.Shut reason k :=
    Machine.stable_of_restrict (fun _ _ _ hu hs hg hstep => hs.step hu hg hstep) h hs hr
  exact ⟨ht.unsent hpred, ht.outside.answered⟩

open Replay in
/-- The result at a run: the worker exits while idle, and a prediction starts after
    `run_session` has returned. -/
theorem refused_once_published_exit :
    ∃ s t, (handle demo).Reachable s ∧ ((handle demo).restrict (checksLate 1)).Runs s t ∧
      (t.calls 1).failure = some (.unavailable "worker exited with signal: 9 (SIGKILL)") ∧
      (t.calls 1).isPrediction = true ∧ 1 ∉ t.ledger.accepted := by
  have hrun : ((handle demo).exec (handle demo).init
      (ready ++ [.exit "signal: 9 (SIGKILL)", .sup .reap] ++ go 2)).bind (fun s =>
        (((handle demo).restrict (checksLate 1)).exec s
          [.call 1 (.begin (.predict .null)), .call 1 .go, .call 1 .go]).map (fun t =>
            decide (s.sup.outcome = some (.restart "worker exited with signal: 9 (SIGKILL)") ∧
              (s.calls 1).isIdle = true ∧ (t.calls 1).isPrediction = true ∧
              (t.calls 1).failure =
                some (.unavailable "worker exited with signal: 9 (SIGKILL)")))) =
      some true := by decide +kernel
  obtain ⟨s, t, hs, ht, hv⟩ := Machine.runs_of_exec_exec hrun
  obtain ⟨ho, hidle, hpred, hfail⟩ := of_decide_eq_true hv
  exact ⟨s, t, hs, ht, hfail, hpred,
    (refused_once_published hs ho (Call.isIdle_iff.mp hidle) ht hpred).1⟩

open Replay in
/-- The worker answers request `1` with the line `x`, which is not JSON.  The caller is told that
    the worker failed; a prediction that starts then is admitted to the queue. -/
theorem failure_reported_before_published :
    ∃ s t, (handle demo).Reachable s ∧ (handle demo).Runs s t ∧
      s.sup.outcome =
        some (.restart "malformed worker frame: expected value at line 1 column 1") ∧
      (s.calls 1).answered = some (.error
        (.workerFailed "worker sent invalid JSON: expected value at line 1 column 1")) ∧
      s.calls 2 = .idle ∧ (t.calls 2).isPrediction = true ∧ 2 ∈ t.ledger.queued := by
  have hrun : ((handle demo).exec (handle demo).init
      (ready ++ predict 1 ++ dispatch ++ [writes "x"] ++ go 1 ++ [.call 1 .go])).bind (fun s =>
        ((handle demo).exec s (predict 2)).map (fun t =>
          decide (s.sup.outcome =
              some (.restart "malformed worker frame: expected value at line 1 column 1") ∧
            (s.calls 1).failure = some
              (.workerFailed "worker sent invalid JSON: expected value at line 1 column 1") ∧
            (s.calls 2).isIdle = true ∧ (t.calls 2).isPrediction = true ∧
            2 ∈ t.ledger.queued))) = some true := by decide +kernel
  obtain ⟨s, t, hs, ht, hv⟩ := Machine.runs_of_exec_exec hrun
  obtain ⟨ho, hfail, hidle, hpred, hq⟩ := of_decide_eq_true hv
  exact ⟨s, t, hs, ht, ho, Call.failure_eq_some.mp hfail, Call.isIdle_iff.mp hidle, hpred, hq⟩

end Sys

end Layad
