import Layad.Joint.Answers
import Layad.Worker.Classification

namespace Layad

open Channel Transition

/-!
# The worker's errors agree with its fate

The daemon decides by the code of an error whether the worker is lost, and by its `fatal` flag
whether the session ends.  A reply may say one thing and not the other, but not a reply of
`worker.py`: each of its error replies is classified (`Worker.Reaction.classified_reply`), so
the daemon's two decisions agree in every run of the two (`Joint.error_agrees_with_worker`).
-/

/-- An error reply of the worker is fatal just if it is no rejection. -/
theorem Worker.Reaction.classified_reply {f64Text : String → Option String} {r : Worker.Reaction}
    {body : ErrorBody} (h : r.reply f64Text = some (.err body)) :
    (body.fatal != body.rejects) = true := by
  cases r with
  | result value =>
    obtain ⟨json, -, hno⟩ := Option.map_eq_some_iff.mp h
    cases hno
  | rejected message =>
    cases h
    rfl
  | failed =>
    cases h
    rfl
  | raised => cases h

/-- An error reply to the request in flight is filed as that. -/
theorem Sup.onWaitFrame_err {cx : Ctx} {sh : Shared} {p : Sup} {text id : String} {key : Nat}
    {value : Json} {body : ErrorBody} (hready : sh.ready.isPending = false)
    (hi : p.inflight = some (id, key)) (hvalue : cx.host.fromStr text = .ok value)
    (hparse : parseReply cx.host value = .ok ⟨id, .err body⟩) :
    (p.onWaitFrame cx sh (.ok (.line text))).lines =
      p.lines ++ [⟨text, .reply id (.err body)⟩] := by
  simp only [onWaitFrame, hvalue, hready, Bool.false_and, Bool.false_eq_true, if_false, hi, onReply,
    hparse, ne_eq, not_true_eq_false]
  split <;> rfl

namespace Joint

variable {σ : Type} {w : World σ} {parseFloat : String → PyFloat} {j : Joint σ}

/-- Every reply line is classified. -/
theorem classified_step (hw : w.Lawful parseFloat) (h : (joint w).Reachable j) {m : Move}
    {j' : Joint σ} (hstep : j.step w m = some j') {l : Label}
    (hl : j.sys.step w.cx l = some j'.sys) : j.sys.classified w.cx l = true := by
  have hlinked := linked hw (h.step (l := m) hstep)
  have hh := Sys.Handshake.reachable (reachable_sys h)
  unfold Sys.classified
  split
  swap
  · rfl
  rename_i source
  split
  swap
  · rfl
  rename_i p₁ text hpc hread
  have hstaged := hh.staged
  have hc := hh.coherent
  simp only [Sup.Staged, hpc] at hstaged
  simp only [Sup.Coherent, hpc] at hc
  obtain ⟨⟨expected, key⟩, hi⟩ := Option.isSome_iff_exists.mp hc.2.1
  -- the state after the line
  have hnext : j'.sys.sup = p₁.onWaitFrame w.cx j.sys.sh (.ok (.line text)) := by
    rw [Sys.step, Sup.step_wait_read hpc hread] at hl
    rw [← Option.some.inj hl]
  obtain ⟨buf, avail, rfl⟩ := Sup.read_eq hread
  unfold Sup.classified
  split
  · rfl
  rename_i value hvalue
  split
  swap
  · rfl
  rename_i id body hparse
  by_cases hid : id = expected
  · subst hid
    have hlines := Sup.onWaitFrame_err (p := { j.sys.sup with buf, avail }) hstaged.1 hi hvalue
      hparse
    rw [← hnext] at hlines
    have hline : j'.sys.sup.lines[j.sys.sup.lines.length]? =
        some ⟨text, .reply id (.err body)⟩ := by simp [hlines]
    obtain ⟨n, -, s, r, -, -, hreply⟩ := (hlinked.lines _ _ hline).reply id (.err body) rfl
    rw [Worker.Reaction.classified_reply hreply, Bool.or_true]
  · simp [hi, hid]

/-- The daemon's runs with the worker are runs whose reply lines are all classified. -/
theorem reachable_classified (hw : w.Lawful parseFloat) (h : (joint w).Reachable j) :
    ((handle w.cx).restrict (Sys.classified w.cx)).Reachable j.sys := by
  refine Machine.Reachable.induct
    (P := fun j : Joint σ => ((handle w.cx).restrict (Sys.classified w.cx)).Reachable j.sys)
    Machine.Reachable.init ?_ h
  intro j m j' hr hold hstep
  rcases step_cases hstep with ⟨l, hl, -⟩ | ⟨-, -, -, hsys, -⟩
  · exact hold.step (l := l) (Machine.restrict_step.mpr ⟨classified_step hw hr hstep hl, hl⟩)
  · rwa [hsys]

/-- **The error agrees with the worker's fate**, in every run of the daemon with the worker.
    Once a caller was told that the worker is lost, the session ends in a restart and no
    request is sent any more; and a result or a rejection leaves the session at its loop head
    with nothing in flight, and the state `Ready` unless a call has written it. -/
theorem error_agrees_with_worker (hw : w.Lawful parseFloat) (h : (joint w).Reachable j) :
    (∀ k err, (j.sys.calls k).answered = some (.error err) → err.invalidatesWorker = true →
      ∀ t, (joint w).Runs j t → (∃ reason, t.sys.sup.outcome = some (.restart reason)) ∧
        t.sys.sup.frames = j.sys.sup.frames) ∧
    ∀ ev p key answer, j.sys.sup.step w.cx j.sys.sh ev = some (p, .reply key answer) →
      ((∃ v, answer = .ok v) ∨ ∃ message, answer = .error (.invalidRequest message)) →
      p.pc = .loopHead ∧ p.outcome = none ∧ p.inflight = none ∧
        (j.sys.sh.state = .ready ∨ j.sys.Overwritten) := by
  have hclassified := reachable_classified hw h
  have hsys := reachable_sys h
  have hjudged := Sys.Judged.reachable hclassified
  refine ⟨fun k err hk hlost t hrun => ?_, fun ev p key answer hp ha => ?_⟩
  · have hslot := ((Sys.Served.reachable hsys).answered k _ hk).resolve_right (by simp [hlost])
    obtain ⟨reason, ho⟩ := hjudged.lost k err hslot hlost
    have hruns : (handle w.cx).Runs j.sys t.sys := runs_sys hrun
    have hfrozen := Sys.Frozen.runs hsys ho hruns
    exact ⟨⟨reason, hfrozen.outcome⟩, hfrozen.frames⟩
  · exact hjudged.goes_on (Sys.Handshake.reachable hsys)
      (Sys.ServesReady.reachable hsys) hp ha

/-- The answer a step hands to a caller. -/
def handed : Eff → Option Answer
  | .reply _ answer => some answer
  | _ => none

open Replay in
/-- The result at a run: after an answer of `null` the session goes on. -/
theorem error_agrees_with_worker_null : ∃ j ev p key, (joint world).Reachable j ∧
    j.sys.sup.step world.cx j.sys.sh ev = some (p, .reply key (.ok .null)) ∧
    p.pc = .loopHead ∧ p.outcome = none ∧ p.inflight = none ∧
    (j.sys.sh.state = .ready ∨ j.sys.Overwritten) := by
  have hrun : ((joint world).exec (joint world).init
      (started ++ .predict 1 body :: (served 1).take 10)).map
      (fun j => (j.sys.sup.step world.cx j.sys.sh .go).map fun r => Sys.isNullAnswer (handed r.2)) =
        some (some true) := by decide +kernel
  obtain ⟨j, hj, hv⟩ := Machine.reachable_of_exec hrun
  obtain ⟨⟨p, eff⟩, hp, hnull⟩ := Option.map_eq_some_iff.mp hv
  have hanswer := Sys.eq_of_isNullAnswer hnull
  cases eff with
  | reply key answer =>
    cases hanswer
    obtain ⟨hpc, ho, hi, hstate⟩ :=
      (error_agrees_with_worker lawful_world hj).2 .go p key (.ok .null) hp (.inl ⟨_, rfl⟩)
    exact ⟨j, .go, p, key, hj, hp, hpc, ho, hi, hstate⟩
  | _ => cases hanswer

end Joint

end Layad
