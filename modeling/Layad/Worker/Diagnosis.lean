import Layad.Worker.Reaping

namespace Layad

open Channel Transition

/-!
# What is reported of a failed session

A session that ends in a restart has a reason.  It is published as the failed state at once;
the final failed state and the fatal notice hold instead what `shutdown_child` reported of
the child (`Sys.Reports`): the status it was reaped with, the error of a wait that failed, or
that it was not over in time after `SIGKILL`.  A handshake that is still pending is settled
with the reason itself where the session ends because of the child's exit, a failed wait or
the end of its output, with the timeout where the startup deadline has passed, and with that
report otherwise (`Sys.failure_diagnosed`).

What a report says has happened in the run, so the results are about a run and its labels.
-/

/-- The `detail` of `supervise` at the points where it has one. -/
def Pc.detail : Pc → Option String
  | .failSettle detail | .mark detail _ | .drain detail | .drainReply _ detail => some detail
  | _ => none

/-- Where `shutdown_child` waits for the child. -/
def Pc.reaps : Pc → Bool
  | .reaping .. | .reapingKilled .. => true
  | _ => false

/-- The points of a failed session from its report on. -/
def Pc.publishing : Pc → Bool
  | .failSettle _ | .mark .. | .drain _ | .drainReply .. | .closing | .notify | .finished => true
  | _ => false

/-- The final state of a failed session is written. -/
def Pc.stateWritten : Pc → Bool
  | .mark _ .info | .mark _ .pid | .mark _ .fatal | .drain _ | .drainReply .. | .closing | .notify
  | .finished => true
  | _ => false

/-- The fatal notice of a failed session is sent. -/
def Pc.fatalSent : Pc → Bool
  | .drain _ | .drainReply .. | .closing | .notify | .finished => true
  | _ => false

/-- The handshake of a failed session is settled. -/
def Pc.readySettled : Pc → Bool
  | .mark .. | .drain _ | .drainReply .. | .closing | .notify | .finished => true
  | _ => false

/-- The error the handshake is settled with before the session returns. -/
def Pc.early : Pc → Option StartError
  | .settleReturn err _ => some err
  | _ => none

/-- A failed session publishes the report it has until it comes to its end. -/
theorem Pc.publishing_iff {pc : Pc} :
    pc.publishing = true ↔ ∃ detail, pc.detail = some detail ∨ pc.ending = true := by
  cases pc <;> simp [Pc.publishing, Pc.detail, Pc.ending]

/-- A decision of the session is not published yet. -/
theorem Pc.not_publishing_of_decided {pc : Pc} (h : pc.decided = true) :
    pc.publishing = false := by
  cases pc <;> simp_all [Pc.decided, Pc.publishing]

namespace Sup

variable {cx : Ctx} {sh : Shared} {p p' : Sup} {ev : SupEv} {eff : Eff}

/-- A step ends the wait of `shutdown_child`, and the text says how. -/
def Concludes (sh : Shared) (p : Sup) (ev : SupEv) (eff : Eff) (detail : String) : Prop :=
  p.pc.reaps = true ∧
    ((∃ status, ev = .reap ∧ eff = .reap ∧ sh.child.status = some status ∧
        detail = s!"worker {status}") ∨
      (∃ err, ev = .waitFailed err ∧ detail = s!"cannot reap worker: {err}") ∨
      (∃ reason deadline, p.pc = .reapingKilled reason deadline ∧ ev = .deadline ∧
        deadline ≤ sh.now ∧ detail = "worker did not exit after SIGKILL"))

/-- **Where the report is from.** -/
theorem step_concludes (hc : p.Coherent) (h : p.step cx sh ev = some (p', eff))
    (hp : p.pc.publishing = false) (hp' : p'.pc.publishing = true)
    (hf : ∃ reason, p'.outcome = some (.restart reason)) :
    ∃ detail, p'.pc = .failSettle detail ∧ Concludes sh p ev eff detail := by
  obtain ⟨reason, hf⟩ := hf
  revert h
  fun_cases Sup.step cx sh p ev
  all_goals intro h
  all_goals simp only [Option.some.injEq, Prod.mk.injEq, reduceCtorEq] at h
  all_goals obtain ⟨rfl, rfl⟩ := h
  all_goals try (simp_all [Pc.publishing, Coherent]; done)
  -- a read that goes on
  case case22 hr | case36 hr =>
    obtain ⟨buf, avail, rfl⟩ := read_eq hr
    rw [hp] at hp'
    cases hp'
  -- the end of `shutdown_child`
  case case57 o _ hpc status hst | case63 o _ hpc status hst =>
    cases o with
    | none => cases hp'
    | some _ => exact ⟨_, rfl, by rw [hpc]; rfl, .inl ⟨status, rfl, rfl, hst, rfl⟩⟩
  case case59 o _ err hpc | case65 o _ err hpc =>
    cases o with
    | none => cases hp'
    | some _ => exact ⟨_, rfl, by rw [hpc]; rfl, .inr (.inl ⟨err, rfl, rfl⟩)⟩
  case case66 o deadline hpc hnow =>
    cases o with
    | none => cases hp'
    | some _ => exact ⟨_, rfl, by rw [hpc]; rfl, .inr (.inr ⟨_, deadline, hpc, rfl, hnow, rfl⟩)⟩
  -- a decision
  all_goals
    rw [Pc.not_publishing_of_decided (by simp)] at hp'
    cases hp'

/-- A session with a report has ended in a restart. -/
theorem restart_of_detail (hc : p.Coherent) {detail : String} (hd : p.pc.detail = some detail) :
    ∃ reason, p.outcome = some (.restart reason) := by
  cases hpc : p.pc with
  | failSettle | mark | drain | drainReply =>
    simp only [Coherent, hpc] at hc
    exact hc.1
  | _ =>
    rw [hpc] at hd
    cases hd

/-- What a failed session does on its way out. -/
structure Marks (sh : Shared) (detail : String) (p p' : Sup) (eff : Eff) : Prop where
  point : p'.pc.detail = some detail ∨ p'.pc.ending = true
  outcome : p'.outcome = p.outcome
  state : p'.pc.stateWritten = true →
    (p.pc.stateWritten = true ∧ ∀ state, eff ≠ .setState state) ∨
      eff = if sh.state = .shuttingDown then .skip else .setState (.failed detail)
  fatal : p'.pc.fatalSent = true → p.pc.fatalSent = true ∨ eff = .sendFatal detail
  ready : p.pc.readySettled = true ∨ (sh.apply eff).ready.isPending = false

/-- **What is published of the report.** -/
theorem step_marks (h : p.step cx sh ev = some (p', eff)) {detail : String}
    (hp : p.pc.detail = some detail ∨ p.pc.ending = true) : Marks sh detail p p' eff := by
  revert h
  fun_cases Sup.step cx sh p ev
  all_goals intro h
  all_goals simp only [Option.some.injEq, Prod.mk.injEq, reduceCtorEq] at h
  all_goals obtain ⟨rfl, rfl⟩ := h
  all_goals try (simp_all [Pc.detail, Pc.ending]; done)
  all_goals try
    constructor <;>
      (simp_all [Pc.detail, Pc.ending, Pc.stateWritten, Pc.fatalSent, Pc.readySettled]; done)
  -- the handshake is settled if it is pending
  case case68 d hpc =>
    obtain rfl : d = detail := by simpa [hpc, Pc.detail, Pc.ending] using hp
    refine ⟨.inl rfl, rfl, by simp [Pc.stateWritten], by simp [Pc.fatalSent], .inr ?_⟩
    split
    · exact Oneshot.send_isPending _ _
    · simpa [Shared.apply] using ‹¬ sh.ready.isPending = true›
  -- the forced stop comes too late
  all_goals
    cases hpc : p.pc <;> simp_all [Pc.detail, Pc.ending, killable]

/-- The points after the settlement are reached with the handshake settled. -/
theorem step_readySettled (hc : p.Coherent) (h : p.step cx sh ev = some (p', eff))
    (hf : ∃ reason, p'.outcome = some (.restart reason)) (hs : p'.pc.readySettled = true) :
    p.pc.readySettled = true ∨ (sh.apply eff).ready.isPending = false := by
  by_cases hp : p.pc.publishing = true
  · obtain ⟨detail, hpoint⟩ := Pc.publishing_iff.mp hp
    exact (step_marks h hpoint).ready
  · have hp' : p'.pc.publishing = true := by
      cases hpc : p'.pc <;> simp_all [Pc.publishing, Pc.readySettled]
    obtain ⟨detail, hpc, -⟩ := step_concludes hc h (by simpa using hp) hp' hf
    rw [hpc] at hs
    cases hs

/-- **How the handshake is settled**, and by what. -/
theorem step_settles {result : Except StartError WorkerInfo}
    (h : p.step cx sh ev = some (p', .settle result)) :
    (∃ info, p.pc = .readySettle info) ∨ (∃ err, p.pc = .spawnSettle err) ∨ p.pc = .stopSettle ∨
      (∃ err, p.pc.early = some err ∧ result = .error err) ∨
      (∃ detail, p.pc = .failSettle detail ∧ result = .error (.failed detail)) := by
  revert h
  fun_cases Sup.step cx sh p ev
  all_goals intro h
  all_goals simp only [Option.some.injEq, Prod.mk.injEq, reduceCtorEq, and_false] at h
  all_goals obtain ⟨rfl, he⟩ := h
  all_goals try (simp_all [Pc.early]; done)
  -- an operation that depends on the state found
  all_goals split at he <;> simp_all

/-- What is reported is the detail in hand. -/
theorem step_sendFatal {text : String} (h : p.step cx sh ev = some (p', .sendFatal text)) :
    p.pc.detail = some text := by
  revert h
  fun_cases Sup.step cx sh p ev
  all_goals intro h
  all_goals simp only [Option.some.injEq, Prod.mk.injEq, reduceCtorEq, and_false] at h
  all_goals obtain ⟨rfl, he⟩ := h
  all_goals try (simp_all [Pc.detail]; done)
  -- an operation that depends on the state found
  all_goals split at he <;> cases he

/-- The event shows that the child has exited, cannot be waited for or has closed its output. -/
def lost (cx : Ctx) (p : Sup) : SupEv → Bool
  | .reap | .waitFailed _ => true
  | .read source =>
    match p.read cx source with
    | some (_, some (.ok .eof)) => true
    | _ => false
  | _ => false

/-- How a session fails whose handshake is pending: with the handshake settled by the reason
    itself or by the timeout, or not settled yet. -/
def Diagnoses (cx : Ctx) (p p' : Sup) (ev : SupEv) (reason : String) : Prop :=
  (p.lost cx ev = true ∧ p.pc = .idle ∧ p'.pc = .settleReturn (.failed reason) (.restart reason)) ∨
  (p.pc = .loopState ∧
    p'.pc = .settleReturn (.timeout cx.config.startupTimeout) (.restart reason)) ∨
  (p.lost cx ev = false ∧ p.pc = .idle ∧ p'.pc = .returned (.restart reason))

/-- What a frame between requests makes of a pending handshake is diagnosed. -/
theorem diagnoses_onIdleFrame {source : Source} {frame : Except String Frame} {q : Sup}
    (hpc : p.pc = .idle) (hr : sh.ready.isPending = true) (ho : q.outcome = none)
    (hread : p.read cx source = some (q, some frame)) {reason : String}
    (hf : (q.onIdleFrame cx sh frame).outcome = some (.restart reason)) :
    Diagnoses cx p (q.onIdleFrame cx sh frame) (.read source) reason := by
  by_cases hfr : frame = .ok .eof
  · rw [hfr, onIdleFrame, settleRestart, if_pos hr] at hf ⊢
    rw [leave_outcome, Option.some.injEq, Outcome.restart.injEq] at hf
    exact Or.inl ⟨by simp [lost, hread, hfr], hpc, by rw [← hf]; rfl⟩
  · have hlost : p.lost cx (.read source) = false := by
      simp only [lost, hread]
      split <;> simp_all
    refine Or.inr (Or.inr ⟨hlost, hpc, ?_⟩)
    revert hf
    unfold onIdleFrame
    repeat' split
    all_goals intro hf
    all_goals simp_all

/-- **How a session fails whose handshake is pending.** -/
theorem step_diagnoses (hs : p.Staged sh.ready.isPending) (hc : p.Coherent)
    (hr : sh.ready.isPending = true) (hst : ∀ job, p.pc = .dequeued job → sh.state = .shuttingDown)
    (ho : p.outcome = none) (h : p.step cx sh ev = some (p', eff)) {reason : String}
    (hf : p'.outcome = some (.restart reason)) : Diagnoses cx p p' ev reason := by
  revert h
  fun_cases Sup.step cx sh p ev
  all_goals intro h
  all_goals simp only [Option.some.injEq, Prod.mk.injEq, reduceCtorEq] at h
  all_goals obtain ⟨rfl, rfl⟩ := h
  all_goals try (simp_all [Coherent, Staged]; done)
  case case11 =>
    rename p.pc = _ => hpc
    rw [leave_outcome, Option.some.injEq, Outcome.restart.injEq] at hf
    exact Or.inr (Or.inl ⟨hpc, by rw [← hf]; rfl⟩)
  case case17 | case19 =>
    rw [settleRestart, if_pos hr] at hf ⊢
    rw [leave_outcome, Option.some.injEq, Outcome.restart.injEq] at hf
    exact Or.inl ⟨rfl, ‹p.pc = .idle›, by rw [← hf]; rfl⟩
  -- a read
  case case22 hread =>
    obtain ⟨buf, avail, rfl⟩ := read_eq hread
    simp [ho] at hf
  case case23 hpc q frame hread =>
    obtain ⟨buf, avail, rfl⟩ := read_eq hread
    exact diagnoses_onIdleFrame (q := { p with buf, avail }) hpc hr ho hread hf

/-- An early settlement comes before anything else. -/
theorem step_of_early {err : StartError} (he : p.pc.early = some err)
    (h : p.step cx sh ev = some (p', eff)) : eff = .settle (.error err) := by
  revert h
  fun_cases Sup.step cx sh p ev
  all_goals intro h
  all_goals simp only [Option.some.injEq, Prod.mk.injEq, reduceCtorEq] at h
  all_goals obtain ⟨rfl, rfl⟩ := h
  all_goals try (simp_all [Pc.early]; done)
  -- the forced stop comes too late
  cases hpc : p.pc <;> simp_all [Pc.early, killable]

/-- Once the session has ended the handshake is settled early no more. -/
theorem step_not_early (hc : p.Coherent) (ho : p.outcome.isSome)
    (h : p.step cx sh ev = some (p', eff)) : p'.pc.early = none := by
  revert h
  fun_cases Sup.step cx sh p ev
  all_goals intro h
  all_goals simp only [Option.some.injEq, Prod.mk.injEq, reduceCtorEq] at h
  all_goals obtain ⟨rfl, rfl⟩ := h
  all_goals try (simp_all [Coherent, Pc.early]; done)
  -- the end of `shutdown_child`
  all_goals
    rename Option String => reason
    cases reason <;> rfl

end Sup

namespace Call

variable {cx : Ctx} {sh : Shared} {key : Nat} {c c' : Call} {ev : CallEv} {eff : Eff}

/-- The error `start` returns, or is about to return. -/
def startError : Call → Option StartError
  | .readiness (.stopping err _) | .readiness (.over (some (.error err))) => err
  | _ => none

/-- Where the error of a start is from. -/
theorem step_startError (h : c.step cx sh key ev = some (c', eff)) {err : StartError}
    (he : c'.startError = some err) :
    c.startError = some err ∨ err = .timeout cx.config.startupTimeout ∨
      sh.ready.slot = .sent (.error err) ∨ sh.ready.slot = .dropped := by
  cases stepped h with
  | started request hs =>
    revert hs
    fun_cases start sh request
    all_goals rintro ⟨⟩
    all_goals simp_all [startError]
  | predict | shutdown | killNow | markFailed => cases he
  | @readiness pc pc' eff hs =>
    rcases readinessStep_cases hs with ⟨err', pc₀, rfl⟩ | ⟨-, -, -, hpc'⟩
    · left
      obtain ⟨⟨pc₁, eff₁⟩, -, hm⟩ := Option.map_eq_some_iff.mp hs
      obtain ⟨rfl, rfl⟩ := Prod.mk.inj hm
      revert he
      cases err' <;> cases pc₁ <;> cases ev <;> simp [startError]
    · rcases hpc' with ⟨later, rfl⟩ | rfl | rfl | ⟨err', rfl, hfrom⟩
      case inr.inr.inr =>
        obtain rfl := Option.some.inj he
        exact Or.inr hfrom
      all_goals cases he

/-- A shutdown reports no fault. -/
theorem shutdownStep_silent {grace : Nat} {pc pc' : ShutPc}
    (h : shutdownStep cx sh key grace pc ev = some (pc', eff)) (text : String) :
    eff ≠ .sendFatal text := by
  rcases shutdownStep_cases h with
    ⟨-, -, rfl⟩ | ⟨-, -, rfl | ⟨rfl, -⟩⟩ | ⟨-, -, rfl | rfl | rfl | rfl⟩
  all_goals simp

/-- What a call sends on the fatal channel is the reason it was called with. -/
theorem step_sendFatal {text : String} (h : c.step cx sh key ev = some (c', .sendFatal text)) :
    ∃ stage, c' = .markFailed text stage := by
  cases stepped h with
  | started request hs =>
    revert hs
    fun_cases start sh request
    all_goals rintro ⟨⟩
  | @readiness pc pc' eff hs =>
    rcases readinessStep_cases hs with ⟨err, pc₀, rfl⟩ | ⟨-, -, heff | heff, -⟩
    · obtain ⟨pc₁, hs₁, -⟩ := stopping_cases hs
      exact absurd rfl (shutdownStep_silent hs₁ text)
    all_goals cases heff
  | predict hs =>
    rcases predictStep_does hs with ⟨-, heff | heff | heff | heff⟩
    all_goals cases heff
  | shutdown hs => exact absurd rfl (shutdownStep_silent hs text)
  | killNow hs => rcases killStep_does hs with h | h | h <;> cases h
  | @markFailed reason stage stage' eff hs =>
    rcases markStep_does hs with ⟨-, heff | ⟨heff, -⟩ | heff | heff | heff⟩
    all_goals cases heff
    exact ⟨stage', rfl⟩

end Call

/-- The first frame of a worker that cannot start. -/
def Replay.refusal : String :=
  "\x7b\"ready\":false,\"error\":\x7b\"message\":\"missing checkpoint\"\x7d\x7d"

/-- The handle of the runs with a worker that cannot start. -/
def Replay.refusing : Ctx where
  config := Replay.config
  host := { Replay.host with
    fromStr := fun text =>
      if text = Replay.refusal then
        .ok (.obj [("error", .obj [("message", .str "missing checkpoint")]),
          ("ready", .bool false)])
      else Replay.host.fromStr text }

/-- The worker writes that it cannot start. -/
def Replay.refuses : Label := writes refusal

namespace Sys

variable {cx : Ctx} {s t : Sys} {l : Label}

/-! ### What has happened in a run -/

/-- The child ends with this status. -/
def Exits (status : String) (s : Sys) (l : Label) : Prop :=
  (∃ pid, s.sh.child = .running pid) ∧ l = .exit status

/-- `shutdown_child` reaps the child, which has ended with this status. -/
def Reaps (status : String) (s : Sys) (l : Label) : Prop :=
  s.sup.pc.reaps = true ∧ s.sh.child.status = some status ∧ l = .sup .reap

/-- The wait of `shutdown_child` fails. -/
def WaitFails (err : String) (s : Sys) (l : Label) : Prop :=
  s.sup.pc.reaps = true ∧ l = .sup (.waitFailed err)

/-- The child is sent `SIGKILL`, at this time. -/
def Kills (cx : Ctx) (time : Nat) (s : Sys) (l : Label) : Prop :=
  s.sh.now = time ∧ ∃ ev p, l = .sup ev ∧ s.sup.step cx s.sh ev = some (p, .signal .kill)

/-- The wait after `SIGKILL` is given up, and not before this time. -/
def GivesUp (time : Nat) (s : Sys) (l : Label) : Prop :=
  (∃ reason deadline, s.sup.pc = .reapingKilled reason deadline) ∧ l = .sup .deadline ∧
    time ≤ s.sh.now

/-- The text is what `shutdown_child` has to report of the child in this run: it was reaped with
    the status it had ended with, the wait for it failed, or it was sent `SIGKILL` and the wait
    was not over within the grace period, of 200 ms at least. -/
def Reports (cx : Ctx) (labels : List Label) (child : Child) (detail : String) : Prop :=
  (∃ status, detail = s!"worker {status}" ∧ child = .reaped status ∧
    (handle cx).Meets labels (Exits status) ∧ (handle cx).Meets labels (Reaps status)) ∨
  (∃ err, detail = s!"cannot reap worker: {err}" ∧ (handle cx).Meets labels (WaitFails err)) ∨
  (∃ time, detail = "worker did not exit after SIGKILL" ∧
    (handle cx).Meets labels (Kills cx time) ∧
    (handle cx).Meets labels (GivesUp (time + max cx.config.shutdownTimeout 200)))

variable {labels : List Label} {detail : String}

/-- A child has the status it has ended with. -/
theorem exits_of_status (h : (handle cx).exec (handle cx).init labels = some s) {status : String}
    (hs : s.sh.child.status = some status) : (handle cx).Meets labels (Exits status) := by
  refine Machine.exec_induct (P := fun labels s => ∀ status, s.sh.child.status = some status →
    (handle cx).Meets labels (Exits status)) ?_ ?_ h status hs
  · intro status hs
    cases hs
  · intro labels l s t hr hold hstep status ht
    have hkeep : s.sh.child.status = some status →
        (handle cx).Meets (labels ++ [l]) (Exits status) := fun h => (hold status h).concat l
    have happly : ∀ eff, (s.sh.apply eff).child.status = some status →
        s.sh.child.status = some status := by
      intro eff heff
      cases eff with
      | spawn pid => cases heff
      | reap =>
        revert heff
        show s.sh.child.reap.status = some status → s.sh.child.status = some status
        cases s.sh.child <;> exact id
      | _ => exact heff
    rcases step_cases hstep with
      ⟨ev, p, eff, -, -, rfl⟩ | ⟨key, ev, c, eff, -, -, rfl⟩ | ⟨d, -, rfl⟩ | ⟨status', rfl, rfl⟩
    · exact hkeep (happly eff ht)
    · exact hkeep (happly eff ht)
    · exact hkeep ht
    · cases hchild : s.sh.child with
      | running pid =>
        obtain rfl : status' = status := by simpa [hchild, Child.exit, Child.status] using ht
        exact Machine.Meets.last hr ⟨⟨pid, hchild⟩, rfl⟩
      | _ => exact hkeep (by simpa [hchild, Child.exit] using ht)

/-- Before the second wait the child was sent `SIGKILL`. -/
theorem kills_of_escalated (h : (handle cx).exec (handle cx).init labels = some s)
    {reason : Option String} {deadline : Nat} (hpc : s.sup.pc = .reapingKilled reason deadline) :
    ∃ time, deadline = time + max cx.config.shutdownTimeout 200 ∧
      (handle cx).Meets labels (Kills cx time) := by
  refine Machine.exec_induct (P := fun labels s => s.sup.pc = .reapingKilled reason deadline →
    ∃ time, deadline = time + max cx.config.shutdownTimeout 200 ∧
      (handle cx).Meets labels (Kills cx time)) ?_ ?_ h hpc
  · intro hpc
    cases hpc
  · intro labels l s t hr hold hstep hpc
    have hkeep : s.sup.pc = .reapingKilled reason deadline → ∃ time,
        deadline = time + max cx.config.shutdownTimeout 200 ∧
          (handle cx).Meets (labels ++ [l]) (Kills cx time) := fun h => by
      obtain ⟨time, htime, hkills⟩ := hold h
      exact ⟨time, htime, hkills.concat l⟩
    rcases step_cases hstep with
      ⟨ev, p, eff, rfl, hp, rfl⟩ | ⟨key, ev, c, eff, -, -, rfl⟩ | ⟨d, -, rfl⟩ | ⟨status, -, rfl⟩
    · obtain ⟨rfl, rfl⟩ := Sup.step_escalated hp hpc
      exact ⟨s.sh.now, rfl, Machine.Meets.last hr ⟨rfl, ev, p, rfl, hp⟩⟩
    all_goals exact hkeep hpc

/-- A report stays right. -/
theorem Reports.concat (hr : (handle cx).Reachable s) (hs : s.step cx l = some t)
    (h : Reports cx labels s.sh.child detail) : Reports cx (labels ++ [l]) t.sh.child detail := by
  rcases h with ⟨status, rfl, hst, hexits, hreaps⟩ | ⟨err, rfl, hfails⟩ |
    ⟨time, rfl, hkills, hgives⟩
  · exact .inl ⟨status, rfl, (reaped_step hr hst hs).1, hexits.concat l, hreaps.concat l⟩
  · exact .inr (.inl ⟨err, rfl, hfails.concat l⟩)
  · exact .inr (.inr ⟨time, rfl, hkills.concat l, hgives.concat l⟩)

/-- The report is right when it is made. -/
theorem Reports.of_concludes (h : (handle cx).exec (handle cx).init labels = some s) {ev : SupEv}
    {eff : Eff} (hc : Sup.Concludes s.sh s.sup ev eff detail) :
    Reports cx (labels ++ [.sup ev]) (s.sh.apply eff).child detail := by
  obtain ⟨hpc, ⟨status, rfl, rfl, hst, rfl⟩ | ⟨err, rfl, rfl⟩ |
    ⟨reason, deadline, hkilled, rfl, hnow, rfl⟩⟩ := hc
  · refine .inl ⟨status, rfl, ?_, (exits_of_status h hst).concat _,
      Machine.Meets.last h ⟨hpc, hst, rfl⟩⟩
    revert hst
    show s.sh.child.status = some status → s.sh.child.reap = .reaped status
    cases s.sh.child <;> simp [Child.status, Child.reap]
  · exact .inr (.inl ⟨err, rfl, Machine.Meets.last h ⟨hpc, rfl⟩⟩)
  · obtain ⟨time, rfl, hkills⟩ := kills_of_escalated h hkilled
    exact .inr (.inr ⟨time, rfl, hkills.concat _,
      Machine.Meets.last h ⟨⟨reason, _, hkilled⟩, rfl, hnow⟩⟩)

/-! ### The final state and the fatal notice -/

/-- The text is the report of the child, and the final state and the fatal notice of the failed
    session hold it. -/
structure Announced (cx : Ctx) (labels : List Label) (s : Sys) (detail : String) : Prop where
  reports : Reports cx labels s.sh.child detail
  point : s.sup.pc.detail = some detail ∨ s.sup.pc.ending = true
  state : s.sup.pc.stateWritten = true → s.sh.state = .failed detail ∨ s.Overwritten
  fatal : s.sup.pc.fatalSent = true → detail ∈ s.sh.fatal

/-- What was announced stays so as the run goes on. -/
theorem Announced.concat (hr : (handle cx).Reachable s) (hs : s.step cx l = some t)
    (h : Announced cx labels s detail) : Announced cx (labels ++ [l]) t detail := by
  have hreports := h.reports.concat hr hs
  rcases step_cases hs with
    ⟨ev, p, eff, -, hp, rfl⟩ | ⟨key, ev, c, eff, -, hc, rfl⟩ | ⟨d, -, rfl⟩ | ⟨status, -, rfl⟩
  · have hm := Sup.step_marks hp h.point
    refine ⟨hreports, hm.point, fun hw => ?_, fun hsent => ?_⟩
    · rcases hm.state hw with ⟨hold, hno⟩ | rfl
      · have hst : (s.sh.apply eff).state = s.sh.state := Shared.state_apply hno
        exact (h.state hold).imp hst.trans (Overwritten.of_state hst)
      · by_cases hst : s.sh.state = .shuttingDown
        · rw [if_pos hst]
          exact .inr (.inl hst)
        · rw [if_neg hst]
          exact .inl rfl
    · rcases hm.fatal hsent with hold | rfl
      · cases eff with
        | sendFatal => exact List.mem_append_left _ (h.fatal hold)
        | _ => exact h.fatal hold
      · exact List.mem_append_right _ (List.mem_singleton_self _)
  · refine ⟨hreports, h.point, fun hw => ?_, fun hsent => ?_⟩
    · by_cases hset : ∃ state, eff = .setState state
      · exact .inr (overwritten_of_call hc (.inl hset))
      · exact (h.state hw).imp (Shared.state_apply fun state he => hset ⟨state, he⟩).trans
          fun hold => overwritten_of_call hc (.inr hold)
    · cases eff with
      | sendFatal => exact List.mem_append_left _ (h.fatal hsent)
      | _ => exact h.fatal hsent
  all_goals exact ⟨hreports, h.point, h.state, h.fatal⟩

/-- A failed session publishes the report of its child. -/
theorem announced_of_exec (h : (handle cx).exec (handle cx).init labels = some s)
    (hf : ∃ reason, s.sup.outcome = some (.restart reason)) (hp : s.sup.pc.publishing = true) :
    ∃ detail, Announced cx labels s detail := by
  refine Machine.exec_induct (P := fun labels s =>
    (∃ reason, s.sup.outcome = some (.restart reason)) → s.sup.pc.publishing = true →
      ∃ detail, Announced cx labels s detail) ?_ ?_ h hf hp
  · intro _ hp
    cases hp
  · intro labels l s t hs hold hstep hf hp
    have hr : (handle cx).Reachable s := Machine.runs_of_exec hs
    have hkeep : t.sup.outcome = s.sup.outcome → s.sup.pc.publishing = true →
        ∃ detail, Announced cx (labels ++ [l]) t detail := fun ho hpub => by
      obtain ⟨detail, hannounced⟩ := hold (ho ▸ hf) hpub
      exact ⟨detail, hannounced.concat hr hstep⟩
    rcases step_cases hstep with
      ⟨ev, p, eff, rfl, hsup, rfl⟩ | ⟨key, ev, c, eff, -, -, rfl⟩ | ⟨d, -, rfl⟩ | ⟨status, -, rfl⟩
    · by_cases hpub : s.sup.pc.publishing = true
      · obtain ⟨detail, hpoint⟩ := Pc.publishing_iff.mp hpub
        exact hkeep (Sup.step_marks hsup hpoint).outcome hpub
      · obtain ⟨detail, hpc, hconcludes⟩ := Sup.step_concludes (Handshake.reachable hr).coherent
          hsup (by simpa using hpub) hp hf
        refine ⟨detail, .of_concludes hs hconcludes, .inl (by rw [hpc]; rfl), ?_, ?_⟩
        all_goals
          intro hw
          rw [hpc] at hw
          cases hw
    all_goals exact hkeep rfl hp

/-- What is sent on the fatal channel is such a report, or what a call of `mark_failed` was
    called with. -/
theorem fatal_of_exec (h : (handle cx).exec (handle cx).init labels = some s) {text : String}
    (hmem : text ∈ s.sh.fatal) : Reports cx labels s.sh.child text ∨
      ∃ k stage, s.calls k = .markFailed text stage := by
  refine Machine.exec_induct (P := fun labels s => ∀ text ∈ s.sh.fatal,
    Reports cx labels s.sh.child text ∨ ∃ k stage, s.calls k = .markFailed text stage)
    ?_ ?_ h text hmem
  · intro text hmem
    cases hmem
  · intro labels l s t hs hold hstep text hmem
    have hr : (handle cx).Reachable s := Machine.runs_of_exec hs
    have hkeep : text ∈ s.sh.fatal → (∀ k, t.calls k = s.calls k) →
        Reports cx (labels ++ [l]) t.sh.child text ∨
          ∃ k stage, t.calls k = .markFailed text stage := fun h hcalls =>
      (hold text h).imp (.concat hr hstep) fun ⟨k, stage, hk⟩ => ⟨k, stage, (hcalls k).trans hk⟩
    rcases step_cases hstep with
      ⟨ev, p, eff, -, hp, rfl⟩ | ⟨key, ev, c, eff, -, hc, rfl⟩ | ⟨d, -, rfl⟩ | ⟨status, -, rfl⟩
    · cases eff with
      | sendFatal reason =>
        rcases List.mem_append.mp hmem with h | hnew
        · exact hkeep h fun _ => rfl
        · obtain rfl := List.mem_singleton.mp hnew
          have hd := Sup.step_sendFatal hp
          have hpub := Pc.publishing_iff.mpr ⟨_, .inl hd⟩
          obtain ⟨detail, hannounced⟩ := announced_of_exec hs
            (Sup.restart_of_detail (Handshake.reachable hr).coherent hd) hpub
          obtain rfl : text = detail := by
            rcases hannounced.point with hd' | he
            · exact Option.some.inj (hd.symm.trans hd')
            · cases hpc : s.sup.pc <;> simp_all [Pc.detail, Pc.ending]
          exact .inl (hannounced.reports.concat hr hstep)
      | _ => exact hkeep hmem fun _ => rfl
    · have hold' : text ∈ s.sh.fatal → Reports cx (labels ++ [l]) (s.sh.apply eff).child text ∨
          ∃ k stage, Function.update s.calls key c k = .markFailed text stage := fun h => by
        refine (hold text h).imp (.concat hr hstep) fun ⟨k, stage, hk⟩ => ?_
        by_cases he : k = key
        · subst he
          obtain ⟨stage', rfl⟩ := Call.step_markFailed (hk ▸ hc)
          exact ⟨k, stage', Function.update_self ..⟩
        · exact ⟨k, stage, (Function.update_of_ne he ..).trans hk⟩
      cases eff with
      | sendFatal reason =>
        rcases List.mem_append.mp hmem with h | hnew
        · exact hold' h
        · obtain ⟨stage, rfl⟩ := Call.step_sendFatal hc
          rw [List.mem_singleton.mp hnew]
          exact .inr ⟨key, stage, Function.update_self ..⟩
      | _ => exact hold' hmem
    all_goals exact hkeep hmem fun _ => rfl

/-! ### The error of a start -/

/-- A handshake that is settled or given up stays so. -/
theorem ready_step (hs : s.step cx l = some t) (h : s.sh.ready.slot ≠ .empty) :
    t.sh.ready.slot = s.sh.ready.slot := by
  have happly : ∀ eff, (s.sh.apply eff).ready.slot = s.sh.ready.slot := by
    intro eff
    cases eff with
    | settle result => exact congrArg Oneshot.slot (Oneshot.slot_send_of_resolved h result)
    | dropReceiver => exact congrArg Oneshot.slot (Oneshot.slot_dropSender_of_resolved h)
    | _ => rfl
  rcases step_cases hs with
    ⟨ev, p, eff, -, hp, rfl⟩ | ⟨key, ev, c, eff, -, hc, rfl⟩ | ⟨d, -, rfl⟩ | ⟨status, -, rfl⟩
  · exact happly eff
  · exact happly eff
  · rfl
  · rfl

/-- A start fails with what the handshake was settled with, or with its own timeout. -/
def StartsFrom (cx : Ctx) (s : Sys) : Prop :=
  ∀ err, (s.calls 0).startError = some err → err = .timeout cx.config.startupTimeout ∨
    s.sh.ready.slot = .sent (.error err) ∨ s.sh.ready.slot = .dropped

/-- In every reachable state a failed start has its error from the handshake or the timeout. -/
theorem StartsFrom.reachable (h : (handle cx).Reachable s) : s.StartsFrom cx := by
  refine Machine.invariant_of_step (P := StartsFrom cx) ?_ ?_ h
  · intro err he
    simp [handle, Sys.init, Call.startError] at he
  · intro s l t hs hstep err he
    have hslot : s.sh.ready.slot = .sent (.error err) ∨ s.sh.ready.slot = .dropped →
        t.sh.ready.slot = .sent (.error err) ∨ t.sh.ready.slot = .dropped := by
      intro hold
      rwa [ready_step hstep (by rcases hold with hold | hold <;> simp [hold])]
    have hkeep : (s.calls 0).startError = some err → err = .timeout cx.config.startupTimeout ∨
        t.sh.ready.slot = .sent (.error err) ∨ t.sh.ready.slot = .dropped :=
      fun hold => (hs err hold).imp_right hslot
    rcases step_cases hstep with
      ⟨ev, p, eff, -, hp, rfl⟩ | ⟨key, ev, c, eff, -, hc, rfl⟩ | ⟨d, -, rfl⟩ | ⟨status, -, rfl⟩
    · exact hkeep he
    · by_cases hk : key = 0
      · subst hk
        dsimp only at he
        rw [Function.update_self] at he
        rcases Call.step_startError hc he with hold | htimeout | hnew
        · exact hkeep hold
        · exact Or.inl htimeout
        · exact Or.inr (hslot hnew)
      · dsimp only at he
        rw [Function.update_of_ne (Ne.symm hk)] at he
        exact hkeep he
    · exact hkeep he
    · exact hkeep he

/-- The session failed with its handshake pending; `early` is the error it was settled with on
    the way out, if it was. -/
structure Pursued (cx : Ctx) (early : Option StartError) (reason : String) (labels : List Label)
    (s : Sys) : Prop where
  outcome : s.sup.outcome = some (.restart reason)
  pending : s.sh.ready.isPending = true → s.sup.pc.early = early ∧ s.sup.pc.readySettled = false
  settled : ∀ result, s.sh.ready.slot = .sent result → ∃ err, result = .error err ∧
    (early = some err ∨
      (early = none ∧ ∃ detail, err = .failed detail ∧ Announced cx labels s detail))
  kept : s.sh.ready.slot ≠ .dropped

variable {early : Option StartError} {reason : String}

/-- Once the handshake is settled the rest of the run changes nothing. -/
theorem Pursued.concat_settled (h : s.Pursued cx early reason labels)
    (hr : (handle cx).Reachable s) (hs : s.step cx l = some t) (hp : s.sh.ready.slot ≠ .empty)
    (ho : t.sup.outcome = some (.restart reason)) :
    t.Pursued cx early reason (labels ++ [l]) := by
  have hslot := ready_step hs hp
  refine ⟨ho, fun hpend => ?_, fun result hres => ?_, hslot ▸ h.kept⟩
  · rw [Oneshot.isPending_iff, hslot] at hpend
    exact absurd hpend hp
  · obtain ⟨err, he, hold | ⟨hnone, detail, hd, hannounced⟩⟩ := h.settled result (hslot ▸ hres)
    · exact ⟨err, he, Or.inl hold⟩
    · exact ⟨err, he, Or.inr ⟨hnone, detail, hd, hannounced.concat hr hs⟩⟩

/-- The handshake of a failed session is settled in one of two places. -/
theorem Pursued.settles (h : s.Pursued cx early reason labels)
    (hs : (handle cx).exec (handle cx).init labels = some s) {ev : SupEv} {p : Sup}
    {result : Except StartError WorkerInfo}
    (hp : s.sup.step cx s.sh ev = some (p, .settle result)) (hpend : s.sh.ready.isPending = true) :
    ∃ err, result = .error err ∧ (early = some err ∨
      (early = none ∧ ∃ detail, err = .failed detail ∧ Announced cx (labels ++ [.sup ev])
        { s with sup := p, sh := s.sh.apply (.settle result) } detail)) := by
  have hr : (handle cx).Reachable s := Machine.runs_of_exec hs
  have hc := (Handshake.reachable hr).coherent
  have hearly := (h.pending hpend).1
  rcases Sup.step_settles hp with
    ⟨info, hpc⟩ | ⟨err, hpc⟩ | hpc | ⟨err, hpc, rfl⟩ | ⟨detail, hpc, rfl⟩
  · simp [Sup.Coherent, hpc, h.outcome] at hc
  · simp [Sup.Coherent, hpc, h.outcome] at hc
  · simp [Sup.Coherent, hpc, h.outcome] at hc
  · exact ⟨err, rfl, Or.inl (hearly ▸ hpc)⟩
  · obtain ⟨detail', hannounced⟩ := announced_of_exec hs ⟨reason, h.outcome⟩ (by rw [hpc]; rfl)
    obtain rfl : detail = detail' := by simpa [hpc, Pc.detail, Pc.ending] using hannounced.point
    refine ⟨_, rfl, Or.inr ⟨?_, detail, rfl, hannounced.concat hr (by simp [Sys.step, hp])⟩⟩
    rw [← hearly, hpc]
    rfl

/-- A step of the supervisor after the failure goes on with its report. -/
theorem Pursued.sup (h : s.Pursued cx early reason labels)
    (hs : (handle cx).exec (handle cx).init labels = some s) {ev : SupEv} {p : Sup} {eff : Eff}
    (hp : s.sup.step cx s.sh ev = some (p, eff)) :
    Pursued cx early reason (labels ++ [.sup ev]) { s with sup := p, sh := s.sh.apply eff } := by
  have hr : (handle cx).Reachable s := Machine.runs_of_exec hs
  have hc := (Handshake.reachable hr).coherent
  have ho := (Sup.step_settled hc h.outcome hp).1
  have hstep : s.step cx (.sup ev) = some { s with sup := p, sh := s.sh.apply eff } := by
    simp [Sys.step, hp]
  by_cases hempty : s.sh.ready.slot = .empty
  · have hpend := (Oneshot.isPending_iff _).mpr hempty
    obtain ⟨hearly, hunsettled⟩ := h.pending hpend
    by_cases hset : ∃ result, eff = .settle result
    · obtain ⟨result, rfl⟩ := hset
      have hslot : (s.sh.apply (.settle result)).ready.slot = .sent result :=
        Oneshot.slot_send_of_pending hempty result
      refine ⟨ho, fun hpend' => ?_, fun result' hres => ?_, by simp [hslot]⟩
      · rw [Oneshot.isPending_iff, hslot] at hpend'
        cases hpend'
      · obtain rfl : result = result' := by simpa [hslot] using hres
        exact h.settles hs hp hpend
    · -- the receiver is dropped only once the handshake is settled
      have hclosing : eff ≠ .dropReceiver := by
        rintro rfl
        rw [show s.sup.pc = .closing from Sup.step_does hp] at hunsettled
        cases hunsettled
      have hslot : (s.sh.apply eff).ready.slot = .empty := by
        cases eff with
        | settle result => exact absurd ⟨result, rfl⟩ hset
        | dropReceiver => exact absurd rfl hclosing
        | _ => exact hempty
      refine ⟨ho, fun hpend' => ⟨?_, ?_⟩, fun result hres => ?_, by simp [hslot]⟩
      · cases early with
        | some err => exact absurd ⟨_, Sup.step_of_early hearly hp⟩ hset
        | none => exact Sup.step_not_early hc (by rw [h.outcome]; rfl) hp
      · by_contra hmarked
        rcases Sup.step_readySettled hc hp ⟨reason, ho⟩ (by simpa using hmarked) with hold | hno
        · rw [hunsettled] at hold
          cases hold
        · exact absurd hpend' (by simpa using hno)
      · rw [hslot] at hres
        cases hres
  · exact h.concat_settled hr hstep hempty ho

/-- A step after the failure goes on with its report. -/
theorem Pursued.concat (hs : (handle cx).exec (handle cx).init labels = some s)
    (h : s.Pursued cx early reason labels) (hstep : s.step cx l = some t) :
    t.Pursued cx early reason (labels ++ [l]) := by
  have hkeep : t.sh.ready.slot = s.sh.ready.slot → t.sup = s.sup →
      t.Pursued cx early reason (labels ++ [l]) := by
    intro hslot hsup
    refine ⟨hsup ▸ h.outcome, fun hpend => ?_, fun result hres => ?_, hslot ▸ h.kept⟩
    · rw [hsup]
      refine h.pending ?_
      rwa [Oneshot.isPending_iff, ← hslot, ← Oneshot.isPending_iff]
    · obtain ⟨err, he, hold | ⟨hnone, detail, hd, hannounced⟩⟩ := h.settled result (hslot ▸ hres)
      · exact ⟨err, he, Or.inl hold⟩
      · exact ⟨err, he, Or.inr
          ⟨hnone, detail, hd, hannounced.concat (Machine.runs_of_exec hs) hstep⟩⟩
  rcases step_cases hstep with
    ⟨ev, p, eff, rfl, hp, rfl⟩ | ⟨key, ev, c, eff, -, hc, rfl⟩ | ⟨d, -, rfl⟩ | ⟨status, -, rfl⟩
  · exact h.sup hs hp
  · refine hkeep ?_ rfl
    have hd := (Call.step_moved hc).does
    cases eff with
    | settle | dropReceiver => exact absurd hd id
    | _ => rfl
  · exact hkeep rfl rfl
  · exact hkeep rfl rfl

/-- The step that fails the session begins its report. -/
theorem Pursued.of_decision (hs : (handle cx).exec (handle cx).init labels = some s)
    (hpend : s.sh.ready.isPending = true) (ho : s.sup.outcome = none) {ev : SupEv} {p : Sup}
    {eff : Eff} (hp : s.sup.step cx s.sh ev = some (p, eff))
    (hf : p.outcome = some (.restart reason)) :
    s.sup.Diagnoses cx p ev reason ∧
      Pursued cx p.pc.early reason (labels ++ [.sup ev])
        { s with sup := p, sh := s.sh.apply eff } := by
  have hh := Handshake.reachable (Machine.runs_of_exec hs)
  have hdiag := Sup.step_diagnoses hh.staged hh.coherent hpend
    (fun job hpc => hh.dequeued job hpc hpend) ho hp hf
  have hpc : (s.sup.pc = .idle ∨ s.sup.pc = .loopState) ∧ p.pc.readySettled = false := by
    rcases hdiag with ⟨-, hpc, hpc'⟩ | ⟨hpc, hpc'⟩ | ⟨-, hpc, hpc'⟩
    all_goals simp [hpc, hpc', Pc.readySettled]
  have hslot : (s.sh.apply eff).ready.slot = .empty := by
    have hempty := (Oneshot.isPending_iff _).mp hpend
    have hd := Sup.step_does hp
    cases eff with
    | settle result =>
      rcases hd with ⟨info, hs, -⟩ | ⟨err, -, hs | ⟨e, hs⟩⟩
      all_goals rcases hpc.1 with hpc | hpc <;> simp [hpc, Pc.leaving] at hs
    | dropReceiver =>
      rcases hpc.1 with hpc | hpc <;> simp [show s.sup.pc = .closing from hd] at hpc
    | _ => exact hempty
  refine ⟨hdiag, hf, fun _ => ⟨rfl, hpc.2⟩, fun result hres => ?_, by simp [hslot]⟩
  rw [hslot] at hres
  cases hres

/-- **What is reported of a failed session**, in every run.  A text on the fatal channel is the
    report of how the child ended, or the reason of a call of `mark_failed`.  A session that ended
    in a restart has such a report, which the fatal notice and, unless a call has written it, the
    final state hold.  If the handshake was pending when the session failed, the start fails with
    its timeout, or with the reason where the child had exited, could not be waited for or had
    closed its output, or else with that same report. -/
theorem failure_diagnosed (h : (handle cx).exec (handle cx).init labels = some s) :
    (∀ text ∈ s.sh.fatal, Reports cx labels s.sh.child text ∨
      ∃ k stage, s.calls k = .markFailed text stage) ∧
    (∀ reason, s.sup.outcome = some (.restart reason) → s.sup.pc.publishing = true →
      ∃ detail, Announced cx labels s detail) ∧
    (∀ before ev after u v reason err, labels = before ++ .sup ev :: after →
      (handle cx).exec (handle cx).init before = some u → (handle cx).step u (.sup ev) = some v →
      u.sh.ready.isPending = true → u.sup.outcome = none →
      v.sup.outcome = some (.restart reason) → (s.calls 0).startError = some err →
      err = .timeout cx.config.startupTimeout ∨
        if u.sup.lost cx ev then err = .failed reason
        else ∃ detail, err = .failed detail ∧ Announced cx labels s detail) := by
  refine ⟨fun text hmem => fatal_of_exec h hmem,
    fun reason ho hp => announced_of_exec h ⟨reason, ho⟩ hp, ?_⟩
  intro before ev after u v reason err hlabels hu hv hpend ho hf he
  obtain ⟨⟨p, eff⟩, hp, rfl⟩ := Option.map_eq_some_iff.mp hv
  obtain ⟨hdiag, hpur⟩ := Pursued.of_decision hu hpend ho hp hf
  have hnext : (handle cx).exec (handle cx).init (before ++ [.sup ev]) =
      some { u with sup := p, sh := u.sh.apply eff } := Machine.exec_concat hu hv
  have hafter : (handle cx).exec { u with sup := p, sh := u.sh.apply eff } after = some s := by
    rw [hlabels, List.append_cons, Machine.exec_append, hnext] at h
    exact h
  have hs := Machine.exec_stable
    (P := fun labels s => Pursued cx p.pc.early reason labels s)
    (fun _ _ _ _ hs hpur hstep => hpur.concat hs hstep) hnext hpur hafter
  rw [← List.append_cons, ← hlabels] at hs
  rcases StartsFrom.reachable (Machine.runs_of_exec h) err he with htimeout | hsent | hdrop
  · exact Or.inl htimeout
  · obtain ⟨err', herr, hset⟩ := hs.settled _ hsent
    obtain rfl : err = err' := Except.error.inj herr
    rcases hdiag with ⟨hlost, -, hpc⟩ | ⟨-, hpc⟩ | ⟨hlost, -, hpc⟩
    all_goals simp only [hpc, Pc.early, Option.some.injEq, reduceCtorEq, false_and, true_and,
      or_false, false_or] at hset
    · exact Or.inr (by rw [if_pos hlost, hset])
    · exact Or.inl hset.symm
    · exact Or.inr (by rw [if_neg (by simp [hlost])]; exact hset)
  · exact absurd hdrop hs.kept

open Replay in
/-- The result at a run: the worker says why it cannot start, and exits; the start fails with
    the report of its exit. -/
theorem failure_diagnosed_refusal :
    ∃ labels s, (handle refusing).exec (handle refusing).init labels = some s ∧
      (s.calls 0).startError = some (.failed "worker exit status: 1") ∧
      ∃ detail, StartError.failed "worker exit status: 1" = .failed detail ∧
        Announced refusing labels s detail := by
  have hrun : ((handle refusing).exec (handle refusing).init (boot ++ [.call 0 .go])).bind
      (fun u => ((handle refusing).step u refuses).bind fun v =>
        ((handle refusing).exec v
          (go 3 ++ [.exit "exit status: 1", .sup .reap] ++ go 5 ++ [.call 0 .go])).map fun s =>
            decide (u.sh.ready.isPending = true ∧ u.sup.outcome = none ∧
              v.sup.outcome = some (.restart "missing checkpoint") ∧
              (s.calls 0).startError = some (.failed "worker exit status: 1"))) =
      some true := by decide +kernel
  obtain ⟨u, hu, hrun⟩ := Option.bind_eq_some_iff.mp hrun
  obtain ⟨v, hv, hrun⟩ := Option.bind_eq_some_iff.mp hrun
  obtain ⟨s, hs, hd⟩ := Option.map_eq_some_iff.mp hrun
  obtain ⟨hpend, ho, hf, he⟩ := of_decide_eq_true hd
  have hexec : (handle refusing).exec (handle refusing).init ((boot ++ [.call 0 .go]) ++
      refuses :: (go 3 ++ [.exit "exit status: 1", .sup .reap] ++ go 5 ++ [.call 0 .go])) =
        some s := by
    rw [Machine.exec_append, hu, Option.bind_some, Machine.exec]
    exact Option.bind_eq_some_iff.mpr ⟨v, hv, hs⟩
  refine ⟨_, s, hexec, he, ?_⟩
  have hblames := ((failure_diagnosed hexec).2.2 _ _ _ u v _ _ rfl hu hv hpend ho hf
    he).resolve_left (by simp)
  split at hblames
  · simp at hblames
  · exact hblames

open Replay in
/-- The worker says why it cannot start, and exits: the session fails for that reason, and
    what the start fails with, the final state and the fatal notice do not mention it. -/
theorem refusal_unreported :
    ∃ s, (handle refusing).Reachable s ∧
      s.sup.outcome = some (.restart "missing checkpoint") ∧
      (s.calls 0).startError = some (.failed "worker exit status: 1") ∧
      s.sh.state = .failed "worker exit status: 1" ∧ s.sh.fatal = ["worker exit status: 1"] ∧
      ¬ "missing checkpoint".toList <:+: "worker exit status: 1".toList := by
  have hrun : ((handle refusing).exec (handle refusing).init
      (boot ++ [.call 0 .go, refuses] ++ go 3 ++
        [.exit "exit status: 1", .sup .reap] ++ go 5 ++ [.call 0 .go])).map
      (fun s => decide (s.sup.outcome = some (.restart "missing checkpoint") ∧
        (s.calls 0).startError = some (.failed "worker exit status: 1") ∧
        s.sh.state = .failed "worker exit status: 1" ∧
        s.sh.fatal = ["worker exit status: 1"])) = some true := by decide +kernel
  obtain ⟨s, hs, hv⟩ := Machine.reachable_of_exec hrun
  obtain ⟨ho, hstart, hstate, hfatal⟩ := of_decide_eq_true hv
  exact ⟨s, hs, ho, hstart, hstate, hfatal, by decide⟩

end Sys

end Layad
