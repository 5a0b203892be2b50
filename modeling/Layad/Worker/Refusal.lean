import Layad.Worker.Cancellation
import Layad.Worker.Classification

namespace Layad

open Channel Transition

/-!
# When a prediction is told of a shutdown

`ShuttingDown` is what a prediction returns on a requested shutdown, on a closed queue and
on a reply sender that was dropped.  After a failed session the queue is drained before it
closes, but a prediction that sends its job after the drain is told of a shutdown nobody
asked for (`Sys.late_job_told_of_shutdown`).  Without such a late job the answer is only ever
given after `shutdown` or `kill_now` (`Sys.not_told_of_shutdown`).
-/

namespace Call

variable {cx : Ctx} {sh : Shared} {key : Nat} {c c' : Call} {ev : CallEv} {eff : Eff}

/-- A call of `shutdown` or `kill_now`, also the one a failed start makes itself. -/
@[simp]
def asksStop : Call → Bool
  | .shutdown .. | .killNow _ | .readiness (.stopping ..) => true
  | _ => false

/-- Only a call that asks for a stop requests a shutdown or a forced stop. -/
theorem step_unasked (hc : c.asksStop = false) (hc' : c'.asksStop = false)
    (h : c.step cx sh key ev = some (c', eff)) :
    eff ≠ .setState .shuttingDown ∧ eff ≠ .notifyForceStop ∧ c.waking = false := by
  cases stepped h with
  | started request hs =>
    revert hs
    fun_cases start sh request
    all_goals rintro ⟨⟩
    all_goals simp_all
  | shutdown => cases hc
  | killNow => cases hc
  | @readiness pc pc' eff hs =>
    rcases readinessStep_cases hs with ⟨err, pc₀, rfl⟩ | ⟨rfl | ⟨deadline, rfl⟩, -, rfl | rfl, -⟩
    · cases hc
    all_goals simp
  | @predict params pc pc' eff hs =>
    rcases predictStep_does hs with ⟨-, rfl | rfl | rfl | rfl⟩
    all_goals simp
  | @markFailed reason stage stage' eff hs =>
    rcases markStep_does hs with ⟨-, rfl | ⟨rfl, -⟩ | rfl | rfl | rfl⟩
    all_goals simp

/-- The state refuses for a shutdown just if one was requested. -/
theorem shuttingDown_of_refusal {state : State} (h : refusal state = some .shuttingDown) :
    state = .shuttingDown := by
  cases state <;> simp_all [refusal]

/-- How a prediction comes to be told of a shutdown. -/
theorem step_told (h : c.step cx sh key ev = some (c', eff))
    (ha : c'.answered = some (.error .shuttingDown)) :
    c.answered = some (.error .shuttingDown) ∨ sh.state = .shuttingDown ∨
    (c.sending = true ∧ ev = .go ∧ sh.jobs.closed = true) ∨
    (c.isPrediction = true ∧ (∃ params, c = .predict params .awaiting) ∧
      ((sh.replies key).slot = .dropped ∨
        (sh.replies key).slot = .sent (.error .shuttingDown))) := by
  cases stepped h with
  | started request hs =>
    revert hs
    fun_cases start sh request
    all_goals rintro ⟨⟩
    all_goals simp_all [answered]
  | @predict params pc pc' eff hs =>
    revert hs
    fun_cases predictStep sh key params pc ev
    all_goals intro hs
    all_goals simp only [Option.some.injEq, Prod.mk.injEq, reduceCtorEq] at hs
    all_goals obtain ⟨rfl, rfl⟩ := hs
    all_goals simp_all [answered]
    exact shuttingDown_of_refusal ‹_›
  | readiness | shutdown | killNow | markFailed => cases ha

/-- The state refuses for a shutdown, or as unavailable. -/
theorem refusal_cases {state : State} {err : WorkerError} (h : refusal state = some err) :
    err = .shuttingDown ∨ ∃ reason, err = .unavailable reason := by
  cases state with
  | ready => cases h
  | shuttingDown => exact Or.inl (Option.some.inj h).symm
  | starting | pending | failed => exact Or.inr ⟨_, (Option.some.inj h).symm⟩

/-- What a prediction that has begun can be answered. -/
theorem step_refused (h : c.step cx sh key ev = some (c', eff)) (hi : c.isPrediction = true)
    {answer : Answer} (ha : c'.answered = some answer) :
    c.answered = some answer ∨ (sh.replies key).slot = .sent answer ∨
      answer = .error .shuttingDown ∨ ∃ reason, answer = .error (.unavailable reason) := by
  cases stepped h with
  | started => cases hi
  | readiness | shutdown | killNow | markFailed => cases ha
  | @predict params pc pc' eff hs =>
    revert hs
    fun_cases predictStep sh key params pc ev
    all_goals intro hs
    all_goals simp only [Option.some.injEq, Prod.mk.injEq, reduceCtorEq] at hs
    all_goals obtain ⟨rfl, rfl⟩ := hs
    all_goals simp_all [answered]
    case case2 err href =>
      rcases refusal_cases href with rfl | ⟨reason, rfl⟩
      all_goals simp [← ha]

/-- A prediction sends its job when it goes on. -/
theorem step_push {params : Json} {job : Job}
    (h : (Call.predict params .sending).step cx sh key ev = some (c', .push job)) : ev = .go := by
  cases ev <;> simp_all [step, predictStep]

end Call

/-- The worker exits while prediction `1` is past its check, and the supervisor sees it. -/
def Replay.losesRace : List Label :=
  Replay.ready ++ [.call 1 (.begin (.predict .null)), .call 1 .go, .exit "signal: 9", .sup .reap]

/-- No error body of the worker speaks of a shutdown. -/
theorem ErrorBody.toWorkerError_ne (body : ErrorBody) : body.toWorkerError ≠ .shuttingDown := by
  unfold toWorkerError
  split <;> simp

namespace Sup

variable {cx : Ctx} {sh : Shared} {p p' : Sup} {ev : SupEv} {eff : Eff}

/-! ### The answers of the session -/

/-- The answer that goes out next does not speak of a shutdown. -/
def Loyal (p : Sup) : Prop := p.delivery ≠ some (.error .shuttingDown)

/-- No answer speaks of no shutdown. -/
theorem loyal_of_none (h : p.delivery = none) : p.Loyal := by
  simp [Loyal, h]

/-- The request in flight is not failed with a shutdown. -/
theorem loyal_failInflight {err : WorkerError} (he : err ≠ .shuttingDown) (reason : String) :
    (p.failInflight err reason).Loyal := by
  unfold failInflight
  split <;> simp [Loyal, delivery, he]

/-- No reply speaks of a shutdown. -/
theorem loyal_onReply (text expected : String) (value : Json) (key : Nat) :
    (p.onReply cx text value expected key).Loyal := by
  unfold onReply
  dsimp only
  repeat' split
  all_goals simp [Loyal, delivery, ErrorBody.toWorkerError_ne]

/-- No frame for the request in flight makes it speak of a shutdown. -/
theorem loyal_onWaitFrame (frame : Except String Frame) :
    (p.onWaitFrame cx sh frame).Loyal := by
  unfold onWaitFrame
  repeat' split
  all_goals first
    | exact loyal_failInflight (by simp) _
    | exact loyal_onReply _ _ _ _
    | simp [Loyal, delivery]

/-- The session speaks of a shutdown to a job it finds after one was requested. -/
theorem step_loyal (hl : p.Loyal) (hs : sh.state ≠ .shuttingDown)
    (h : p.step cx sh ev = some (p', eff)) : p'.Loyal := by
  revert h
  fun_cases Sup.step cx sh p ev
  all_goals intro h
  all_goals simp only [Option.some.injEq, Prod.mk.injEq, reduceCtorEq] at h
  all_goals obtain ⟨rfl, rfl⟩ := h
  all_goals try (simp_all [Loyal, delivery]; done)
  all_goals try exact loyal_of_none (delivery_settleRestart _ _)
  all_goals try exact loyal_failInflight (by simp) _
  all_goals try
    rename Option String => reason
    cases reason <;> simp [Loyal, delivery, afterReap]
  -- a read
  all_goals
    rename p.read cx _ = some _ => hr
    obtain ⟨buf, avail, rfl⟩ := read_eq hr
    first
      | exact hl
      | exact loyal_of_none (delivery_onIdleFrame _)
      | exact loyal_onWaitFrame _

/-! ### Requests that are given up -/

/-- The session ended on a failure. -/
def failed (p : Sup) : Bool := (p.outcome.bind Outcome.reason).isSome

/-- Failing the handshake leaves the request in flight alone. -/
theorem settleRestart_inflight (err : StartError) (reason : String) :
    (p.settleRestart sh err reason).inflight = p.inflight := by
  unfold settleRestart
  split <;> simp

/-- A frame read between requests leaves the request in flight alone. -/
theorem onIdleFrame_inflight (frame : Except String Frame) :
    (p.onIdleFrame cx sh frame).inflight = p.inflight := by
  unfold onIdleFrame
  repeat' split
  all_goals simp [settleRestart_inflight]

/-- The request that waits for a frame is answered by it. -/
theorem onWaitFrame_inflight (hr : sh.ready.isPending = false) (frame : Except String Frame) :
    (p.onWaitFrame cx sh frame).inflight = none := by
  unfold onWaitFrame onReply
  dsimp only
  repeat' split
  all_goals simp_all

/-- A request in flight is given up only for a shutdown, or because its caller is gone. -/
theorem step_left (hc : p.Coherent) (hs : p.Staged sh.ready.isPending) (ho : p.outcome = none)
    (h : p.step cx sh ev = some (p', eff)) {o : Outcome} (ho' : p'.outcome = some o) {id : String}
    {key : Nat} (hi : p'.inflight = some (id, key)) :
    sh.state = .shuttingDown ∨ (sh.replies key).closed = true := by
  revert h
  fun_cases Sup.step cx sh p ev
  all_goals intro h
  all_goals simp only [Option.some.injEq, Prod.mk.injEq, reduceCtorEq] at h
  all_goals obtain ⟨rfl, rfl⟩ := h
  all_goals try (simp_all [Coherent, Staged, settleRestart_inflight]; done)
  -- a read
  all_goals
    rename p.read cx _ = some _ => hr
    obtain ⟨buf, avail, rfl⟩ := read_eq hr
    rename p.pc = _ => hpc
    simp only [Coherent, Staged, hpc] at hc hs
  · simp [ho] at ho'
  · rw [onIdleFrame_inflight] at hi
    simp [hc.2] at hi
  · simp [ho] at ho'
  · rw [onWaitFrame_inflight hs.1] at hi
    cases hi

/-- A session that has ended by a restart has failed. -/
theorem failed_of_outcome (h : p.outcome = none ∨ ∃ reason, p.outcome = some (.restart reason))
    (hs : p.outcome.isSome) : p.failed = true := by
  rcases h with h | ⟨reason, h⟩
  · simp [h] at hs
  · simp [failed, h]

/-- How a session comes to end without a failure. -/
theorem step_stops (hc : p.Coherent) (ho : p.outcome = none)
    (h : p.step cx sh ev = some (p', eff)) (ho' : p'.outcome.isSome) (hf : p'.failed = false) :
    sh.state = .shuttingDown ∨ sh.forceStop = true ∨
      (eff = .skip ∧ p.pc = .loopHead ∧ sh.ready.isPending = true) := by
  revert h
  fun_cases Sup.step cx sh p ev
  all_goals intro h
  all_goals simp only [Option.some.injEq, Prod.mk.injEq, reduceCtorEq] at h
  all_goals obtain ⟨rfl, rfl⟩ := h
  all_goals try (simp_all [Coherent, failed]; done)
  -- a read
  all_goals
    rename p.read cx _ = some _ => hr
    obtain ⟨buf, avail, rfl⟩ := read_eq hr
  · simp [ho] at ho'
  · rw [failed_of_outcome (onIdleFrame_outcome (p := { p with buf, avail }) ho _) ho'] at hf
    cases hf
  · simp [ho] at ho'
  · rw [failed_of_outcome (onWaitFrame_outcome (p := { p with buf, avail }) ho _) ho'] at hf
    cases hf

/-- After a frame the task does not end yet. -/
theorem ending_of_decided {pc : Pc} (h : pc.decided = true) : pc.ending = false := by
  cases pc <;> simp_all [Pc.decided, Pc.ending]

/-- A failed session comes to its end with a queue it found empty. -/
theorem step_drained (hc : p.Coherent) (h : p.step cx sh ev = some (p', eff))
    (hf : p'.failed = true) (hp : p'.pc.ending = true) :
    (p.failed = true ∧ p.pc.ending = true) ∨ (sh.jobs.buffer = [] ∧ eff = .skip) := by
  revert h
  fun_cases Sup.step cx sh p ev
  all_goals intro h
  all_goals simp only [Option.some.injEq, Prod.mk.injEq, reduceCtorEq] at h
  all_goals obtain ⟨rfl, rfl⟩ := h
  all_goals try (simp_all [Coherent, failed, Pc.ending]; done)
  -- the end of a session that was stopped
  case case55 hpc =>
    simp only [Coherent, hpc] at hc
    obtain ⟨⟨o, ho, hr⟩, -⟩ := hc
    have hnone : p.outcome.bind Outcome.reason = none := by rw [ho, Option.bind_some, hr]
    simp [failed, hnone] at hf
  -- a read that goes on
  case case22 hr | case36 hr =>
    obtain ⟨buf, avail, rfl⟩ := read_eq hr
    exact Or.inl ⟨hf, hp⟩
  -- the end of `shutdown_child`
  all_goals try
    rename Option String => reason
    cases reason <;> simp [afterReap, Pc.ending] at hp
  -- a decision is not the end
  all_goals
    rw [ending_of_decided (by simp)] at hp
    cases hp

/-- Once the session has ended no answer is formed any more, and no request taken up. -/
theorem step_unanswered (hc : p.Coherent) (ho : p.outcome.isSome)
    (h : p.step cx sh ev = some (p', eff)) :
    p'.delivery = none ∧ (p'.inflight = p.inflight ∨ p'.inflight = none) := by
  revert h
  fun_cases Sup.step cx sh p ev
  all_goals intro h
  all_goals simp only [Option.some.injEq, Prod.mk.injEq, reduceCtorEq] at h
  all_goals obtain ⟨rfl, rfl⟩ := h
  all_goals try (simp_all [Coherent, delivery]; done)
  -- the end of `shutdown_child`
  all_goals
    rename Option String => reason
    cases reason <;> simp [afterReap, delivery]

end Sup

namespace Sys

variable {cx : Ctx} {s t : Sys} {l : Label}

/-! ### Runs in which nobody asked for a stop -/

/-- A step after which its call has not asked for a stop. -/
def unasked (cx : Ctx) (s : Sys) : Label → Bool
  | .call k ev =>
    match (s.calls k).step cx s.sh k ev with
    | some (c, _) => !c.asksStop
    | none => true
  | _ => true

/-- No prediction sends its job once the drain of a failed session is over. -/
def punctual (s : Sys) : Label → Bool
  | .call k .go => !((s.calls k).sending && s.sup.failed && s.sup.pc.ending)
  | _ => true

/-- A step of a run in which nobody asks for a stop makes no call that does. -/
theorem asksStop_of_unasked {key : Nat} {ev : CallEv} {c : Call} {eff : Eff}
    (hg : s.unasked cx (.call key ev) = true)
    (hc : (s.calls key).step cx s.sh key ev = some (c, eff)) : c.asksStop = false := by
  simpa [unasked, hc] using hg

/-- Nobody asked for a stop, and nothing looks as if. -/
structure Unasked (s : Sys) : Prop where
  calls : ∀ k, (s.calls k).asksStop = false
  state : s.sh.state ≠ .shuttingDown
  forceStop : s.sh.forceStop = false

/-- Where nobody asks for a stop, nobody has asked for one. -/
theorem Unasked.step (h : s.Unasked) (hg : s.unasked cx l = true) (hs : s.step cx l = some t) :
    t.Unasked := by
  rcases step_cases hs with
    ⟨ev, p, eff, -, hp, rfl⟩ | ⟨key, ev, c, eff, rfl, hc, rfl⟩ | ⟨d, -, rfl⟩ | ⟨status, -, rfl⟩
  · -- the supervisor writes `Ready` and `Failed` only, and takes a forced stop back
    have hd := Sup.step_does hp
    refine ⟨h.calls, ?_, ?_⟩
    · cases eff with
      | setState state =>
        rcases hd with ⟨info, -, rfl⟩ | ⟨err, -, rfl⟩ | ⟨reason, -, -, rfl⟩ | ⟨detail, -, -, rfl⟩
        all_goals simp [Shared.apply]
      | _ => exact h.state
    · cases eff with
      | notifyForceStop => exact absurd hd id
      | kill => rfl
      | _ => exact h.forceStop
  · -- a call that is not to ask for a stop neither writes nor notifies one
    have hcs := asksStop_of_unasked hg hc
    obtain ⟨hset, hstop, -⟩ := Call.step_unasked (h.calls key) hcs hc
    have hd := (Call.step_moved hc).does
    refine ⟨fun k => ?_, ?_, ?_⟩
    · by_cases hk : k = key
      · rw [hk]
        simpa using hcs
      · simpa [Function.update_of_ne hk] using h.calls k
    · cases eff with
      | setState state =>
        rcases hd with rfl | ⟨-, reason, -, rfl, -⟩
        · exact absurd rfl hset
        · simp [Shared.apply]
      | _ => exact h.state
    · cases eff with
      | notifyForceStop => exact absurd rfl hstop
      | kill => rfl
      | _ => exact h.forceStop
  · exact ⟨h.calls, h.state, h.forceStop⟩
  · exact ⟨h.calls, h.state, h.forceStop⟩

/-! ### What the session leaves behind -/

/-- The operations of the supervisor that end no caller's wait. -/
theorem closed_of_sup {ev : SupEv} {p : Sup} {eff : Eff}
    (hp : s.sup.step cx s.sh ev = some (p, eff)) (k : Nat) :
    ((s.sh.apply eff).replies k).closed = (s.sh.replies k).closed := by
  have hdrop : ∀ keys, (dropReplies s.sh.replies keys k).closed = (s.sh.replies k).closed := by
    intro keys
    unfold dropReplies
    split <;> simp
  have hd := Sup.step_does hp
  cases eff with
  | reply key answer => by_cases hk : k = key <;> simp_all [Shared.apply]
  | closeReply key => exact absurd hd id
  | abandon key => exact hdrop [key]
  | kill keys => exact hdrop keys
  | dropReceiver => exact hdrop _
  | _ => rfl

/-- A call gives up its own wait only. -/
theorem closed_of_call {c c' : Call} {key k : Nat} {eff : Eff}
    (h : Call.Does s.sh key c c' eff) (hne : eff ≠ .closeReply k) :
    ((s.sh.apply eff).replies k).closed = (s.sh.replies k).closed := by
  cases eff with
  | closeReply j =>
    have hk : k ≠ j := by
      rintro rfl
      exact hne rfl
    simp [Shared.apply, Function.update_of_ne hk]
  | recv | dropReceiver | reply | abandon | settle | notifyDone | kill | spawn | write | reap
  | signal => exact absurd h id
  | _ => rfl

/-- Once its session has ended a handle that has not served never will. -/
theorem Unserving.sup (h : s.Unserving) (hc : s.sup.Coherent) (ho : s.sup.outcome.isSome)
    {ev : SupEv} {p : Sup} {eff : Eff} (hp : s.sup.step cx s.sh ev = some (p, eff)) :
    Unserving { s with sup := p, sh := s.sh.apply eff } := by
  refine ⟨?_, h.sending, ?_⟩
  · have hd := Sup.step_does hp
    cases eff with
    | setState state =>
      rcases hd with ⟨info, hpc, -⟩ | ⟨err, -, rfl⟩ | ⟨reason, -, -, rfl⟩ | ⟨detail, -, -, rfl⟩
      · simp only [Sup.Coherent, hpc] at hc
        simp [hc.1] at ho
      all_goals simp [Shared.apply]
    | _ => exact h.state
  · simpa only [ledger, accepted_of_sup hp] using h.jobs

/-- What the supervisor leaves behind, in a run in which nobody asked for a stop, tells no
    prediction of one. -/
structure Truthful (s : Sys) : Prop where
  loyal : s.sup.Loyal
  stopped : s.sup.outcome.isSome → s.sup.failed = false → s.Unserving
  drained : s.sup.failed = true → s.sup.pc.ending = true → s.sh.jobs.buffer = []
  left : ∀ id key, s.sup.outcome.isSome → s.sup.inflight = some (id, key) →
    (s.sh.replies key).closed = true
  dropped : ∀ k, (s.sh.replies k).slot = .dropped →
    (s.sh.replies k).closed = true ∨ (s.calls k).isPrediction = false
  sent : ∀ k, (s.sh.replies k).slot ≠ .sent (.error .shuttingDown)
  waits : ∀ k, ((s.calls k).mayPush = true ∨ ∃ params, s.calls k = .predict params .awaiting) →
    (s.sh.replies k).closed = false
  answered : ∀ k, (s.calls k).answered ≠ some (.error .shuttingDown)

/-- A new handle has told nobody of a shutdown. -/
theorem Truthful.init (cx : Ctx) : (Sys.init cx).Truthful where
  loyal := by simp [Sup.Loyal, Sup.delivery, Sys.init, Sup.init]
  stopped := by simp [Sys.init, Sup.init]
  drained := by simp [Sys.init, Sup.init, Sup.failed]
  left := by simp [Sys.init, Sup.init]
  dropped := by simp [Sys.init]
  sent := by simp [Sys.init]
  waits := by simp [Sys.init]
  answered k := by
    simp only [Sys.init]
    split <;> simp [Call.answered]

/-- A task that ends without a failure has not served. -/
theorem Truthful.unserving (h : s.Truthful) (hn : s.NeverServed) (hp : s.sup.pc.ending = true)
    (hf : s.sup.failed = false) : s.Unserving := by
  cases ho : s.sup.outcome with
  | none => exact hn ⟨ho, Or.inr (Or.inr hp)⟩
  | some o => exact h.stopped (by rw [ho]; rfl) hf

/-- In such a run the supervisor tells nobody of a shutdown. -/
theorem Truthful.sup (h : s.Truthful) (hu : s.Unasked) (hh : s.Handshake) (hb : s.Booked)
    (hn : s.NeverServed) {ev : SupEv} {p : Sup} {eff : Eff}
    (hp : s.sup.step cx s.sh ev = some (p, eff)) :
    Truthful { s with sup := p, sh := s.sh.apply eff } where
  loyal := Sup.step_loyal h.loyal hu.state hp
  -- without a failure the session ends before it has served, or for a stop
  stopped hos hf := by
    cases ho : s.sup.outcome with
    | some o =>
      have hset := (Sup.step_settled hh.coherent ho hp).1
      have hf₀ : s.sup.failed = false := by simpa [Sup.failed, ho, hset] using hf
      have hos₀ : s.sup.outcome.isSome := by rw [ho]; rfl
      exact (h.stopped hos₀ hf₀).sup hh.coherent hos₀ hp
    | none =>
      rcases Sup.step_stops hh.coherent ho hp hos hf with hst | hst | ⟨rfl, hpc, hr⟩
      · exact absurd hst hu.state
      · rw [hu.forceStop] at hst
        cases hst
      · -- the readiness future is gone: no prediction has passed its check
        have hun := hn ⟨ho, Or.inl ⟨hr, by rw [hpc]; rfl⟩⟩
        exact ⟨hun.state, hun.sending, hun.jobs⟩
  -- once the queue is drained, only what a call sends comes in
  drained hf he := by
    rcases Sup.step_drained hh.coherent hp hf he with ⟨hf₀, he₀⟩ | ⟨hbuf, rfl⟩
    · obtain ⟨gone, hbuf⟩ := buffer_of_sup hp
      rw [h.drained hf₀ he₀] at hbuf
      exact (List.append_eq_nil_iff.mp hbuf.symm).2
    · exact hbuf
  -- the session gives a request up only if its caller has left
  left id key hos hi := by
    dsimp only at hos hi ⊢
    rw [closed_of_sup hp]
    cases ho : s.sup.outcome with
    | some o =>
      have hos₀ : s.sup.outcome.isSome := by rw [ho]; rfl
      rcases (Sup.step_unanswered hh.coherent hos₀ hp).2 with hsame | hnone
      · exact h.left id key hos₀ (hsame ▸ hi)
      · rw [hnone] at hi
        cases hi
    | none =>
      obtain ⟨o, ho'⟩ := Option.isSome_iff_exists.mp hos
      rcases Sup.step_left hh.coherent hh.staged ho hp ho' hi with hst | hclosed
      · exact absurd hst hu.state
      · exact hclosed
  -- a reply sender is dropped with its request, by a forced stop, or with the receiver
  dropped k hk := by
    dsimp only at hk ⊢
    rw [closed_of_sup hp]
    by_cases hold : (s.sh.replies k).slot = .dropped
    · exact h.dropped k hold
    have hd := Sup.step_does hp
    cases eff with
    -- the request in flight, given up as above
    | abandon key =>
      obtain ⟨o, id, hpc, hi⟩ := hd
      have hos : s.sup.outcome = some o := by simpa [Sup.Coherent, hpc] using hh.coherent
      have hkey : k = key := by
        by_contra hne
        exact hold (by simpa [Shared.apply, dropReplies, hne] using hk)
      exact Or.inl (hkey ▸ h.left id key (by rw [hos]; rfl) hi)
    -- a forced stop, which nobody has asked for
    | kill keys =>
      have hst := Sup.step_kill hp
      rw [hu.forceStop] at hst
      cases hst
    -- after a failure the queue is empty; without one it holds wake-up jobs only
    | dropReceiver =>
      have hpc : s.sup.pc.ending = true := by
        rw [show s.sup.pc = .closing from hd]
        rfl
      have hmem : k ∈ s.ledger.queued := by
        by_contra hne
        refine hold ?_
        simpa [Shared.apply, dropReplies, show k ∉ s.sh.jobs.buffer.map Job.reply from hne] using hk
      cases hf : s.sup.failed with
      | true => simp [ledger, h.drained hf hpc] at hmem
      | false =>
        have hacc := ((hb.balanced.mem_open k).mp (List.mem_append_left _ hmem)).1
        exact Or.inr ((h.unserving hn hpc hf).jobs k hacc)
    | reply key answer =>
      refine absurd ?_ hold
      by_cases he : k = key
      · rw [he] at hk ⊢
        simp only [Shared.apply, Function.update_self] at hk
        exact Oneshot.slot_send_eq_dropped hk
      · simpa [Shared.apply, Function.update_of_ne he] using hk
    | closeReply => exact absurd hd id
    | _ => exact absurd hk hold
  -- what is sent is the answer in hand, or that of the drain
  sent k hk := by
    dsimp only at hk
    rcases Shared.slot_apply_eq_sent hk with hold | rfl
    · exact h.sent k hold
    · rcases Sup.step_does hp with ⟨next, hpc⟩ | ⟨detail, -, ha⟩
      · exact h.loyal (by simp [Sup.delivery, hpc])
      · cases ha
  waits k hk := by
    dsimp only at hk ⊢
    rw [closed_of_sup hp]
    exact h.waits k hk
  answered := h.answered

/-- The receiver is dropped at the end of the task. -/
theorem ending_of_gone {pc : Pc} (h : pc.gone = true) : pc.ending = true := by
  cases pc <;> simp_all [Pc.gone, Pc.ending]

/-- In such a run no call finds a shutdown. -/
theorem Truthful.call (h : s.Truthful) (hu : s.Unasked) (hb : s.Booked) (hn : s.NeverServed)
    (hcl : s.Closes) {key : Nat} {ev : CallEv} {c : Call} {eff : Eff}
    (hc : (s.calls key).step cx s.sh key ev = some (c, eff)) (hcs : c.asksStop = false)
    (hg : s.punctual (.call key ev) = true) :
    Truthful { s with calls := Function.update s.calls key c, sh := s.sh.apply eff } := by
  have hm := Call.step_moved hc
  have hd := hm.does
  refine ⟨h.loyal, fun hos hf => (h.stopped hos hf).call hb hc, ?_, ?_, ?_, ?_, ?_, ?_⟩
  · -- the queue stays empty once it is drained
    intro hf he
    have hbuf := h.drained hf he
    rcases hd.keeps with ⟨state, rfl⟩ | ⟨job, rfl⟩ | ⟨-, hjobs⟩
    · exact hbuf
    · -- a prediction is too late to send its job, and nobody sends a wake-up job
      exfalso
      obtain ⟨-, -, -, -, ⟨hsend, -⟩ | ⟨hw, -⟩⟩ := hd
      · obtain rfl := Call.step_push (hsend ▸ hc)
        simp [punctual, hsend, hf, he] at hg
      · rw [(Call.step_unasked (hu.calls key) hcs hc).2.2] at hw
        cases hw
    · simpa [hjobs] using hbuf
  · intro id k hos hi
    exact Shared.closed_apply (h.left id k hos hi) eff
  · -- a call drops no sender, and stays of its kind
    intro k hk
    dsimp only at hk ⊢
    rw [slot_of_call hd] at hk
    rcases h.dropped k hk with hclosed | hpred
    · exact Or.inl (Shared.closed_apply hclosed eff)
    · by_cases he : k = key
      · rw [he, Function.update_self]
        rw [he] at hk hpred
        -- a call that was idle has a fresh channel, on which nothing was dropped
        rcases hm.kind with hidle | hkind
        · have hempty := hb.balanced.fresh key (hb.fresh key (by simp [hidle]))
          exact absurd hk (by simp [show (s.sh.replies key).slot = .empty from hempty])
        · exact Or.inr (hkind ▸ hpred)
      · rw [Function.update_of_ne he]
        exact Or.inr hpred
  · intro k hk
    dsimp only at hk
    rw [slot_of_call hd] at hk
    exact h.sent k hk
  · intro k hk
    dsimp only at hk ⊢
    by_cases he : k = key
    · rw [he, Function.update_self] at hk
      rw [he]
      -- a call that waits has not closed its receiver, since it leaves when it does
      have hopen : (s.calls key).mayPush = true ∧ ∀ j, eff ≠ .closeReply j := by
        rcases hk with hk | ⟨params, hk⟩
        · refine ⟨hm.mayPush hk, ?_⟩
          rintro j rfl
          rw [hd.2] at hk
          cases hk
        · obtain rfl := hm.awaits params hk
          exact ⟨hd.2.2.1, by simp⟩
      rw [closed_of_call hd (hopen.2 key)]
      exact h.waits key (Or.inl hopen.1)
    · rw [Function.update_of_ne he] at hk
      rw [closed_of_call hd ?_]
      · exact h.waits k hk
      · rintro rfl
        exact he hd.1
  · intro k hk
    dsimp only at hk
    by_cases he : k = key
    · rw [he, Function.update_self] at hk
      -- where a call can be told of a shutdown
      rcases Call.step_told hc hk with
        hold | hst | ⟨hsend, rfl, hclosed⟩ | ⟨hpred, ⟨params, hw⟩, hsl⟩
      · exact h.answered key hold
      · exact hu.state hst
      · -- the channel is closed, so the task is over
        have hpc := ending_of_gone (hcl.closed.mp hclosed)
        cases hf : s.sup.failed with
        | true =>
          rw [punctual, hsend, hf, hpc] at hg
          cases hg
        | false =>
          rw [(h.unserving hn hpc hf).sending key] at hsend
          cases hsend
      · rcases hsl with hsl | hsl
        · rcases h.dropped key hsl with hclosed | hno
          · simp [h.waits key (Or.inr ⟨params, hw⟩)] at hclosed
          · rw [hno] at hpred
            cases hpred
        · exact h.sent key hsl
    · rw [Function.update_of_ne he] at hk
      exact h.answered k hk

/-- Nobody asks for a stop, and no prediction sends its job after the drain. -/
def calm (cx : Ctx) (s : Sys) (l : Label) : Bool := s.unasked cx l && s.punctual l

/-- In every calm run nobody asked for a stop, and nobody is told of one. -/
theorem Truthful.reachable (h : ((handle cx).restrict (calm cx)).Reachable s) :
    s.Unasked ∧ s.Truthful := by
  refine Machine.invariant_of_restrict (P := fun s => s.Unasked ∧ s.Truthful) ?_ ?_ h
  · refine ⟨⟨fun k => ?_, by simp [handle, Sys.init], rfl⟩, Truthful.init cx⟩
    simp only [handle, Sys.init]
    split <;> rfl
  · rintro s l t hr ⟨hu, hs⟩ hg hstep
    obtain ⟨hask, hpunct⟩ := Bool.and_eq_true_iff.mp hg
    refine ⟨hu.step hask hstep, ?_⟩
    rcases step_cases hstep with
      ⟨ev, p, eff, -, hp, rfl⟩ | ⟨key, ev, c, eff, rfl, hc, rfl⟩ | ⟨d, -, rfl⟩ | ⟨status, -, rfl⟩
    · exact hs.sup hu (Handshake.reachable hr) (Booked.reachable hr) (NeverServed.reachable hr) hp
    · exact hs.call hu (Booked.reachable hr) (NeverServed.reachable hr) (Closes.reachable hr) hc
        (asksStop_of_unasked hask hc) hpunct
    · exact { hs with stopped := fun ho hf =>
        ⟨(hs.stopped ho hf).1, (hs.stopped ho hf).2, (hs.stopped ho hf).3⟩ }
    · exact { hs with stopped := fun ho hf =>
        ⟨(hs.stopped ho hf).1, (hs.stopped ho hf).2, (hs.stopped ho hf).3⟩ }

/-! ### A job the failed session left in the queue -/

/-- The session has failed, and all that call `k` can still be told is that. -/
structure Bereft (k : Nat) (s : Sys) : Prop where
  failed : ∃ reason, s.sup.outcome = some (.restart reason)
  begun : (s.calls k).isPrediction = true
  hand : ∀ answer next, s.sup.pc ≠ .answer k answer next
  sent : ∀ answer, (s.sh.replies k).slot = .sent answer →
    ∃ message, answer = .error (.workerFailed message)
  answered : ∀ answer, (s.calls k).answered = some answer →
    ∃ message, answer = .error (.workerFailed message) ∨ answer = .error (.unavailable message)

/-- A prediction that waits when the session fails is told of nothing else. -/
theorem Bereft.of_waiting (hb : s.Booked) {reason : String}
    (ho : s.sup.outcome = some (.restart reason)) {k : Nat} {params : Json} {pc : PredictPc}
    (hk : s.calls k = .predict params pc)
    (hpc : pc = .sending ∨ (pc = .awaiting ∧ k ∈ s.ledger.queued)) : s.Bereft k := by
  have hslot : k ∉ s.ledger.held ∧ s.ledger.slot k = .empty := by
    rcases hpc with rfl | ⟨rfl, hq⟩
    · have hno := hb.fresh k (by rw [hk]; rfl)
      refine ⟨fun hm => hno ?_, hb.balanced.fresh k hno⟩
      exact ((hb.balanced.mem_open k).mp (List.mem_append_right _ hm)).1
    · refine ⟨fun hm => ?_, ((hb.balanced.mem_open k).mp (List.mem_append_left _ hq)).2⟩
      exact (List.nodup_append.mp hb.balanced.open_nodup).2.2 k hq k hm rfl
  have hnone : (s.calls k).answered = none := by
    rcases hpc with rfl | ⟨rfl, -⟩
    all_goals simp [hk, Call.answered]
  refine ⟨⟨reason, ho⟩, by rw [hk]; rfl, ?_, ?_, ?_⟩
  · intro answer next hpc
    exact hslot.1 (by simp [ledger, Sup.held, Pc.held, hpc])
  · intro answer hs
    simp [show (s.sh.replies k).slot = .empty from hslot.2] at hs
  · simp [hnone]

/-- A prediction that can only be told of the failure is told of nothing else. -/
theorem Bereft.step {k : Nat} (h : s.Bereft k) (hc : s.sup.Coherent)
    (ht : ∀ k, (t.calls k).answered ≠ some (.error .shuttingDown)) (hs : s.step cx l = some t) :
    t.Bereft k := by
  obtain ⟨reason, ho⟩ := h.failed
  rcases step_cases hs with
    ⟨ev, p, eff, -, hp, rfl⟩ | ⟨key, ev, c, eff, rfl, hc', rfl⟩ | ⟨d, -, rfl⟩ | ⟨status, -, rfl⟩
  · -- a failed session answers with its failure only
    refine ⟨⟨reason, (Sup.step_settled hc ho hp).1⟩, h.begun, ?_, ?_, h.answered⟩
    · intro answer next hpc
      have hnone := (Sup.step_unanswered hc (by rw [ho]; rfl) hp).1
      simp [Sup.delivery, show p.pc = _ from hpc] at hnone
    · intro answer hk
      rcases Shared.slot_apply_eq_sent hk with hold | rfl
      · exact h.sent answer hold
      · rcases Sup.step_does hp with ⟨next, hpc⟩ | ⟨detail, -, ha⟩
        · exact absurd hpc (h.hand answer next)
        · exact ⟨detail, ha⟩
  · -- the call itself: it stays a prediction, and takes the answer it is given
    have hd := (Call.step_moved hc').does
    refine ⟨h.failed, ?_, h.hand, ?_, ?_⟩
    · dsimp only
      by_cases he : k = key
      · rw [he, Function.update_self]
        rcases (Call.step_moved hc').kind with hidle | hkind
        · exact absurd (he ▸ h.begun) (by rw [hidle]; simp)
        · exact hkind ▸ he ▸ h.begun
      · rw [Function.update_of_ne he]
        exact h.begun
    · intro answer hk
      dsimp only at hk
      rw [slot_of_call hd] at hk
      exact h.sent answer hk
    · intro answer hk
      have hno := ht k
      dsimp only at hk hno
      by_cases he : k = key
      · rw [he, Function.update_self] at hk hno
        rcases Call.step_refused hc' (he ▸ h.begun) hk with hold | hslot | rfl | ⟨reason, rfl⟩
        · exact h.answered answer (he ▸ hold)
        · obtain ⟨message, hm⟩ := h.sent answer (he ▸ hslot)
          exact ⟨message, Or.inl hm⟩
        · exact absurd hk hno
        · exact ⟨reason, Or.inr rfl⟩
      · rw [Function.update_of_ne he] at hk
        exact h.answered answer hk
  · exact ⟨h.failed, h.begun, h.hand, h.sent, h.answered⟩
  · exact ⟨h.failed, h.begun, h.hand, h.sent, h.answered⟩

/-- **A prediction is told of a shutdown only for a shutdown**, in every run in which no
    prediction sends its job after the drain of a failed session: as long as nobody has
    called `shutdown` or `kill_now`, no prediction returns `ShuttingDown`; and one that was
    past its check when the session failed, with its job still to be sent or in the queue,
    returns `WorkerFailed` or `Unavailable` if it returns. -/
theorem not_told_of_shutdown (h : ((handle cx).restrict (calm cx)).Reachable s) :
    (∀ k, (s.calls k).answered ≠ some (.error .shuttingDown)) ∧
    ∀ reason t k params pc, s.sup.outcome = some (.restart reason) →
      ((handle cx).restrict (calm cx)).Runs s t → s.calls k = .predict params pc →
      (pc = .sending ∨ (pc = .awaiting ∧ k ∈ s.ledger.queued)) →
      ∀ answer, (t.calls k).answered = some answer →
        ∃ message, answer = .error (.workerFailed message) ∨
          answer = .error (.unavailable message) := by
  refine ⟨(Truthful.reachable h).2.answered, ?_⟩
  intro reason t k params pc ho hr hk hpc
  have h₀ := Bereft.of_waiting (Booked.reachable h.of_restrict) ho hk hpc
  suffices ((handle cx).restrict (calm cx)).Reachable t ∧ t.Bereft k from this.2.answered
  induction hr with
  | refl => exact ⟨h, h₀⟩
  | @tail u v hu hn ih =>
    obtain ⟨hru, hbu⟩ := ih
    obtain ⟨l, hl⟩ := hn
    have hrv := hru.step hl
    have hcoh := (Handshake.reachable hru.of_restrict).coherent
    exact ⟨hrv, hbu.step hcoh (Truthful.reachable hrv).2.answered
      (Machine.restrict_step.mp hl).2⟩

open Replay in
/-- The result at a run: the job is sent before the drain, which answers it. -/
theorem not_told_of_shutdown_drained :
    ∃ s t, ((handle demo).restrict (calm demo)).Reachable s ∧
      ((handle demo).restrict (calm demo)).Runs s t ∧
      s.sup.outcome = some (.restart "worker exited with signal: 9") ∧
      (s.calls 1).sending = true ∧ (t.calls 1).failure = some (.workerFailed "worker signal: 9") ∧
      ∀ answer, (t.calls 1).answered = some answer →
        ∃ message, answer = .error (.workerFailed message) ∨
          answer = .error (.unavailable message) := by
  have hrun : ((((handle demo).restrict (calm demo)).exec
      ((handle demo).restrict (calm demo)).init losesRace)).bind (fun s =>
        (((handle demo).restrict (calm demo)).exec s
          ([.call 1 .go] ++ go 3 ++ [.sup .reap] ++ go 5 ++ [.sup .recv] ++ go 1 ++
            [.call 1 .go])).map (fun t =>
          decide (s.sup.outcome = some (.restart "worker exited with signal: 9") ∧
            (s.calls 1).sending = true ∧
            (t.calls 1).failure = some (.workerFailed "worker signal: 9")))) =
      some true := by decide +kernel
  obtain ⟨s, t, hs, ht, hv⟩ := Machine.runs_of_exec_exec hrun
  obtain ⟨ho, hsend, hfail⟩ := of_decide_eq_true hv
  obtain ⟨params, hk⟩ : ∃ params, s.calls 1 = .predict params .sending := by
    revert hsend
    fun_cases Call.sending (s.calls 1) <;> simp_all
  exact ⟨s, t, hs, ht, ho, hsend, hfail,
    (not_told_of_shutdown hs).2 _ t 1 params .sending ho ht hk (Or.inl rfl)⟩

open Replay in
/-- The drain finds the queue empty; the job that comes after it is dropped with the
    receiver, and the prediction is told of a shutdown that nobody asked for. -/
theorem late_job_told_of_shutdown :
    ∃ s, ((handle demo).restrict (unasked demo)).Reachable s ∧
      s.sup.outcome = some (.restart "worker exited with signal: 9") ∧
      (s.calls 1).answered = some (.error .shuttingDown) := by
  have hrun : ((((handle demo).restrict (unasked demo)).exec
      ((handle demo).restrict (unasked demo)).init (losesRace ++ go 3 ++ [.sup .reap] ++ go 6 ++
        [.call 1 .go] ++ go 1 ++ [.call 1 .go]))).map (fun s =>
          decide (s.sup.outcome = some (.restart "worker exited with signal: 9") ∧
            (s.calls 1).failure = some .shuttingDown)) = some true := by decide +kernel
  obtain ⟨s, hs, hv⟩ := Machine.reachable_of_exec hrun
  obtain ⟨ho, hfail⟩ := of_decide_eq_true hv
  exact ⟨s, hs, ho, Call.failure_eq_some.mp hfail⟩

end Sys

end Layad
