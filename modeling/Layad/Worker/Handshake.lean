import Layad.Worker.Calls
import Layad.Worker.Coherence

namespace Layad

open Channel Transition

/-!
# The ready handshake

Until the ready frame is accepted the daemon admits nothing: as long as the handshake is
pending, whatever is in the queue is a wake-up job of a shutdown, and the state says so
(`Hushed`).  Hence a request is only ever dispatched after the handshake, and the ready
frame is the first line the session read (`Staged`).
-/

/-! ### Where the ready frame stands among the lines -/

/-- Not a ready frame. -/
def LineRead.Plain (l : LineRead) : Prop := ∀ info, l.fate ≠ .ready info

/-- The first line is an accepted ready frame, and no later one is. -/
def Announced (lines : List LineRead) : Prop :=
  ∃ first rest, lines = first :: rest ∧ (∃ info, first.fate = .ready info) ∧
    ∀ l ∈ rest, l.Plain

/-- A ready frame that comes first. -/
theorem Announced.first (text : String) (info : WorkerInfo) : Announced [⟨text, .ready info⟩] :=
  ⟨_, [], rfl, ⟨info, rfl⟩, by simp⟩

/-- A plain line after the ready frame changes nothing. -/
theorem Announced.append {lines : List LineRead} (h : Announced lines) {l : LineRead}
    (hl : l.Plain) : Announced (lines ++ [l]) := by
  obtain ⟨first, rest, rfl, hi, hr⟩ := h
  refine ⟨first, rest ++ [l], rfl, hi, ?_⟩
  intro l' hm
  rcases List.mem_append.mp hm with hm | hm
  · exact hr l' hm
  · exact List.mem_singleton.mp hm ▸ hl

namespace Sup

variable {cx : Ctx} {sh : Shared} {p p' : Sup} {ev : SupEv} {eff : Eff}

/-- The handshake and the lines at each point of the supervisor. -/
def Staged (pending : Bool) (p : Sup) : Prop :=
  match p.pc with
  | .check | .spawning | .spawnFailed _ | .spawnSettle _ | .publishPid _ =>
    pending = true ∧ p.lines = [] ∧ p.frames = [] ∧ p.inflight = none
  | .loopHead | .loopState | .idle | .dequeued _ =>
    (pending = true ∧ p.lines = [] ∧ p.frames = [] ∧ p.inflight = none) ∨
      (pending = false ∧ Announced p.lines)
  | .readyState _ | .readyInfo _ | .readySettle _ =>
    pending = true ∧ Announced p.lines ∧ p.frames = [] ∧ p.inflight = none
  | .writing .. | .wait | .pollState | .answer _ _ none => pending = false ∧ Announced p.lines
  | _ => (p.frames = [] ∧ p.lines.length ≤ 1) ∨ Announced p.lines

/-- What `Staged` comes to on the way out. -/
theorem Staged.weaken {pending : Bool} (hp : p.Staged pending) :
    (p.frames = [] ∧ p.lines.length ≤ 1) ∨ Announced p.lines := by
  unfold Staged at hp
  split at hp
  all_goals first
    | exact hp
    | exact Or.inr hp.2
    | exact Or.inr hp.2.1
    | (rcases hp with ⟨-, hl, hf, -⟩ | ⟨-, ha⟩
       exacts [Or.inl ⟨hf, by simp [hl]⟩, Or.inr ha])
    | (obtain ⟨-, hl, hf, -⟩ := hp; exact Or.inl ⟨hf, by simp [hl]⟩)

/-- A session that is left asks of the lines only how they begin. -/
theorem Staged.leaving {pending : Bool} (hpc : p.pc.leaving = true)
    (h : (p.frames = [] ∧ p.lines.length ≤ 1) ∨ Announced p.lines) : p.Staged pending := by
  unfold Staged
  split <;> simp_all [Pc.leaving]

/-- A line that ended the session is no ready frame. -/
theorem LineRead.plain_ended (text : String) : LineRead.Plain ⟨text, .ended⟩ := by
  simp [LineRead.Plain]

/-- A frame read between requests is the ready frame, or ends the session. -/
theorem Staged.onIdleFrame (hpc : p.pc = .idle) (hp : p.Staged sh.ready.isPending)
    (frame : Except String Frame) : (p.onIdleFrame cx sh frame).Staged sh.ready.isPending := by
  have hw := hp.weaken
  simp only [Staged, hpc] at hp
  -- a line that ends the session
  have hended : ∀ text reason,
      ((p.saw text .ended).ret (.restart reason)).Staged sh.ready.isPending := by
    intro text reason
    refine Staged.leaving rfl ?_
    rcases hp with ⟨-, hl, hf, -⟩ | ⟨-, ha⟩
    · exact Or.inl ⟨hf, by simp [hl]⟩
    · exact Or.inr (ha.append (LineRead.plain_ended text))
  unfold Sup.onIdleFrame
  repeat' split
  all_goals first
    | exact hended _ _
    | exact Staged.leaving (leaving_settleRestart _ _) (by simpa using hw)
    | exact Staged.leaving rfl (by simpa using hw)
    | skip
  rcases hp with ⟨hpend, hl, hf, hi⟩ | ⟨hpend, -⟩
  · exact ⟨hpend, by simpa [hl] using Announced.first _ _, hf, hi⟩
  · simp_all

/-- A reply comes after the ready frame. -/
theorem Staged.onReply (hp : Announced p.lines) (hr : sh.ready.isPending = false)
    (text expected : String) (value : Json) (key : Nat) :
    (p.onReply cx text value expected key).Staged sh.ready.isPending := by
  have hlines : ∀ fate, (∀ info, fate ≠ .ready info) → Announced (p.lines ++ [⟨text, fate⟩]) :=
    fun fate hf => hp.append (l := ⟨text, fate⟩) hf
  unfold Sup.onReply
  dsimp only
  repeat' split
  all_goals simp [Staged, hr, hlines]

/-- A frame read for the request in flight comes after the ready frame. -/
theorem Staged.onWaitFrame (hpc : p.pc = .wait) (hp : p.Staged sh.ready.isPending)
    (frame : Except String Frame) : (p.onWaitFrame cx sh frame).Staged sh.ready.isPending := by
  simp only [Staged, hpc] at hp
  obtain ⟨hr, ha⟩ := hp
  have hended : ∀ text, Announced (p.saw text .ended).lines :=
    fun text => ha.append (LineRead.plain_ended text)
  unfold Sup.onWaitFrame
  repeat' split
  all_goals first
    | exact Staged.leaving (leaving_failInflight _ _) (Or.inr (by simpa using ha))
    | exact Staged.leaving (leaving_failInflight _ _) (Or.inr (by simpa using hended _))
    | exact Staged.leaving rfl (Or.inr (hended _))
    | exact Staged.onReply ha hr _ _ _ _
    | simp_all

/-- **Every step of the supervisor keeps the stage of the handshake**, when a job taken while
    the handshake is pending is found only during a shutdown. -/
theorem Staged.step (hp : p.Staged sh.ready.isPending)
    (hdeq : ∀ job, p.pc = .dequeued job → sh.ready.isPending = true → sh.state = .shuttingDown)
    (h : p.step cx sh ev = some (p', eff)) : p'.Staged (sh.apply eff).ready.isPending := by
  have hw := hp.weaken
  revert h
  fun_cases Sup.step cx sh p ev
  all_goals intro h
  all_goals simp only [Option.some.injEq, Prod.mk.injEq, reduceCtorEq] at h
  all_goals obtain ⟨rfl, rfl⟩ := h
  all_goals try (simp_all [Staged, Shared.apply]; done)
  -- the way out
  all_goals try
    apply Staged.leaving
    · first | rfl | simp
    · simpa using hw
  -- a read
  all_goals
    rename p.read cx _ = some _ => hr
    obtain ⟨buf, avail, rfl⟩ := read_eq hr
    first
      | exact Staged.onIdleFrame (p := { p with buf, avail }) ‹_› hp _
      | exact Staged.onWaitFrame (p := { p with buf, avail }) ‹_› hp _
      | simp_all [Staged, Shared.apply]

/-! ### Nothing is admitted before the handshake -/

/-- The points before the ready frame is accepted, at which the session still goes on. -/
@[simp]
def early : Pc → Bool
  | .check | .spawning | .spawnFailed _ | .publishPid _ | .loopHead | .loopState | .idle
  | .readyState _ | .dequeued _ => true
  | _ => false

/-- A session that is left is past its handshake. -/
theorem not_early_of_leaving {pc : Pc} (h : pc.leaving = true) : early pc = false := by
  cases pc <;> simp_all [Pc.leaving]

/-- As long as the handshake is pending the supervisor takes from the queue what was in it,
    and leaves the state as it is. -/
theorem step_early (hp : p.Staged sh.ready.isPending) (h : p.step cx sh ev = some (p', eff))
    (he : early p'.pc = true) (hr : (sh.apply eff).ready.isPending = true) :
    early p.pc = true ∧ sh.ready.isPending = true ∧ (sh.apply eff).state = sh.state ∧
      (((sh.apply eff).jobs.buffer ≠ [] ∨ ∃ job, p'.pc = .dequeued job) →
        sh.jobs.buffer ≠ [] ∨ ∃ job, p.pc = .dequeued job) := by
  revert h
  fun_cases Sup.step cx sh p ev
  all_goals intro h
  all_goals simp only [Option.some.injEq, Prod.mk.injEq, reduceCtorEq] at h
  all_goals obtain ⟨rfl, rfl⟩ := h
  all_goals try (simp_all [Shared.apply]; done)
  all_goals try (simp_all [Shared.apply, Staged]; done)
  all_goals try
    rw [not_early_of_leaving (by simp)] at he
    cases he
  -- a read
  all_goals
    rename p.read cx _ = some _ => hread
    obtain ⟨buf, avail, rfl⟩ := read_eq hread
  · simp_all [Shared.apply]
  · rename Except String Frame => frame
    rcases @onIdleFrame_pc cx sh { p with buf, avail } frame with hl | ⟨i, hi⟩
    · rw [not_early_of_leaving hl] at he
      cases he
    · simp_all [Shared.apply]

end Sup

namespace Sys

variable {cx : Ctx} {s s' : Sys}

/-- A job is in the queue or was just taken off it, or a shutdown is about to send one. -/
def Woken (s : Sys) : Prop :=
  s.sh.jobs.buffer ≠ [] ∨ (∃ job, s.sup.pc = .dequeued job) ∨ ∃ k, (s.calls k).waking = true

/-- Nothing was admitted: the state is not ready, no prediction is past its check, and the
    only jobs are those of a shutdown. -/
structure Hushed (s : Sys) : Prop where
  state : s.sh.state ≠ .ready
  sending : ∀ k, (s.calls k).sending = false
  woken : s.Woken → s.sh.state = .shuttingDown

/-- The state of the handshake. -/
structure Handshake (s : Sys) : Prop where
  coherent : s.sup.Coherent
  staged : s.sup.Staged s.sh.ready.isPending
  hushed : s.sh.ready.isPending = true → Sup.early s.sup.pc = true → s.Hushed

/-- The handshake of a new handle is pending. -/
theorem Handshake.init (cx : Ctx) : (Sys.init cx).Handshake where
  coherent := Sup.Coherent.init
  staged := ⟨rfl, rfl, rfl, rfl⟩
  hushed _ _ := {
    state := by simp [Sys.init]
    sending := fun k => by
      simp only [Sys.init]
      split <;> rfl
    woken := by
      rintro (h | ⟨job, h⟩ | ⟨k, h⟩)
      · exact absurd rfl h
      · simp [Sys.init, Sup.init] at h
      · simp only [Sys.init] at h
        split at h <;> simp at h }

/-- A job taken while the handshake is pending is found only during a shutdown. -/
theorem Handshake.dequeued (h : s.Handshake) (job : Job) (hpc : s.sup.pc = .dequeued job)
    (hr : s.sh.ready.isPending = true) : s.sh.state = .shuttingDown :=
  (h.hushed hr (by rw [hpc]; rfl)).woken (Or.inr (Or.inl ⟨job, hpc⟩))

/-- The operations of a call leave the handshake pending or settled as it was. -/
theorem pending_of_call {c c' : Call} {key : Nat} {eff : Eff} (h : Call.Does s.sh key c c' eff) :
    (s.sh.apply eff).ready.isPending = s.sh.ready.isPending := by
  cases eff <;> simp_all [Call.Does, Shared.apply]

/-- The supervisor settles the handshake as the lines say. -/
theorem Handshake.sup (h : s.Handshake) {ev : SupEv} {p : Sup} {eff : Eff}
    (hp : s.sup.step cx s.sh ev = some (p, eff)) :
    Handshake { s with sup := p, sh := s.sh.apply eff } where
  coherent := h.coherent.step hp
  staged := h.staged.step h.dequeued hp
  hushed hr he := by
    obtain ⟨he₀, hr₀, hstate, hjobs⟩ := Sup.step_early h.staged hp he hr
    have hh := h.hushed hr₀ he₀
    refine ⟨by simpa [hstate] using hh.state, hh.sending, ?_⟩
    rintro (hw | hw | hw)
    · exact hstate ▸ hh.woken ((hjobs (Or.inl hw)).imp_right Or.inl)
    · exact hstate ▸ hh.woken ((hjobs (Or.inr hw)).imp_right Or.inl)
    · exact hstate ▸ hh.woken (Or.inr (Or.inr hw))

/-- A call leaves the handshake alone, or drops its receiver. -/
theorem Handshake.call (h : s.Handshake) {key : Nat} {ev : CallEv} {c : Call} {eff : Eff}
    (hc : (s.calls key).step cx s.sh key ev = some (c, eff)) :
    Handshake { s with calls := Function.update s.calls key c, sh := s.sh.apply eff } where
  coherent := h.coherent
  staged := by
    rw [pending_of_call (Call.step_moved hc).does]
    exact h.staged
  hushed hr he := by
    have hm := Call.step_moved hc
    rw [pending_of_call hm.does] at hr
    have hh := h.hushed hr he
    have hsending : ∀ k, (Function.update s.calls key c k).sending = false := by
      intro k
      by_cases hk : k = key
      · subst hk
        rw [Function.update_self]
        by_contra hs
        exact hh.state (hm.sending (by simpa using hs)).1
      · rw [Function.update_of_ne hk]
        exact hh.sending k
    -- a call that is about to send its wake-up job has just set the state
    have hwaking : ∀ k, eff ≠ .setState .shuttingDown →
        (Function.update s.calls key c k).waking = true → (s.calls k).waking = true := by
      intro k hne hk
      by_cases he : k = key
      · subst he
        rw [Function.update_self] at hk
        exact absurd (hm.waking hk) hne
      · rwa [Function.update_of_ne he] at hk
    have hd := hm.does
    rcases hd.keeps with ⟨state, rfl⟩ | ⟨job, rfl⟩ | ⟨hstate, hjobs⟩
    · rcases hd with rfl | ⟨hne, reason, -, rfl, -⟩
      · exact ⟨by simp [Shared.apply], hsending, fun _ => rfl⟩
      · refine ⟨by simp [Shared.apply], hsending, ?_⟩
        rintro (hw | hw | ⟨k, hk⟩)
        · exact absurd (hh.woken (Or.inl hw)) hne
        · exact absurd (hh.woken (Or.inr (Or.inl hw))) hne
        · exact absurd (hh.woken (Or.inr (Or.inr ⟨k, hwaking k (by simp) hk⟩))) hne
    · obtain ⟨-, -, -, -, ⟨hs, -⟩ | ⟨hw, -⟩⟩ := hd
      · have := hh.sending key
        simp [hs] at this
      · exact ⟨hh.state, hsending, fun _ => hh.woken (Or.inr (Or.inr ⟨key, hw⟩))⟩
    · refine ⟨by simpa [hstate] using hh.state, hsending, ?_⟩
      by_cases hne : eff = .setState .shuttingDown
      · exact fun _ => by rw [hne]; rfl
      · rintro (hw | hw | ⟨k, hk⟩)
        · exact hstate ▸ hh.woken (Or.inl (by simpa [hjobs] using hw))
        · exact hstate ▸ hh.woken (Or.inr (Or.inl hw))
        · exact hstate ▸ hh.woken (Or.inr (Or.inr ⟨k, hwaking k hne hk⟩))

/-- **The handshake invariant** holds in every reachable state. -/
theorem Handshake.reachable (h : (handle cx).Reachable s) : s.Handshake := by
  refine Machine.invariant_of_step (Handshake.init cx) ?_ h
  intro s l s' hs hstep
  rcases step_cases hstep with
    ⟨ev, p, eff, -, hp, rfl⟩ | ⟨key, ev, c, eff, -, hc, rfl⟩ | ⟨d, -, rfl⟩ | ⟨status, -, rfl⟩
  · exact hs.sup hp
  · exact hs.call hc
  · exact ⟨hs.coherent, hs.staged, fun hr he => ⟨(hs.hushed hr he).state,
      (hs.hushed hr he).sending, (hs.hushed hr he).woken⟩⟩
  · exact ⟨hs.coherent, hs.staged, fun hr he => ⟨(hs.hushed hr he).state,
      (hs.hushed hr he).sending, (hs.hushed hr he).woken⟩⟩

end Sys

end Layad
