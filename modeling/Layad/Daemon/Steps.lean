import Layad.Daemon.Machine
import Layad.Joint.Link

namespace Layad

open Channel Transition

/-!
# What one step of the daemon can do

A step of the process comes to at most one step of the handle and its worker
(`Daemon.step_joint`), so a run of the process is one of theirs (`Daemon.reachable_joint`).  The
calls against the handle are those of `main`, of the watcher and of the handlers, each kind
under its own keys (`Daemon.calls_owned`).
-/

/-- Who makes a call. -/
inductive CallKind where
  | idle
  | readiness
  | predict
  | shutdown
  | killNow
  | markFailed
  deriving DecidableEq

/-- What is begun. -/
def Request.kind : Request → CallKind
  | .predict _ => .predict
  | .shutdown _ => .shutdown
  | .killNow => .killNow
  | .markFailed _ => .markFailed

namespace Call

/-- Which of the handle's functions a call is inside. -/
def kind : Call → CallKind
  | .idle => .idle
  | .readiness _ => .readiness
  | .predict .. => .predict
  | .shutdown .. => .shutdown
  | .killNow _ => .killNow
  | .markFailed .. => .markFailed

variable {cx : Ctx} {sh : Shared} {key : Nat} {c c' : Call} {ev : CallEv} {eff : Eff}

/-- Only a call that was not made is of no kind. -/
theorem kind_eq_idle : c.kind = .idle ↔ c = .idle := by
  cases c <;> simp [kind]

/-- A call stays what it is. -/
theorem kind_step (h : c.step cx sh key ev = some (c', eff)) : c = .idle ∨ c'.kind = c.kind := by
  cases stepped h with
  | started => exact .inl rfl
  | readiness | predict | shutdown | killNow | markFailed => exact .inr rfl

/-- An idle call becomes what is begun. -/
theorem idle_step (h : Call.idle.step cx sh key ev = some (c', eff)) :
    ∃ request, ev = .begin request ∧ start sh request = (c', eff) := by
  cases stepped h with
  | started request hs =>
    cases ev with
    | «begin» request' => exact ⟨request', rfl, Option.some.inj h⟩
    | _ => cases h

end Call

/-- What is forwarded is forwarded because a worker is there. -/
theorem predictImpl_attached {cfg : Config} {host : Host} {attached : Bool}
    {body : Except Nat (List UInt8)} {r : List (String × String) × Json}
    (h : predictImpl cfg host attached body = .ok r) : attached = true := by
  unfold predictImpl at h
  repeat' split at h
  all_goals cases h
  assumption

namespace Daemon

variable {σ : Type} {w : World σ} {d d' t : Daemon σ} {a : Action}

/-- One step of the process, by who takes it. -/
inductive Stepped (w : World σ) (d : Daemon σ) : Action → Daemon σ → Prop where
  | joint {m : Move} {d' : Daemon σ} (hbound : d.main ≠ .binding) (hm : inner m = true)
      (h : d.lower w m = some d') : Stepped w d (.joint m) d'
  | main {ev : MainEv} {d' : Daemon σ} (h : d.mainStep w ev = some d') :
      Stepped w d (.main ev) d'
  | watch {ev : WatchEv} {d' : Daemon σ} (h : d.watchStep w ev = some d') :
      Stepped w d (.watch ev) d'
  | fuse {due : Nat} (h : d.fuse = some due) (hdue : due ≤ d.sys.sh.now) :
      Stepped w d .fuse { d with exit := some failFastExitCode }
  | request {key : Nat} {request : HttpRequest} {d' : Daemon σ} (hbound : d.main ≠ .binding)
      (hkey : killKey < key) (hnew : d.http key = none)
      (h : d.arrive w key request = some d') :
      Stepped w d (.request key request) d'
  | respond {key : Nat} {e : Exchange} {pc : HttpPc} (he : d.http key = some e)
      (h : d.handlerStep w key e = some pc) :
      Stepped w d (.respond key) (d.exchange key e.request pc)

/-- A process that takes a step has not exited, and somebody takes it. -/
theorem stepped (h : d.step w a = some d') : d.exit = none ∧ Stepped w d a d' := by
  unfold step at h
  split at h
  · cases h
  rename_i hexit
  refine ⟨by simpa using hexit, ?_⟩
  split at h
  · split at h
    · rename_i hinner
      exact .joint hinner.1 hinner.2 h
    · cases h
  · exact .main h
  · exact .watch h
  · split at h
    · rename_i hdue
      cases h
      obtain ⟨due, hfuse, hdue⟩ := Option.any_eq_true _ _ |>.mp hdue
      exact .fuse hfuse (of_decide_eq_true hdue)
    · cases h
  · split at h
    · rename_i hnew
      exact .request hnew.1 hnew.2.1 (Option.isNone_iff_eq_none.mp hnew.2.2) h
    · cases h
  · split at h
    · obtain ⟨pc, hpc, rfl⟩ := Option.map_eq_some_iff.mp h
      exact .respond ‹_› hpc
    · cases h

/-- A step below changes nothing else. -/
theorem lower_eq {m : Move} (h : d.lower w m = some d') : d' = { d with joint := d'.joint } := by
  obtain ⟨joint, -, rfl⟩ := Option.map_eq_some_iff.mp h
  rfl

/-- A request that arrives changes its exchange, and begins its call. -/
theorem arrive_eq {key : Nat} {request : HttpRequest} (h : d.arrive w key request = some d') :
    ∃ pc, d' = { d with
      joint := d'.joint, http := Function.update d.http key (some ⟨request, pc⟩) } := by
  revert h
  fun_cases Daemon.arrive w d key request
  all_goals intro h
  all_goals first
    | (cases h; exact ⟨_, rfl⟩)
    | skip
  obtain ⟨t, hl, rfl⟩ := Option.map_eq_some_iff.mp h
  obtain ⟨bytes, -, hl⟩ := Option.bind_eq_some_iff.mp hl
  obtain ⟨joint, -, rfl⟩ := Option.map_eq_some_iff.mp hl
  exact ⟨_, rfl⟩

/-- `main` leaves the exchanges and a scheduled exit alone. -/
theorem mainStep_kept {ev : MainEv} (h : d.mainStep w ev = some d') :
    d'.http = d.http ∧ d'.fuse = d.fuse := by
  revert h
  fun_cases Daemon.mainStep w d ev
  all_goals intro h
  all_goals first
    | (cases h; done)
    | (cases h; exact ⟨rfl, rfl⟩)
    | skip
  all_goals
    obtain ⟨t, hl, rfl⟩ := Option.map_eq_some_iff.mp h
    first
      | exact ⟨rfl, rfl⟩
      | (rw [lower_eq hl]; exact ⟨rfl, rfl⟩)

/-- The watcher, once there, only schedules an exit, and leaves `main` and the exchanges alone. -/
theorem watchStep_kept {ev : WatchEv} (h : d.watchStep w ev = some d') :
    (d'.exit = d.exit ∧ d'.main = d.main ∧ d'.http = d.http ∧ d'.app.attached = d.app.attached) ∧
      d.watch ≠ .unborn := by
  revert h
  fun_cases Daemon.watchStep w d ev
  all_goals intro h
  all_goals first
    | (cases h; done)
    | (cases h; exact ⟨⟨rfl, rfl, rfl, rfl⟩, by simp_all⟩)
    | skip
  all_goals
    obtain ⟨t, hl, rfl⟩ := Option.map_eq_some_iff.mp h
    obtain ⟨joint, -, rfl⟩ := Option.map_eq_some_iff.mp hl
    exact ⟨⟨rfl, rfl, rfl, rfl⟩, by simp_all⟩

/-- A step of the process, as `main` and the watcher see it: one of theirs, or one that leaves
    them alone. -/
inductive Tasked (w : World σ) (d : Daemon σ) : Action → Daemon σ → Prop where
  | main {ev : MainEv} {d' : Daemon σ} (h : d.mainStep w ev = some d') : Tasked w d (.main ev) d'
  | watch {ev : WatchEv} {d' : Daemon σ} (h : d.watchStep w ev = some d') :
      Tasked w d (.watch ev) d'
  | other {a : Action} {d' : Daemon σ} (hmain : ∀ ev, a ≠ .main ev) (hwatch : ∀ ev, a ≠ .watch ev)
      (he : d' = { d with joint := d'.joint, http := d'.http, exit := d'.exit }) : Tasked w d a d'

/-- Every step of the process is one of `main`, one of the watcher, or leaves both alone. -/
theorem tasked (h : d.step w a = some d') : Tasked w d a d' := by
  cases (stepped h).2 with
  | joint _ _ h => exact .other (by simp) (by simp) (by rw [lower_eq h])
  | main h => exact .main h
  | watch h => exact .watch h
  | fuse | respond => exact .other (by simp) (by simp) rfl
  | request _ _ _ h =>
    obtain ⟨pc, he⟩ := arrive_eq h
    exact .other (by simp) (by simp) (by rw [he])

/-- One exchange is begun or goes on, or all are left alone. -/
theorem http_step (h : d.step w a = some d') :
    d'.http = d.http ∨
      (∃ key request, a = .request key request ∧ killKey < key ∧ d.http key = none ∧
        d.arrive w key request = some d') ∨
      ∃ key e pc, a = .respond key ∧ d.http key = some e ∧ d.handlerStep w key e = some pc ∧
        d' = d.exchange key e.request pc := by
  cases (stepped h).2 with
  | joint _ _ h => exact .inl (by rw [lower_eq h])
  | main h => exact .inl (mainStep_kept h).1
  | watch h => exact .inl (watchStep_kept h).1.2.2.1
  | fuse => exact .inl rfl
  | request _ hkey hnew h => exact .inr (.inl ⟨_, _, rfl, hkey, hnew, h⟩)
  | respond he hpc => exact .inr (.inr ⟨_, _, _, rfl, he, hpc, rfl⟩)

/-- An exchange that is not there was not there, and has not begun now. -/
theorem http_kept (h : d.step w a = some d') {key : Nat} (hnone : d'.http key = none) :
    d.http key = none ∧ ∀ request, a ≠ .request key request := by
  cases (stepped h).2 with
  | joint _ _ hl =>
    rw [lower_eq hl] at hnone
    exact ⟨hnone, nofun⟩
  | main hmain => exact ⟨(mainStep_kept hmain).1 ▸ hnone, nofun⟩
  | watch hwatch => exact ⟨(watchStep_kept hwatch).1.2.2.1 ▸ hnone, nofun⟩
  | fuse => exact ⟨hnone, nofun⟩
  | @request key' request _ _ _ _ harrive =>
    obtain ⟨pc, he⟩ := arrive_eq harrive
    rw [he] at hnone
    dsimp only at hnone
    by_cases hkey : key = key'
    · subst hkey
      rw [Function.update_self] at hnone
      cases hnone
    · rw [Function.update_of_ne hkey] at hnone
      exact ⟨hnone, fun r hr => hkey (Action.request.inj hr).1.symm⟩
  | @respond key' e pc he hpc =>
    dsimp only [exchange] at hnone
    by_cases hkey : key = key'
    · subst hkey
      rw [Function.update_self] at hnone
      cases hnone
    · rw [Function.update_of_ne hkey] at hnone
      exact ⟨hnone, nofun⟩

/-- An exchange goes by a key of its own. -/
theorem keyed (h : (daemon w).Reachable d) {key : Nat} : d.http key ≠ none → killKey < key := by
  refine Machine.invariant_of_step
    (P := fun d : Daemon σ => d.http key ≠ none → killKey < key) ?_ ?_ h
  · exact fun hno => absurd rfl hno
  · intro d a d' hs hstep he
    rcases http_step hstep with
      hhttp | ⟨key', request, -, hkey', -, harrive⟩ | ⟨key', e, pc, -, he', -, rfl⟩
    · exact hs (hhttp ▸ he)
    · by_cases hkey : key = key'
      · exact hkey ▸ hkey'
      · obtain ⟨pc, heq⟩ := arrive_eq harrive
        rw [heq] at he
        exact hs (by simpa [Function.update_of_ne hkey] using he)
    · by_cases hkey : key = key'
      · subst hkey
        exact hs (by simp [he'])
      · exact hs (by simpa [exchange, Function.update_of_ne hkey] using he)

/-! ### The step below -/

/-- The step of the handle that an action of the process takes. -/
inductive Below (w : World σ) (d : Daemon σ) : Action → Label → Prop where
  | own {l : Label} (h : own l = true) : Below w d (.joint (.daemon l)) l
  | cancelStart (h : d.main = .starting) : Below w d (.main .signal) (.call 0 .cancel)
  | shutdown (h : d.main = .interrupted ∨ ∃ served, d.main = .stopping served) :
      Below w d (.main .go)
        (.call shutdownKey (.begin (.shutdown w.cx.config.shutdownTimeout)))
  | killNow (h : d.watch = .killing) :
      Below w d (.watch .go) (.call killKey (.begin .killNow))
  | cancelKill (h : d.watch = .awaitKill) : Below w d (.watch .abort) (.call killKey .cancel)
  | predict {key : Nat} {request : HttpRequest} {params : Json} (h : killKey < key)
      (hattached : d.app.attached = true) :
      Below w d (.request key request) (.call key (.begin (.predict params)))

/-- The action takes a step of the handle and its worker. -/
def Steps (w : World σ) (d : Daemon σ) (a : Action) (d' : Daemon σ) : Prop :=
  ∃ m, d.joint.step w m = some d'.joint ∧
    (d'.sys = d.sys ∨ ∃ l, d.sys.step w.cx l = some d'.sys ∧ Below w d a l)

/-- A step below that the handle takes. -/
theorem lower_sys {l : Label} (h : d.lower w (.daemon l) = some t) :
    d.sys.step w.cx l = some t.sys := by
  obtain ⟨joint, hstep, rfl⟩ := Option.map_eq_some_iff.mp h
  rw [Joint.step] at hstep
  split at hstep
  · obtain ⟨s, hs, rfl⟩ := Option.map_eq_some_iff.mp hstep
    exact hs
  · cases hstep

/-- A step of the handle below is a step of the handle and its worker. -/
theorem steps_daemon {l : Label} (h : d.lower w (.daemon l) = some t) (hb : Below w d a l)
    (hj : d'.joint = t.joint) : Steps w d a d' := by
  have hsys := lower_sys h
  obtain ⟨joint, hstep, rfl⟩ := Option.map_eq_some_iff.mp h
  rw [Steps, sys, hj]
  exact ⟨.daemon l, hstep, .inr ⟨l, hsys, hb⟩⟩

/-- A prediction that a handler begins is a step of the handle and its worker. -/
theorem steps_predict {key : Nat} {request : HttpRequest} {body : List UInt8}
    (h : d.lower w (.predict key body) = some t) (hkey : killKey < key)
    (hattached : d.app.attached = true) (hj : d'.joint = t.joint) :
    Steps w d (.request key request) d' := by
  obtain ⟨joint, hstep, rfl⟩ := Option.map_eq_some_iff.mp h
  rw [Steps, sys, hj]
  refine ⟨.predict key body, hstep, .inr ?_⟩
  rw [Joint.step] at hstep
  split at hstep
  · cases hstep
  · obtain ⟨s, hs, rfl⟩ := Option.map_eq_some_iff.mp hstep
    exact ⟨_, hs, .predict hkey hattached⟩

/-- A step of the worker leaves the handle alone. -/
theorem lower_worker {ev : WorkerEv} (h : d.lower w (.worker ev) = some t) : t.sys = d.sys := by
  obtain ⟨joint, hstep, rfl⟩ := Option.map_eq_some_iff.mp h
  rw [Joint.step] at hstep
  split at hstep
  · obtain ⟨proc, -, rfl⟩ := Option.map_eq_some_iff.mp hstep
    rfl
  · cases hstep

/-- A step of the worker below is a step of the handle and its worker. -/
theorem steps_worker {ev : WorkerEv} (h : d.lower w (.worker ev) = some d') : Steps w d a d' := by
  have hsys := lower_worker h
  obtain ⟨joint, hstep, rfl⟩ := Option.map_eq_some_iff.mp h
  exact ⟨.worker ev, hstep, .inl hsys⟩

/-- A step below that needs nobody else is a step of the handle and its worker. -/
theorem inner_joint {m : Move} (hm : inner m = true) (h : d.lower w m = some d') :
    Steps w d (.joint m) d' := by
  cases m with
  | daemon l => exact steps_daemon h (.own hm) rfl
  | predict => cases hm
  | worker ev => exact steps_worker h

/-- `main` leaves the handle and its worker alone, or takes a step of theirs. -/
theorem mainStep_joint {ev : MainEv} (h : d.mainStep w ev = some d') :
    d'.joint = d.joint ∨ Steps w d (.main ev) d' := by
  revert h
  fun_cases Daemon.mainStep w d ev
  all_goals intro h
  all_goals first
    | (cases h; done)
    | (cases h; exact .inl rfl)
    | skip
  case case3 =>
    obtain ⟨main, -, rfl⟩ := Option.map_eq_some_iff.mp h
    exact .inl rfl
  all_goals obtain ⟨t, hl, rfl⟩ := Option.map_eq_some_iff.mp h
  · exact .inr (steps_daemon hl (.cancelStart ‹_›) rfl)
  · exact .inr (steps_daemon hl (.shutdown (.inl ‹_›)) rfl)
  · exact .inr (steps_daemon hl (.shutdown (.inr ⟨_, ‹_›⟩)) rfl)

/-- The watcher leaves the handle and its worker alone, or takes a step of theirs. -/
theorem watchStep_joint {ev : WatchEv} (h : d.watchStep w ev = some d') :
    d'.joint = d.joint ∨ Steps w d (.watch ev) d' := by
  revert h
  fun_cases Daemon.watchStep w d ev
  all_goals intro h
  all_goals first
    | (cases h; done)
    | (cases h; exact .inl rfl)
    | skip
  all_goals obtain ⟨t, hl, rfl⟩ := Option.map_eq_some_iff.mp h
  · exact .inr (steps_daemon hl (.killNow ‹_›) rfl)
  · exact .inr (steps_daemon hl (.cancelKill ‹_›) rfl)

/-- A request leaves the handle and its worker alone, or takes a step of theirs. -/
theorem arrive_joint {key : Nat} {request : HttpRequest} (hkey : killKey < key)
    (h : d.arrive w key request = some d') :
    d'.joint = d.joint ∨ Steps w d (.request key request) d' := by
  revert h
  fun_cases Daemon.arrive w d key request
  all_goals intro h
  all_goals first
    | (cases h; exact .inl rfl)
    | skip
  obtain ⟨t, hl, rfl⟩ := Option.map_eq_some_iff.mp h
  obtain ⟨bytes, -, hl⟩ := Option.bind_eq_some_iff.mp hl
  exact .inr (steps_predict hl hkey (predictImpl_attached ‹_›) rfl)

/-- **A step of the process** comes to at most one of the handle and its worker. -/
theorem step_joint (h : d.step w a = some d') : d'.joint = d.joint ∨ Steps w d a d' := by
  cases (stepped h).2 with
  | joint _ hm h => exact .inr (inner_joint hm h)
  | main h => exact mainStep_joint h
  | watch h => exact watchStep_joint h
  | fuse => exact .inl rfl
  | request _ hkey _ h => exact arrive_joint hkey h
  | respond => exact .inl rfl

/-- A step of the process leaves the handle as it is, or is a step of it. -/
theorem step_sys (h : d.step w a = some d') :
    d'.sys = d.sys ∨ ∃ l, d.sys.step w.cx l = some d'.sys ∧ Below w d a l := by
  rcases step_joint h with he | ⟨m, -, hsys⟩
  · rw [sys, he]
    exact .inl rfl
  · exact hsys

/-- A run of the process is a run of the handle and its worker. -/
theorem runs_joint (h : (daemon w).Runs d t) : (Layad.joint w).Runs d.joint t.joint := by
  refine Machine.Runs.map (f := Daemon.joint) (fun d a d' hstep => ?_) h
  rcases step_joint hstep with he | ⟨m, hm, -⟩
  · rw [he]
    exact Machine.Runs.refl _
  · exact (Machine.Runs.refl _).step (M := Layad.joint w) hm

/-- The handle and its worker reach nothing in a process that they do not reach alone. -/
theorem reachable_joint (h : (daemon w).Reachable d) : (Layad.joint w).Reachable d.joint :=
  runs_joint h

/-- The handle reaches nothing in a process that it does not reach alone. -/
theorem reachable_sys (h : (daemon w).Reachable d) : (handle w.cx).Reachable d.sys :=
  Joint.reachable_sys (reachable_joint h)

/-! ### Who makes which call -/

/-- The kind of call that goes by a key. -/
def kindOf (key : Nat) : CallKind :=
  if key = 0 then .readiness
  else if key = shutdownKey then .shutdown
  else if key = killKey then .killNow
  else .predict

/-- The keys of requests are those of predictions. -/
theorem kindOf_of_lt {key : Nat} (h : killKey < key) : kindOf key = .predict := by
  rw [kindOf, if_neg, if_neg, if_neg]
  all_goals
    simp only [shutdownKey, killKey] at h ⊢
    omega

/-- Every call is not made yet, or is that of its maker. -/
def CallsOwned (s : Sys) : Prop :=
  ∀ key, (s.calls key).kind = .idle ∨ (s.calls key).kind = kindOf key

/-- A step of the handle that begins no call leaves the calls with their makers. -/
theorem CallsOwned.step {s s' : Sys} {l : Label} (hs : CallsOwned s)
    (h : s.step w.cx l = some s')
    (hbegin : ∀ key request, l = .call key (.begin request) →
      ∀ c eff, Call.start s.sh request = (c, eff) → c.kind = kindOf key) : CallsOwned s' := by
  rcases Sys.step_cases h with
    ⟨ev, p, eff, -, hp, rfl⟩ | ⟨key, ev, c, eff, rfl, hc, rfl⟩ | ⟨n, -, rfl⟩ | ⟨status, -, rfl⟩
  · exact hs
  · intro k
    by_cases he : k = key
    · subst he
      show (Function.update s.calls k c k).kind = .idle ∨
        (Function.update s.calls k c k).kind = kindOf k
      rw [Function.update_self]
      rcases Call.kind_step hc with hidle | hkind
      · rw [hidle] at hc
        obtain ⟨request, rfl, hstart⟩ := Call.idle_step hc
        exact .inr (hbegin k request rfl c eff hstart)
      · rw [hkind]
        exact hs k
    · show (Function.update s.calls key c k).kind = .idle ∨
        (Function.update s.calls key c k).kind = kindOf k
      rw [Function.update_of_ne he]
      exact hs k
  · exact hs
  · exact hs

/-- What is begun under a key is a call of its maker. -/
theorem kind_start (sh : Shared) (request : Request) :
    (Call.start sh request).1.kind = request.kind := by
  cases request with
  | predict params =>
    by_cases hroom : 0 < sh.admission <;> simp [Call.start, Request.kind, hroom, Call.kind]
  | shutdown | killNow | markFailed => rfl

/-- In every reachable state each call is not made yet, or is that of its maker. -/
theorem calls_owned (h : (daemon w).Reachable d) : CallsOwned d.sys := by
  refine Machine.Reachable.induct (P := fun d : Daemon σ => CallsOwned d.sys) ?_ ?_ h
  · intro key
    show (Call.kind (if key = 0 then .readiness .created else .idle)) = .idle ∨ _
    by_cases hkey : key = 0
    · subst hkey
      exact .inr rfl
    · rw [if_neg hkey]
      exact .inl rfl
  · intro d a d' hr hs hstep
    rcases step_sys hstep with he | ⟨l, hl, hbelow⟩
    · rwa [he]
    · refine hs.step hl fun key request he c eff hstart => ?_
      obtain rfl : (Call.start d.sys.sh request).1 = c := by rw [hstart]
      rw [kind_start]
      cases hbelow with
      | own hown =>
        rw [he] at hown
        cases hown
      | cancelStart | cancelKill => cases he
      | shutdown | killNow =>
        cases he
        rfl
      | predict hkey =>
        cases he
        rw [kindOf_of_lt hkey]
        rfl

end Daemon

end Layad
