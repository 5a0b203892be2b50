import Layad.Daemon.Exit
import Layad.Daemon.Steps
import Layad.Library.Fairness
import Mathlib.Data.Prod.Lex

namespace Layad

open Channel Transition

/-!
# The process comes to its end

Once `main` has stopped serving, was interrupted or found its worker failed, the process exits:
no call that hangs and no worker that does not die holds it up, since the shutdown of `main`
gives up after its timeouts (`exits_once_closing`).

It comes about in the behaviours that are fair to three: `main`, the call of its shutdown, and
the clock.  What these have left to do falls with each of their steps, in steps first and then
in the time that a timeout still takes; and what others do does not add to it.
-/

/-! ### A call, as the steps of others leave it -/

/-- Who begins the call and may drop it. -/
def Action.makes : Action → Nat → Prop
  | .main _, key => key < Daemon.killKey
  | .watch _, key => key = Daemon.killKey
  | .request key' _, key => key = key'
  | _, _ => False

namespace Daemon

variable {σ : Type} {w : World σ} {d d' : Daemon σ} {a : Action}

/-- What a step of another than its maker comes to for a call. -/
inductive Seen (w : World σ) (d : Daemon σ) (key : Nat) : Action → Daemon σ → Prop where
  | clock {n : Nat} {d' : Daemon σ} (hcalls : d'.sys.calls key = d.sys.calls key)
      (hnow : d'.sys.sh.now = d.sys.sh.now + n) : Seen w d key (.joint (.daemon (.tick n))) d'
  | call {ev : CallEv} {eff : Eff} {d' : Daemon σ} (hbegin : ∀ request, ev ≠ .begin request)
      (h : (d.sys.calls key).step w.cx d.sys.sh key ev = some (d'.sys.calls key, eff))
      (hnow : d'.sys.sh.now = d.sys.sh.now) : Seen w d key (.joint (.daemon (.call key ev))) d'
  | other {a : Action} {d' : Daemon σ} (hnot : ∀ ev, a ≠ .joint (.daemon (.call key ev)))
      (htick : ∀ n, a ≠ .joint (.daemon (.tick n)))
      (hcalls : d'.sys.calls key = d.sys.calls key)
      (hnow : d'.sys.sh.now = d.sys.sh.now) : Seen w d key a d'

/-- What another than the handle takes is a step of a call of its own. -/
theorem Below.made {l : Label} (h : Below w d a l) (ha : ∀ m, a ≠ .joint m) :
    ∃ key ev, l = .call key ev ∧ a.makes key := by
  cases h with
  | own => exact absurd rfl (ha _)
  | cancelStart | shutdown => exact ⟨_, _, rfl, by simp [Action.makes, shutdownKey, killKey]⟩
  | killNow | cancelKill | predict => exact ⟨_, _, rfl, rfl⟩

/-- A step of a call is one of it alone, and takes no time. -/
theorem call_step {s s' : Sys} {key : Nat} {ev : CallEv}
    (h : s.step w.cx (.call key ev) = some s') :
    s'.sh.now = s.sh.now ∧ (∀ k, k ≠ key → s'.calls k = s.calls k) ∧
      ∃ eff, (s.calls key).step w.cx s.sh key ev = some (s'.calls key, eff) := by
  obtain ⟨⟨c, eff⟩, hc, rfl⟩ := Option.map_eq_some_iff.mp h
  refine ⟨Shared.apply_now _ _, fun k hk => Function.update_of_ne hk _ _, eff, ?_⟩
  show _ = some (Function.update s.calls key c key, eff)
  rwa [Function.update_self]

/-- A step below is one that another than the call's maker takes. -/
theorem seen_inner {m : Move} (key : Nat) (hm : inner m = true) (h : d.lower w m = some d') :
    Seen w d key (.joint m) d' := by
  cases m with
  | daemon l =>
    have hsys := lower_sys h
    cases l with
    | sup ev =>
      obtain ⟨⟨p, eff⟩, -, he⟩ := Option.map_eq_some_iff.mp hsys
      exact .other (by simp) (by simp) (by rw [← he]) (by rw [← he]; exact Shared.apply_now _ _)
    | call k ev =>
      obtain ⟨hnow, hother, eff, hc⟩ := call_step hsys
      by_cases hkey : k = key
      · subst hkey
        refine .call (fun request he => ?_) hc hnow
        subst he
        cases hm
      · exact .other (by simp [hkey]) (by simp) (hother _ (Ne.symm hkey)) hnow
    | tick n =>
      obtain he := Option.some.inj hsys
      exact .clock (by rw [← he]) (by rw [← he])
    | exit status =>
      obtain he := Option.some.inj hsys
      exact .other (by simp) (by simp) (by rw [← he]) (by rw [← he])
  | predict => cases hm
  | worker ev =>
    have hsys := lower_worker h
    exact .other (by simp) (by simp) (by rw [hsys]) (by rw [hsys])

/-- A step of another than its maker leaves a call alone, or is one of it. -/
theorem seen {key : Nat} (h : d.step w a = some d') (hmaker : ¬a.makes key) :
    Seen w d key a d' := by
  have hcall : ∀ {k ev}, k ≠ key → d.sys.step w.cx (.call k ev) = some d'.sys →
      d'.sys.calls key = d.sys.calls key ∧ d'.sys.sh.now = d.sys.sh.now := fun hkey hl =>
    ⟨(call_step hl).2.1 _ (Ne.symm hkey), (call_step hl).1⟩
  cases (stepped h).2 with
  | joint _ hm h => exact seen_inner key hm h
  | fuse | respond => exact .other (by simp) (by simp) rfl rfl
  | main | watch | request =>
    rcases step_sys h with he | ⟨l, hl, hbelow⟩
    · exact .other (by simp) (by simp) (by rw [he]) (by rw [he])
    · obtain ⟨k, ev, rfl, hk⟩ := hbelow.made (by simp)
      obtain ⟨hcalls, hnow⟩ := hcall (fun he => hmaker (he ▸ hk)) hl
      exact .other (by simp) (by simp) hcalls hnow

/-- The maker of a call, by its key. -/
theorem makes_cases {key : Nat} (h : d.step w a = some d') (hmakes : a.makes key) :
    (key < killKey ∧ ∃ ev, a = .main ev) ∨ (key = killKey ∧ ∃ ev, a = .watch ev) ∨
      killKey < key := by
  cases (stepped h).2 with
  | main => exact .inl ⟨hmakes, _, rfl⟩
  | watch => exact .inr (.inl ⟨hmakes, _, rfl⟩)
  | joint | fuse | respond => exact hmakes.elim
  | request _ hkey =>
    obtain rfl : key = _ := hmakes
    exact .inr (.inr hkey)

/-- A step of another than `main`, as its shutdown sees it. -/
theorem seen_shutdown (h : d.step w a = some d') (hmain : ∀ ev, a ≠ .main ev) :
    Seen w d shutdownKey a d' := by
  refine seen h fun hmakes => ?_
  rcases makes_cases h hmakes with ⟨-, ev, he⟩ | ⟨hkey, -⟩ | hkey
  · exact hmain ev he
  · cases hkey
  · exact absurd hkey (by decide)

/-- Only `main` goes on. -/
theorem main_step (h : d.step w a = some d') (ha : ∀ ev, a ≠ .main ev) : d'.main = d.main := by
  cases tasked h with
  | main => exact absurd rfl (ha _)
  | watch h => exact (watchStep_kept h).1.2.1
  | other _ _ he => rw [he]

end Daemon

/-! ### The shutdown of `main` -/

/-- The steps `kill_now` has left, at most. -/
def KillPc.left : KillPc → Nat
  | .readPid => 3
  | .notifyStop => 2
  | .awaitDone _ => 1
  | .over => 0

/-- The steps `shutdown` has left, at most. -/
def ShutPc.left : ShutPc → Nat
  | .setState => 7
  | .wake => 6
  | .awaitDone _ => 5
  | .killing pc => pc.left + 1
  | .leaving => 1
  | .over => 0

/-- When the timeout that `kill_now` awaits is over. -/
def KillPc.due : KillPc → Nat
  | .awaitDone deadline => deadline
  | _ => 0

/-- When the timeout that `shutdown` awaits is over. -/
def ShutPc.due : ShutPc → Nat
  | .awaitDone deadline => deadline
  | .killing pc => pc.due
  | _ => 0

namespace Call

variable {cx : Ctx} {sh : Shared} {key grace : Nat} {ev : CallEv} {eff : Eff}

/-- Every step of a kill brings it nearer its end. -/
theorem killStep_left {pc pc' : KillPc} (h : killStep cx sh pc ev = some (pc', eff)) :
    pc'.left < pc.left := by
  revert h
  fun_cases killStep cx sh pc ev
  all_goals
    intro h
    cases h
  · split <;> simp [KillPc.left]
  all_goals simp [KillPc.left]

/-- A step of `shutdown` leaves fewer to take, and `kill_now` is not over within it. -/
theorem shutdownStep_left {pc pc' : ShutPc}
    (h : shutdownStep cx sh key grace pc ev = some (pc', eff)) :
    pc'.left < pc.left ∧ pc' ≠ .killing .over := by
  revert h
  fun_cases shutdownStep cx sh key grace pc ev
  all_goals intro h
  all_goals first
    | (cases h; done)
    | (cases h; simp [ShutPc.left, KillPc.left])
    | skip
  obtain ⟨⟨pc, eff'⟩, hkill, heq⟩ := Option.map_eq_some_iff.mp h
  obtain ⟨rfl, -⟩ := Prod.mk.inj heq
  have hleft := killStep_left hkill
  cases pc with
  | «over» => exact ⟨by simp only [ShutPc.left]; omega, by simp⟩
  | _ => exact ⟨by simp only [ShutPc.left]; omega, by simp⟩

end Call

/-- `main` is past its service, or has none to begin. -/
def MainPc.closing : MainPc → Bool
  | .binding | .starting | .attaching | .publishing | .spawnWatch | .serving => false
  | _ => true

/-- `main` awaits its shutdown. -/
def MainPc.awaits : MainPc → Bool
  | .awaitInterrupted | .awaitStop _ => true
  | _ => false

/-- The shutdown of `main` is begun, or over. -/
def MainPc.begun : MainPc → Bool
  | .awaitInterrupted | .awaitStop _ | .draining _ | .returning _ => true
  | _ => false

namespace Daemon

variable {σ : Type} {w : World σ} {d d' t : Daemon σ} {a : Action}

/-- How far the shutdown of `main` is. -/
def shutPc (d : Daemon σ) : ShutPc :=
  match d.sys.calls shutdownKey with
  | .shutdown _ pc => pc
  | _ => .over

/-- `main` begins its shutdown where it says, and awaits what it began. -/
structure Begun (d : Daemon σ) : Prop where
  idle : d.main.begun = false → d.sys.calls shutdownKey = .idle
  awaits : d.main.awaits = true → ∃ grace pc, d.sys.calls shutdownKey = .shutdown grace pc ∧
    pc ≠ .killing .over

/-- After the start, `main` attaches the worker or reports why there is none. -/
theorem afterStart_cases {c : Call} {main : MainPc} (h : afterStart c = some main) :
    main = .attaching ∨ ∃ reason, main = .startFailed reason := by
  revert h
  fun_cases afterStart c
  all_goals
    intro h
    cases h
  · exact .inl rfl
  all_goals exact .inr ⟨_, rfl⟩

/-- A call that was not made is as it starts. -/
theorem lower_begin {key : Nat} {request : Request} (hidle : d.sys.calls key = .idle)
    (h : d.lower w (.daemon (.call key (.begin request))) = some t) :
    t.sys.calls key = (Call.start d.sys.sh request).1 := by
  obtain ⟨-, -, eff, hc⟩ := call_step (lower_sys h)
  rw [hidle] at hc
  exact (congrArg Prod.fst (Option.some.inj hc)).symm

/-- The steps of `main` begin its shutdown and await it. -/
theorem mainStep_begun {ev : MainEv} (hb : Begun d) (h : d.mainStep w ev = some d') :
    Begun d' := by
  revert h
  fun_cases Daemon.mainStep w d ev
  all_goals intro h
  all_goals first
    | (cases h; done)
    | (cases h; exact ⟨fun _ => hb.idle (by simp_all [MainPc.begun]), fun h => by cases h⟩)
    | skip
  case case2 =>
    cases h
    exact ⟨hb.idle, hb.awaits⟩
  -- the start has returned
  case case3 hmain =>
    obtain ⟨main, hafter, rfl⟩ := Option.map_eq_some_iff.mp h
    refine ⟨fun _ => hb.idle (by rw [hmain]; rfl), fun hawaits => ?_⟩
    rcases afterStart_cases hafter with rfl | ⟨reason, rfl⟩
    all_goals cases hawaits
  -- the start is dropped for a signal
  case case5 hmain _ =>
    obtain ⟨t, hl, rfl⟩ := Option.map_eq_some_iff.mp h
    refine ⟨fun _ => ?_, fun h => by cases h⟩
    obtain ⟨-, hother, -⟩ := call_step (lower_sys hl)
    exact (hother shutdownKey (by decide)).trans (hb.idle (by rw [hmain]; rfl))
  -- the shutdown is begun
  case case7 hmain | case17 hmain =>
    obtain ⟨t, hl, rfl⟩ := Option.map_eq_some_iff.mp h
    have hcall := lower_begin (hb.idle (by rw [hmain]; rfl)) hl
    exact ⟨fun h => (by cases h), fun _ => ⟨_, _, hcall, by simp⟩⟩
  case case18 served hmain _ =>
    cases h
    rcases served with _ | _ | _
    all_goals exact ⟨fun h => (by cases h), fun h => (by cases h)⟩
  case case23 hmain =>
    cases h
    exact ⟨fun h => hb.idle h, fun h => hb.awaits h⟩

/-- In every reachable state `main` has begun the shutdown it awaits, and no other. -/
theorem begun (h : (daemon w).Reachable d) : Begun d := by
  refine Machine.Reachable.induct (P := Begun) ⟨fun _ => rfl, fun h => by cases h⟩ ?_ h
  intro d a d' _ hb hstep
  by_cases ha : ∃ ev, a = .main ev
  · obtain ⟨ev, rfl⟩ := ha
    cases (stepped (w := w) (a := .main ev) hstep).2 with
    | main h => exact mainStep_begun hb h
  · have hnot : ∀ ev, a ≠ .main ev := fun ev he => ha ⟨ev, he⟩
    have hmain := main_step hstep hnot
    cases seen_shutdown hstep hnot with
    | clock hcalls _ | other _ _ hcalls _ =>
      exact ⟨by rw [hmain, hcalls]; exact hb.idle, by rw [hmain, hcalls]; exact hb.awaits⟩
    | @call ev eff _ hbegin hc hnow =>
      refine ⟨fun hunbegun => ?_, fun hawaits => ?_⟩
      · rw [hmain] at hunbegun
        rw [hb.idle hunbegun] at hc
        obtain ⟨request, he, -⟩ := Call.idle_step hc
        exact absurd he (hbegin request)
      · rw [hmain] at hawaits
        obtain ⟨grace, pc, hcall, -⟩ := hb.awaits hawaits
        rw [hcall] at hc
        obtain ⟨⟨pc', eff'⟩, hs, he⟩ := Option.map_eq_some_iff.mp hc
        exact ⟨grace, pc', (Prod.mk.inj he).1.symm, (Call.shutdownStep_left hs).2⟩

/-- The steps that `main` and its shutdown have left, at most. -/
def left (d : Daemon σ) : Nat :=
  match d.main with
  | .abortWatch _ => 13
  | .setStopping _ => 12
  | .stopping _ | .interrupted => 11
  | .awaitStop _ | .awaitInterrupted => d.shutPc.left + 3
  | .draining _ | .startFailed _ => 2
  | .returning _ => 1
  | _ => 0

/-- When the timeout that holds `main` up is over. -/
def due (d : Daemon σ) : Nat :=
  match d.main with
  | .awaitStop _ | .awaitInterrupted => d.shutPc.due
  | .draining deadline => deadline
  | _ => 0

/-- Those whose steps bring the process to its end. -/
inductive Turn where
  | main
  | shutdown
  | clock

/-- Whose step it is. -/
def Turn.takes : Turn → Action → Prop
  | .main, .main _ => True
  | .shutdown, .joint (.daemon (.call key _)) => key = shutdownKey
  | .clock, .joint (.daemon (.tick n)) => 0 < n
  | _, _ => False

/-- Whose step brings `main` on. -/
def turn (d : Daemon σ) : Turn :=
  if d.sys.sh.now < d.due then .clock
  else if d.main.awaits && d.shutPc ≠ .over then .shutdown
  else .main

/-- What is left to do: steps first, then time. -/
def rest (d : Daemon σ) : Lex (Nat × Nat) := toLex (d.left, d.due - d.sys.sh.now)

end Daemon

end Layad
