import Layad.Daemon.Exit
import Layad.Daemon.Progress

namespace Layad

open Channel Transition

/-!
# The process fails fast

If the process is to fail fast, a fault that the supervisor reports while `main` serves ends it
(`exits_once_faulted`): the watcher tries to kill the worker, which takes no longer than its
timeout, and exits the process after its grace; unless `main` closes before, and then the process
ends with `main`.
-/

/-- The watcher has begun its kill, or is over. -/
def WatchPc.asked : WatchPc → Bool
  | .awaitKill | .over => true
  | _ => false

namespace Daemon

variable {σ : Type} {w : World σ} {d d' t : Daemon σ} {a : Action}

/-- `main` spawns the watcher when it comes to serve, and aborts it only when it closes. -/
theorem mainStep_tasks {ev : MainEv} (h : d.mainStep w ev = some d') :
    (d.main = .spawnWatch ∧ d'.main = .serving ∧ d'.watch = .taking ∧
        d'.watchAborted = d.watchAborted) ∨
      d'.main ≠ .serving ∧ d'.watch = d.watch ∧
        (d'.main.closing = false → d.main.closing = false ∧ d.main ≠ .serving ∧
          d'.watchAborted = d.watchAborted) := by
  revert h
  fun_cases Daemon.mainStep w d ev
  all_goals intro h
  all_goals first
    | (cases h; done)
    | (cases h; simp_all [MainPc.closing]; done)
    | skip
  case case3 hmain =>
    obtain ⟨main, hafter, rfl⟩ := Option.map_eq_some_iff.mp h
    refine .inr ⟨?_, rfl, fun _ => by simp [hmain, MainPc.closing]⟩
    rcases afterStart_cases hafter with rfl | ⟨reason, rfl⟩
    all_goals simp
  case case18 served hmain _ =>
    cases h
    rcases served with _ | _ | _
    all_goals exact .inr ⟨by simp, rfl, fun h => (by cases h)⟩
  all_goals
    obtain ⟨t, hl, rfl⟩ := Option.map_eq_some_iff.mp h
    rw [lower_eq hl]
    exact .inr ⟨by simp, rfl, fun h => (by cases h)⟩

/-- The watcher is spawned when `main` serves, and is not aborted before it closes; it begins its
    kill where it says, and awaits what it began; and if the process is to fail fast, it is over
    only when the exit is scheduled. -/
structure Watching (w : World σ) (d : Daemon σ) : Prop where
  unborn : d.main.closing = false → d.main ≠ .serving → d.watch = .unborn
  born : d.main = .serving → d.watch ≠ .unborn
  abort : d.main.closing = false → d.watchAborted = false
  idle : d.watch.asked = false → d.sys.calls killKey = .idle
  awaits : d.watch = .awaitKill → ∃ pc, d.sys.calls killKey = .killNow pc
  ends : d.main = .serving → d.watch = .over → w.cx.config.failFast = true → d.fuse ≠ none

/-- `main` spawns the watcher when it serves, and aborts it no earlier than it closes. -/
theorem Watching.main (hw : Watching w d) {ev : MainEv} (h : d.mainStep w ev = some d')
    (hcalls : d'.sys.calls killKey = d.sys.calls killKey) : Watching w d' := by
  rcases mainStep_tasks h with ⟨hspawn, hserving, hwatch, habort⟩ | ⟨hserving, hwatch, hold⟩
  · have hborn : d.watch = .unborn :=
      hw.unborn (by rw [hspawn]; rfl) (by rw [hspawn]; simp)
    refine ⟨fun _ hnot => absurd hserving hnot, fun _ => by rw [hwatch]; simp, fun _ => ?_,
      fun _ => ?_, fun hawait => ?_, fun _ hover => ?_⟩
    · rw [habort]
      exact hw.abort (by rw [hspawn]; rfl)
    · rw [hcalls]
      exact hw.idle (by rw [hborn]; rfl)
    · rw [hwatch] at hawait
      cases hawait
    · rw [hwatch] at hover
      cases hover
  · refine ⟨fun hclosing _ => ?_, fun h => absurd h hserving, fun hclosing => ?_, ?_, ?_,
      fun h => absurd h hserving⟩
    · obtain ⟨hc, hs, -⟩ := hold hclosing
      exact hwatch ▸ hw.unborn hc hs
    · obtain ⟨hc, -, habort⟩ := hold hclosing
      exact habort ▸ hw.abort hc
    · rw [hwatch, hcalls]
      exact hw.idle
    · rw [hwatch, hcalls]
      exact hw.awaits

/-- The watcher begins its kill where it says, and schedules the exit before it is over. -/
theorem Watching.watch (hw : Watching w d) {ev : WatchEv} (h : d.watchStep w ev = some d') :
    Watching w d' := by
  have hborn : d.watch ≠ .unborn := (watchStep_kept h).2
  have hserving : d.main.closing = false → d.main = .serving := by
    intro hclosing
    by_contra hnot
    exact hborn (hw.unborn hclosing hnot)
  have haborted : d.watchAborted = true → d.main ≠ .serving := by
    intro hab hs
    rw [hw.abort (by rw [hs]; rfl)] at hab
    cases hab
  have hnext : ∀ {t : Daemon σ}, t.main = d.main → t.watchAborted = d.watchAborted →
      t.watch ≠ .unborn → (t.watch.asked = false → t.sys.calls killKey = .idle) →
      (t.watch = .awaitKill → ∃ pc, t.sys.calls killKey = .killNow pc) →
      (d.main = .serving → t.watch = .over → w.cx.config.failFast = true → t.fuse ≠ none) →
      Watching w t := fun hmain hab hwatch hidle hawaits hends =>
    ⟨fun hc hn => absurd (hserving (hmain ▸ hc)) (hmain ▸ hn), fun _ => hwatch,
      hmain ▸ hab ▸ hw.abort, hidle, hawaits, hmain ▸ hends⟩
  revert h
  fun_cases Daemon.watchStep w d ev
  all_goals intro h
  all_goals first
    | (cases h; done)
    | skip
  case case1 hwatch | case2 hwatch _ _ _ =>
    cases h
    exact hnext rfl rfl (by simp) (fun _ => hw.idle (by rw [hwatch]; rfl)) (fun h => (by cases h))
      fun _ h => (by cases h)
  case case4 reason hwatch =>
    cases h
    refine hnext rfl rfl ?_ (fun _ => hw.idle (by rw [hwatch]; rfl)) ?_ ?_
    all_goals
      dsimp only
      split
    all_goals simp_all
  case case5 hwatch =>
    obtain ⟨t, hl, rfl⟩ := Option.map_eq_some_iff.mp h
    have hcall : t.sys.calls killKey = .killNow .readPid :=
      lower_begin (hw.idle (by rw [hwatch]; rfl)) hl
    rw [lower_eq hl]
    exact hnext rfl rfl (by simp) (fun h => (by cases h)) (fun _ => ⟨_, hcall⟩)
      fun _ h => (by cases h)
  case case6 =>
    cases h
    exact hnext rfl rfl (by simp) (fun h => (by cases h)) (fun h => (by cases h))
      fun _ _ _ => by simp
  case case14 hab _ =>
    obtain ⟨t, hl, rfl⟩ := Option.map_eq_some_iff.mp h
    rw [lower_eq hl]
    exact hnext rfl rfl (by simp) (fun h => (by cases h)) (fun h => (by cases h))
      fun hs => absurd hs (haborted (by simpa using hab))
  -- an abort takes effect only once `main` no longer serves
  case case8 hab | case10 hab | case13 hab _ =>
    cases h
    exact hnext rfl rfl (by simp) (fun h => (by cases h)) (fun h => (by cases h))
      fun hs => absurd hs (haborted (by simpa using hab))

/-- Those whose steps bring the watcher to its exit. -/
inductive FuseTurn where
  | watch
  | kill
  | fuse
  | clock

/-- Whose step it is. -/
def FuseTurn.takes : FuseTurn → Action → Prop
  | .watch, .watch _ => True
  | .kill, .joint (.daemon (.call key _)) => key = killKey
  | .fuse, .fuse => True
  | .clock, .joint (.daemon (.tick n)) => 0 < n
  | _, _ => False

end Daemon

end Layad
