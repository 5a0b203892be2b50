import Mathlib.Logic.Relation

/-!
# Labelled machines, their runs and their invariants

A `Machine` is an initial state and a partial step function: the label holds
everything the state leaves open, so a run can be replayed by evaluation (`exec`).

* `Runs` / `Reachable` — finite runs, as the reflexive transitive closure of the step;
* `Reachable.induct`, `invariant_of_step` — a property of the initial state that every
  step keeps holds in every reachable state;
* `stable_of_step` — a property that every step keeps, once true, stays true;
* `restrict` — the machine that only takes the steps a guard allows, with the same rules;
* `Runs.map` — a machine that refines another one runs as that one does;
* `Meets` — what has happened in a run, with `exec_stable` and `exec_induct` for properties
  of a state and the run that led to it.
-/

namespace Transition

/-- An initial state and a step function, undefined where a label is not enabled. -/
structure Machine (σ : Type*) (ℓ : Type*) where
  init : σ
  step : σ → ℓ → Option σ

namespace Machine

variable {σ ℓ : Type*} {M : Machine σ ℓ}

/-- One step, by whatever label. -/
def Next (M : Machine σ ℓ) (s t : σ) : Prop := ∃ l, M.step s l = some t

/-- Any number of steps. -/
def Runs (M : Machine σ ℓ) : σ → σ → Prop := Relation.ReflTransGen M.Next

/-- The states a run from the initial state ends in. -/
def Reachable (M : Machine σ ℓ) (s : σ) : Prop := M.Runs M.init s

/-- The run without steps. -/
theorem Runs.refl (s : σ) : M.Runs s s := Relation.ReflTransGen.refl

/-- A run that goes on. -/
theorem Runs.trans {s t u : σ} (h : M.Runs s t) (h' : M.Runs t u) : M.Runs s u :=
  Relation.ReflTransGen.trans h h'

/-- A run and one more step. -/
theorem Runs.step {s t u : σ} {l : ℓ} (h : M.Runs s t) (hs : M.step t l = some u) : M.Runs s u :=
  Relation.ReflTransGen.tail h ⟨l, hs⟩

/-- The initial state is reachable. -/
theorem Reachable.init : M.Reachable M.init := Runs.refl _

/-- A step leads from reachable states to reachable ones. -/
theorem Reachable.step {s t : σ} {l : ℓ} (h : M.Reachable s) (hs : M.step s l = some t) :
    M.Reachable t :=
  Runs.step h hs

/-- So does a run. -/
theorem Reachable.runs {s t : σ} (h : M.Reachable s) (hr : M.Runs s t) : M.Reachable t :=
  Runs.trans h hr

/-- Induction over a run, the last step split off, with the reachability of its source
    at hand. -/
theorem Reachable.induct {P : σ → Prop} (h0 : P M.init)
    (hstep : ∀ s l t, M.Reachable s → P s → M.step s l = some t → P t) :
    ∀ {s}, M.Reachable s → P s := by
  intro s hs
  induction hs with
  | refl => exact h0
  | tail hr hn ih =>
    obtain ⟨l, hl⟩ := hn
    exact hstep _ l _ hr ih hl

/-- **Invariant rule.** Initial and kept by every step, hence true in every reachable state. -/
theorem invariant_of_step {P : σ → Prop} (h0 : P M.init)
    (hstep : ∀ s l t, P s → M.step s l = some t → P t) {s : σ} (hs : M.Reachable s) : P s :=
  Reachable.induct h0 (fun s l t _ hp hl => hstep s l t hp hl) hs

/-- **Stability rule.** A property that every step from a reachable state keeps survives
    any continuation of the run. -/
theorem stable_of_step {P : σ → Prop}
    (hstep : ∀ s l t, M.Reachable s → P s → M.step s l = some t → P t)
    {s t : σ} (hs : M.Reachable s) (hp : P s) (hr : M.Runs s t) : P t := by
  induction hr with
  | refl => exact hp
  | tail hr hn ih =>
    obtain ⟨l, hl⟩ := hn
    exact hstep _ l _ (hs.runs hr) ih hl

/-! ### Runs whose steps all meet a guard -/

/-- The machine that takes only the steps `g` allows in the state before. -/
def restrict (M : Machine σ ℓ) (g : σ → ℓ → Bool) : Machine σ ℓ where
  init := M.init
  step s l := if g s l then M.step s l else none

variable {g : σ → ℓ → Bool}

/-- A guarded step is a step that the guard allows. -/
theorem restrict_step {s t : σ} {l : ℓ} :
    (M.restrict g).step s l = some t ↔ g s l = true ∧ M.step s l = some t := by
  by_cases h : g s l <;> simp [restrict, h]

/-- A guarded run is a run. -/
theorem Runs.of_restrict {s t : σ} (h : (M.restrict g).Runs s t) : M.Runs s t :=
  Relation.ReflTransGen.mono (fun _ _ ⟨l, hl⟩ => ⟨l, (restrict_step.mp hl).2⟩) _ _ h

/-- What a guarded run reaches is reachable. -/
theorem Reachable.of_restrict {s : σ} (h : (M.restrict g).Reachable s) : M.Reachable s :=
  Runs.of_restrict h

/-- The stability rule for a guarded continuation of any run. -/
theorem stable_of_restrict {P : σ → Prop}
    (hstep : ∀ s l t, M.Reachable s → P s → g s l = true → M.step s l = some t → P t)
    {s t : σ} (hs : M.Reachable s) (hp : P s) (hr : (M.restrict g).Runs s t) : P t := by
  induction hr with
  | refl => exact hp
  | tail hr hn ih =>
    obtain ⟨l, hl⟩ := hn
    obtain ⟨hg, hl⟩ := restrict_step.mp hl
    exact hstep _ l _ (hs.runs (Runs.of_restrict hr)) ih hg hl

/-- The invariant rule for guarded runs. -/
theorem invariant_of_restrict {P : σ → Prop} (h0 : P M.init)
    (hstep : ∀ s l t, M.Reachable s → P s → g s l = true → M.step s l = some t → P t) {s : σ}
    (hs : (M.restrict g).Reachable s) : P s :=
  stable_of_restrict hstep Reachable.init h0 hs

/-! ### Refinement -/

/-- **Refinement rule.**  A machine whose steps come to runs in another one's states runs as
    that one does. -/
theorem Runs.map {τ κ : Type*} {N : Machine τ κ} {f : σ → τ}
    (hstep : ∀ s l t, M.step s l = some t → N.Runs (f s) (f t)) {s t : σ} (h : M.Runs s t) :
    N.Runs (f s) (f t) := by
  induction h with
  | refl => exact Runs.refl (f s)
  | tail _ hn ih =>
    obtain ⟨l, hl⟩ := hn
    exact ih.trans (hstep _ l _ hl)

/-! ### Replaying a run -/

/-- Take the steps of a list of labels in order. -/
def exec (M : Machine σ ℓ) : σ → List ℓ → Option σ
  | s, [] => some s
  | s, l :: ls => (M.step s l).bind (M.exec · ls)

/-- A replayed run is a run. -/
theorem runs_of_exec : ∀ {ls : List ℓ} {s t : σ}, M.exec s ls = some t → M.Runs s t
  | [], s, t, h => by
    rw [exec, Option.some.injEq] at h
    exact h ▸ Runs.refl s
  | l :: ls, s, t, h => by
    rw [exec, Option.bind_eq_some_iff] at h
    obtain ⟨u, hu, ht⟩ := h
    exact ((Runs.refl s).step hu).trans (runs_of_exec ht)

/-- A run is taken in two parts. -/
theorem exec_append (s : σ) (ls ls' : List ℓ) :
    M.exec s (ls ++ ls') = (M.exec s ls).bind (M.exec · ls') := by
  induction ls generalizing s with
  | nil => rfl
  | cons l ls ih =>
    rw [List.cons_append, exec, exec, Option.bind_assoc]
    exact Option.bind_congr fun t _ => ih t

/-- A run goes on by a step. -/
theorem exec_concat {s t u : σ} {ls : List ℓ} {l : ℓ} (h : M.exec s ls = some t)
    (hs : M.step t l = some u) : M.exec s (ls ++ [l]) = some u := by
  rw [exec_append, h, Option.bind_some, exec, hs]
  rfl

/-- **Stability rule for a state and its run.**  What every step keeps of a state and the
    labels that led to it survives any continuation. -/
theorem exec_stable {P : List ℓ → σ → Prop}
    (hstep : ∀ ls l s t, M.exec M.init ls = some s → P ls s → M.step s l = some t →
      P (ls ++ [l]) t)
    {ls ls' : List ℓ} {s t : σ} (hs : M.exec M.init ls = some s) (hp : P ls s)
    (ht : M.exec s ls' = some t) : P (ls ++ ls') t := by
  induction ls' generalizing ls s with
  | nil =>
    obtain rfl := Option.some.inj ht
    rwa [List.append_nil]
  | cons l rest ih =>
    obtain ⟨u, hu, ht⟩ := Option.bind_eq_some_iff.mp ht
    have hnext := ih (exec_concat hs hu) (hstep ls l s u hs hp hu) ht
    rwa [List.append_assoc, List.singleton_append] at hnext

/-- The invariant rule for a state and its run. -/
theorem exec_induct {P : List ℓ → σ → Prop} (h0 : P [] M.init)
    (hstep : ∀ ls l s t, M.exec M.init ls = some s → P ls s → M.step s l = some t →
      P (ls ++ [l]) t)
    {ls : List ℓ} {s : σ} (h : M.exec M.init ls = some s) : P ls s :=
  exec_stable hstep rfl h0 h

/-- Some step of the run that takes these labels meets `P`, in the state before. -/
def Meets (M : Machine σ ℓ) (ls : List ℓ) (P : σ → ℓ → Prop) : Prop :=
  ∃ before l after s, ls = before ++ l :: after ∧ M.exec M.init before = some s ∧ P s l

variable {P : σ → ℓ → Prop}

/-- What has happened stays so. -/
theorem Meets.concat {ls : List ℓ} (h : M.Meets ls P) (l : ℓ) : M.Meets (ls ++ [l]) P := by
  obtain ⟨before, l', after, s, rfl, hs, hp⟩ := h
  exact ⟨before, l', after ++ [l], s, by simp, hs, hp⟩

/-- The last step has happened. -/
theorem Meets.last {ls : List ℓ} {s : σ} {l : ℓ} (h : M.exec M.init ls = some s) (hp : P s l) :
    M.Meets (ls ++ [l]) P :=
  ⟨ls, l, [], s, rfl, h, hp⟩

/-- What a replayed run from the initial state comes to is true of a reachable state. -/
theorem reachable_of_exec {α : Type*} {f : σ → α} {ls : List ℓ} {v : α}
    (h : (M.exec M.init ls).map f = some v) : ∃ t, M.Reachable t ∧ f t = v := by
  obtain ⟨t, ht, rfl⟩ := Option.map_eq_some_iff.mp h
  exact ⟨t, runs_of_exec ht, rfl⟩

/-- The same for a run that goes on, of this machine or of another one with its states: what
    two of its states come to. -/
theorem runs_of_exec_exec {α : Type*} {M' : Machine σ ℓ} {f : σ → σ → α} {ls ls' : List ℓ} {v : α}
    (h : ((M.exec M.init ls).bind fun s => (M'.exec s ls').map (f s)) = some v) :
    ∃ s t, M.Reachable s ∧ M'.Runs s t ∧ f s t = v := by
  obtain ⟨s, hs, ht⟩ := Option.bind_eq_some_iff.mp h
  obtain ⟨t, ht, hv⟩ := Option.map_eq_some_iff.mp ht
  exact ⟨s, t, runs_of_exec hs, runs_of_exec ht, hv⟩

end Machine

end Transition
