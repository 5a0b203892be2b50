import Layad.Service.Commands

/-!
# Whose LaunchAgent it is

Several worktrees install and uninstall under labels of one plist directory, in any order and
with `launchctl` failing at will.

* `InstallCase`, `UninstallCase` — everything an install or an uninstall can do;
* `Guarded` — what one invocation leaves alone, writes and removes;
* `Invocation.guarded` — every invocation keeps to it, in every world;
* `files_perform_of_not_owned` — a plist no invocation of a run owns outlasts the run;
* `perform_guarded` — the same over a whole run of worktrees with different digests.
-/

namespace Layad.Service

variable {s : Settings} {w : World}

/-! ### What an install can do -/

/-- Past the two ownership checks of an install. -/
structure MayWrite (s : Settings) (w : World) : Prop where
  ours : ∀ text, w.files s.plistName = some text → owned s.layadHomeDir text = true
  absent : w.files s.plistName = none → w.loaded s.label = false

/-- A report without a word of progress. -/
def Silent (lines : List Line) : Prop := ∀ text, Line.log text ∉ lines

/-- The script ended with at most the scratch file written. -/
def Stopped (s : Settings) (w : World) (r : Report) : Prop :=
  Silent r.lines ∧ r.status = 1 ∧
    ∀ name, name ≠ s.scratchName → r.world.files name = w.files name

/-- How an install ends: refused, with at most the scratch file written, or with the plist written.
    -/
inductive InstallCase (s : Settings) (w : World) : Report → Prop where
  | refused (text : String) : InstallCase s w (die w text)
  | aborted : InstallCase s w (abort w)
  | stopped (may : MayWrite s w) {r : Report} (h : Stopped s w r) : InstallCase s w r
  | wrote (may : MayWrite s w) {r : Report}
      (hfiles : r.world.files =
        ((w.remove s.scratchName).write s.plistName (renderPlist s)).files)
      (hlines : .log s!"wrote {s.plist}" ∈ r.lines) : InstallCase s w r

/-- `die` says no word of progress. -/
theorem silent_die (w : World) (text : String) : Silent (die w text).lines := by
  intro t h
  rw [die, List.mem_singleton] at h
  cases h

/-- A command that fails says no word of progress. -/
theorem silent_abort (w : World) : Silent (abort w).lines := fun _ h => nomatch h

/-- A command that fails after the scratch file was written. -/
theorem stopped_abort (s : Settings) (w : World) (scratch : String) :
    Stopped s w (abort (w.write s.scratchName scratch)) :=
  ⟨silent_abort _, rfl, fun _ h => World.files_write_of_ne h⟩

/-- `die` after the scratch file was written. -/
theorem stopped_die (s : Settings) (w : World) (scratch text : String) :
    Stopped s w (die (w.write s.scratchName scratch) text) :=
  ⟨silent_die _ text, rfl, fun _ h => World.files_write_of_ne h⟩

/-- The rendered plist is in the scratch file, or the script has ended. -/
theorem renderScratch_cases (s : Settings) (w : World) (writing : Writing) :
    renderScratch s w writing = (w.write s.scratchName (renderPlist s), none) ∨
      ∃ r, renderScratch s w writing = (r.world, some r) ∧ Stopped s w r := by
  cases writing with
  | refused => exact .inr ⟨abort w, rfl, silent_abort w, rfl, fun _ _ => rfl⟩
  | cut n =>
    right
    cases hpaths : s.plistPaths with
    | none =>
      rw [renderScratch, hpaths]
      exact ⟨_, rfl, stopped_abort s w _⟩
    | some text =>
      rw [renderScratch, hpaths]
      exact ⟨_, rfl, stopped_die s w _ text⟩
  | whole =>
    cases hpaths : s.plistPaths with
    | none =>
      left
      rw [renderScratch, hpaths]
    | some text =>
      right
      rw [renderScratch, hpaths]
      exact ⟨_, rfl, stopped_die s w _ text⟩

/-- Loading the plist leaves the files alone. -/
theorem files_loadPlist (s : Settings) (w : World) (o : Outcomes s.label) :
    (loadPlist s w o).world.files = w.files := by
  cases h : o.load.ok <;> simp [loadPlist, h]

/-- Loading the plist comes after the word that it was written. -/
theorem wrote_mem_loadPlist (s : Settings) (w : World) (o : Outcomes s.label) :
    .log s!"wrote {s.plist}" ∈ (loadPlist s w o).lines := by
  cases h : o.load.ok <;> simp [loadPlist, h]

/-- What the two ownership checks of an install let through. -/
theorem mayWrite_of_checks (hours : ¬(isInstalled s w && !isOurs s w) = true)
    (hloaded : ¬(!isInstalled s w && isLoaded s w) = true) : MayWrite s w := by
  constructor
  · intro text h
    simpa [isInstalled, isOurs, h] using hours
  · intro h
    simpa [isInstalled, isLoaded, h] using hloaded

/-- The part of an install that writes ends in one of these ways. -/
theorem writePlist_cases (may : MayWrite s w) (o : Outcomes s.label) :
    InstallCase s w (writePlist s w o) := by
  rcases renderScratch_cases s w o.writing with h | ⟨r, h, hstopped⟩
  · cases hmv : o.mv with
    | false =>
      simp only [writePlist, h, hmv]
      exact .stopped may (stopped_abort s w _)
    | true =>
      simp only [writePlist, h, hmv, if_true, World.remove_write]
      exact .wrote may (files_loadPlist s _ o) (wrote_mem_loadPlist s _ o)
  · rw [writePlist, h]
    exact .stopped may hstopped

/-- Every install ends in one of these ways. -/
theorem cmdInstall_cases (s : Settings) (w : World) (o : Outcomes s.label) :
    InstallCase s w (cmdInstall s w o) := by
  rw [cmdInstall]
  split_ifs with _ _ _ _ hours _ hloaded
  case neg => exact .refused _
  case neg => exact writePlist_cases (mayWrite_of_checks hours hloaded) o
  case pos => exact .refused _
  case pos => exact .refused _
  case pos => exact .refused _
  case pos => exact .aborted
  case pos => exact .refused _
  case pos => exact .refused _

/-! ### What an uninstall can do -/

/-- How an uninstall ends: nothing was there, it was refused or stopped, or the plist was removed.
    -/
inductive UninstallCase (s : Settings) (w : World) : Report → Prop where
  | absent (h : w.files s.plistName = none) {r : Report} (hworld : r.world = w) :
      UninstallCase s w r
  | refused (text : String) : UninstallCase s w (die w text)
  | kept {r : Report} (hfiles : r.world.files = w.files) (hstatus : r.status = 1) :
      UninstallCase s w r
  | removed (hours : isOurs s w = true) {r : Report}
      (hfiles : r.world.files = (w.remove s.plistName).files)
      (hloaded : r.world.loaded s.label = false) (hstatus : r.status = 0) : UninstallCase s w r

/-- After the unload the label is not loaded, or the script dies. -/
theorem unloadOrFail_cases (s : Settings) (unload : Unload s.label) (context : String)
    (w : World) : ∃ lines,
    (unloadOrFail s unload context w = ({ w with loaded := unload.loaded }, .ok lines) ∧
        unload.loaded s.label = false) ∨
      unloadOrFail s unload context w = ({ w with loaded := unload.loaded }, .error lines) := by
  rw [unloadOrFail]
  split_ifs with hok hloaded
  · exact ⟨_, .inl ⟨rfl, unload.unloaded hok⟩⟩
  · exact ⟨_, .inr rfl⟩
  · exact ⟨_, .inl ⟨rfl, Bool.eq_false_of_not_eq_true hloaded⟩⟩

/-- The part of an uninstall that removes ends in one of these ways. -/
theorem removePlist_cases (hours : isOurs s w = true) (o : Outcomes s.label) :
    UninstallCase s w (removePlist s w o) := by
  obtain ⟨lines, ⟨h, hloaded⟩ | h⟩ := unloadOrFail_cases s o.unload "uninstall" w
  · cases hrm : o.rm with
    | false =>
      simp only [removePlist, h, hrm]
      exact .kept rfl rfl
    | true =>
      simp only [removePlist, h, hrm]
      exact .removed hours rfl hloaded rfl
  · rw [removePlist, h]
    exact .kept rfl rfl

/-- Every uninstall ends in one of these ways. -/
theorem cmdUninstall_cases (s : Settings) (w : World) (o : Outcomes s.label) :
    UninstallCase s w (cmdUninstall s w o) := by
  rw [cmdUninstall]
  split_ifs with habsent hours
  case neg => exact .refused _
  case neg => exact removePlist_cases (by simpa using hours) o
  case pos => exact .absent (by simpa [isInstalled] using habsent) rfl
  case pos => exact .refused _

/-- `cmd_status` only reads. -/
theorem world_cmdStatus (s : Settings) (w : World) : (cmdStatus s w).world = w := by
  rw [cmdStatus]
  split_ifs <;> rfl

/-- `cmd_plist` only reads. -/
theorem world_cmdPlist (s : Settings) (w : World) : (cmdPlist s w).world = w := by
  rw [cmdPlist]
  split <;> rfl

/-- Every invocation is one of the cases of its command. -/
theorem report_cases (i : Invocation) (w : World) :
    (i.command = .install ∧ InstallCase i.settings w (i.report w)) ∨
      (i.command = .uninstall ∧ UninstallCase i.settings w (i.report w)) ∨
      ((i.command = .status ∨ i.command = .plist) ∧ (i.report w).world = w) := by
  cases hrefusal : i.settings.refusal with
  | some text =>
    have h : i.report w = die w text := by simp only [Invocation.report, service, hrefusal]
    rw [h]
    cases i.command with
    | install => exact .inl ⟨rfl, .refused text⟩
    | uninstall => exact .inr (.inl ⟨rfl, .refused text⟩)
    | status => exact .inr (.inr ⟨.inl rfl, rfl⟩)
    | plist => exact .inr (.inr ⟨.inr rfl, rfl⟩)
  | none =>
    simp only [Invocation.report, service, hrefusal]
    cases i.command with
    | install => exact .inl ⟨rfl, cmdInstall_cases _ w _⟩
    | uninstall => exact .inr (.inl ⟨rfl, cmdUninstall_cases _ w _⟩)
    | status => exact .inr (.inr ⟨.inl rfl, world_cmdStatus _ w⟩)
    | plist => exact .inr (.inr ⟨.inr rfl, world_cmdPlist _ w⟩)

/-- What an install does to the plist at a label. -/
theorem InstallCase.files {r : Report} (h : InstallCase s w r) (label : String) :
    r.world.files (label ++ ".plist") = w.files (label ++ ".plist") ∨
      s.label = label ∧ MayWrite s w ∧
        r.world.files (label ++ ".plist") = some (renderPlist s) := by
  have hscratch := (s.scratchName_ne label).symm
  cases h with
  | refused text => exact .inl rfl
  | aborted => exact .inl rfl
  | stopped may h => exact .inl (h.2.2 _ hscratch)
  | wrote may hfiles hlines =>
    by_cases hlabel : s.label = label
    · right
      subst hlabel
      refine ⟨rfl, may, ?_⟩
      rw [hfiles]
      exact World.files_write_self
    · left
      have hname := (Settings.plistName_ne hlabel).symm
      rw [hfiles, World.files_write_of_ne hname, World.files_remove_of_ne hscratch]

/-- What an uninstall does to the plist at a label. -/
theorem UninstallCase.files {r : Report} (h : UninstallCase s w r) (label : String) :
    r.world.files (label ++ ".plist") = w.files (label ++ ".plist") ∨
      s.label = label ∧ isOurs s w = true ∧ r.world.files (label ++ ".plist") = none := by
  cases h with
  | absent h hworld => exact .inl (by rw [hworld])
  | refused text => exact .inl rfl
  | kept hfiles hstatus => exact .inl (by rw [hfiles])
  | removed hours hfiles hloaded hstatus =>
    by_cases hlabel : s.label = label
    · right
      subst hlabel
      refine ⟨rfl, hours, ?_⟩
      rw [hfiles]
      exact World.files_remove_self
    · left
      have hname := (Settings.plistName_ne hlabel).symm
      rw [hfiles, World.files_remove_of_ne hname]

/-- A label that is loaded without a plist stops an install. -/
theorem InstallCase.world_of_loaded {r : Report} (h : InstallCase s w r)
    (habsent : w.files s.plistName = none) (hloaded : w.loaded s.label = true) : r.world = w := by
  cases h with
  | refused text => rfl
  | aborted => rfl
  | stopped may h => exact absurd (may.absent habsent) (by rw [hloaded]; decide)
  | wrote may hfiles hlines => exact absurd (may.absent habsent) (by rw [hloaded]; decide)

/-- An install reports the plist as written exactly when it has written it. -/
theorem InstallCase.files_plistName {r : Report} (h : InstallCase s w r) :
    (.log s!"wrote {s.plist}" ∈ r.lines ∧
        r.world.files s.plistName = some (renderPlist s)) ∨
      .log s!"wrote {s.plist}" ∉ r.lines ∧ r.world.files s.plistName = w.files s.plistName := by
  cases h with
  | refused text => exact .inr ⟨silent_die w text _, rfl⟩
  | aborted => exact .inr ⟨silent_abort w _, rfl⟩
  | stopped may h => exact .inr ⟨h.1 _, h.2.2 _ (s.scratchName_ne s.label).symm⟩
  | wrote may hfiles hlines =>
    left
    refine ⟨hlines, ?_⟩
    rw [hfiles]
    exact World.files_write_self

/-- An uninstall of a plist that is there removes it from a label that is not loaded any more,
    or leaves it and fails. -/
theorem UninstallCase.files_plistName {r : Report} (h : UninstallCase s w r) {text : String}
    (htext : w.files s.plistName = some text) :
    r.world.files s.plistName = none ∧ r.status = 0 ∧ r.world.loaded s.label = false ∨
      r.world.files s.plistName = some text ∧ r.status = 1 := by
  cases h with
  | absent h hworld => exact absurd (htext.symm.trans h) (by simp)
  | refused text => exact .inr ⟨htext, rfl⟩
  | kept hfiles hstatus => exact .inr ⟨by rw [hfiles, htext], hstatus⟩
  | removed hours hfiles hloaded hstatus =>
    left
    refine ⟨?_, hstatus, hloaded⟩
    rw [hfiles]
    exact World.files_remove_self

/-- An invocation that installs ends as an install does, or the settings are refused. -/
theorem installCase_report {i : Invocation} (h : i.command = .install) (w : World) :
    InstallCase i.settings w (i.report w) := by
  rcases report_cases i w with ⟨-, hcase⟩ | ⟨hcommand, -⟩ | ⟨hcommand, -⟩
  · exact hcase
  · rw [h] at hcommand
    cases hcommand
  · rw [h] at hcommand
    simp at hcommand

/-- An invocation that uninstalls ends as an uninstall does, or the settings are refused. -/
theorem uninstallCase_report {i : Invocation} (h : i.command = .uninstall) (w : World) :
    UninstallCase i.settings w (i.report w) := by
  rcases report_cases i w with ⟨hcommand, -⟩ | ⟨-, hcase⟩ | ⟨hcommand, -⟩
  · rw [h] at hcommand
    cases hcommand
  · exact hcase
  · rw [h] at hcommand
    simp at hcommand

/-- What an invocation can do to the plist at a label: nothing, or what its own label's
    command does. -/
theorem files_report (i : Invocation) (w : World) (label : String) :
    (i.report w).world.files (label ++ ".plist") = w.files (label ++ ".plist") ∨
      i.settings.label = label ∧
        (i.command = .install ∧ MayWrite i.settings w ∧
            (i.report w).world.files (label ++ ".plist") = some (renderPlist i.settings) ∨
          i.command = .uninstall ∧ isOurs i.settings w = true ∧
            (i.report w).world.files (label ++ ".plist") = none) := by
  rcases report_cases i w with ⟨hcommand, hcase⟩ | ⟨hcommand, hcase⟩ | ⟨-, hworld⟩
  · exact (hcase.files label).imp_right fun ⟨hlabel, h⟩ => ⟨hlabel, .inl ⟨hcommand, h⟩⟩
  · exact (hcase.files label).imp_right fun ⟨hlabel, h⟩ => ⟨hlabel, .inr ⟨hcommand, h⟩⟩
  · left
    rw [hworld]

/-- An invocation that changes the plist at a label owns what was there. -/
theorem owned_of_files_report_ne {i : Invocation} {w : World} {label text : String}
    (hne : (i.report w).world.files (label ++ ".plist") ≠ w.files (label ++ ".plist"))
    (htext : w.files (label ++ ".plist") = some text) : owned i.home text = true := by
  rcases files_report i w label with h | ⟨rfl, ⟨-, may, -⟩ | ⟨-, hours, -⟩⟩
  · exact absurd h hne
  · exact may.ours text htext
  · have hfile : w.files i.settings.plistName = some text := htext
    rwa [isOurs, hfile] at hours

/-- **What one invocation keeps to**, among worktrees with these runtime homes. -/
structure Guarded (homes : List String) (i : Invocation) (w : World) : Prop where
  /-- It changes or deletes the plist at its label only if that was absent or its own. -/
  own : (i.report w).world.files i.settings.plistName ≠ w.files i.settings.plistName →
    ∀ text, w.files i.settings.plistName = some text → owned i.home text = true
  /-- The plists at other labels stay as they are. -/
  elsewhere : ∀ label, i.settings.label ≠ label →
    (i.report w).world.files (label ++ ".plist") = w.files (label ++ ".plist")
  /-- An install does not take over a label that is loaded without a plist. -/
  foreign : i.command = .install → w.files i.settings.plistName = none →
    w.loaded i.settings.label = true → (i.report w).world = w
  /-- What an install reports as written is its own and nobody else's. -/
  wrote : i.command = .install → .log s!"wrote {i.settings.plist}" ∈ (i.report w).lines →
    ∃ text, (i.report w).world.files i.settings.plistName = some text ∧
      owned i.home text = true ∧ ∀ home ∈ homes, home ≠ i.home → owned home text = false
  /-- Without that report it has left the plist alone. -/
  unwritten : i.command = .install → .log s!"wrote {i.settings.plist}" ∉ (i.report w).lines →
    (i.report w).world.files i.settings.plistName = w.files i.settings.plistName
  /-- An uninstall removes the plist and exits 0 with the label not loaded, or the plist is
      still there. -/
  removed : i.command = .uninstall → ∀ text, w.files i.settings.plistName = some text →
    (i.report w).world.files i.settings.plistName = none ∧ (i.report w).status = 0 ∧
        (i.report w).world.loaded i.settings.label = false ∨
      (i.report w).world.files i.settings.plistName = some text ∧ (i.report w).status = 1
  /-- The other commands only read. -/
  reads : i.command = .status ∨ i.command = .plist → (i.report w).world = w

/-- An invocation is guarded against the homes whose digests differ from its own home's. -/
theorem Invocation.guarded {homes : List String} {i : Invocation}
    (distinct : ∀ home ∈ homes, home ≠ i.home → digest home ≠ digest i.home) (w : World) :
    Guarded homes i w where
  own hne _ htext := owned_of_files_report_ne hne htext
  elsewhere label hlabel := by
    rcases files_report i w label with h | ⟨hlabel', -⟩
    · exact h
    · exact absurd hlabel' hlabel
  foreign hcommand := (installCase_report hcommand w).world_of_loaded
  wrote hcommand hlines := by
    rcases (installCase_report hcommand w).files_plistName with ⟨-, hfile⟩ | ⟨hlines', -⟩
    · refine ⟨_, hfile, owned_renderPlist_iff.mpr rfl, fun home hhome hne => ?_⟩
      rw [← Bool.not_eq_true, owned_renderPlist_iff]
      exact distinct home hhome hne
    · exact absurd hlines hlines'
  unwritten hcommand hlines := by
    rcases (installCase_report hcommand w).files_plistName with ⟨hlines', -⟩ | ⟨-, hfile⟩
    · exact absurd hlines' hlines
    · exact hfile
  removed hcommand _ htext := (uninstallCase_report hcommand w).files_plistName htext
  reads hcommand := by
    rcases report_cases i w with ⟨h, -⟩ | ⟨h, -⟩ | ⟨-, hworld⟩
    · simp [h] at hcommand
    · simp [h] at hcommand
    · exact hworld

/-! ### Whole runs -/

/-- Different homes have different digests. -/
def DistinctDigests (homes : List String) : Prop :=
  ∀ home ∈ homes, ∀ other ∈ homes, home ≠ other → digest home ≠ digest other

instance (homes : List String) : Decidable (DistinctDigests homes) :=
  inferInstanceAs (Decidable (∀ home ∈ homes, ∀ other ∈ homes, home ≠ other → _))

/-- A plist no invocation of a run owns outlasts the run. -/
theorem files_perform_of_not_owned {run : List Invocation} {label text : String}
    (hrun : ∀ i ∈ run, owned i.home text = false) {w : World}
    (htext : w.files (label ++ ".plist") = some text) :
    (perform w run).files (label ++ ".plist") = some text := by
  induction run generalizing w with
  | nil => rwa [perform_nil]
  | cons i run ih =>
    rw [List.forall_mem_cons] at hrun
    rw [perform_cons]
    refine ih hrun.2 ?_
    by_contra hne
    have howned := owned_of_files_report_ne (i := i) (fun h => hne (h.trans htext)) htext
    rw [hrun.1] at howned
    cases howned

/-- A plist that is there after a run was there before, or an install of the run wrote it. -/
theorem files_perform_cases {run : List Invocation} {label text : String} {w : World}
    (htext : (perform w run).files (label ++ ".plist") = some text) :
    w.files (label ++ ".plist") = some text ∨
      ∃ i ∈ run, i.command = .install ∧ i.settings.label = label ∧
        text = renderPlist i.settings := by
  induction run generalizing w with
  | nil => exact .inl htext
  | cons i run ih =>
    rw [perform_cons] at htext
    rcases ih htext with h | ⟨j, hj, h⟩
    · rcases files_report i w label with hsame | ⟨hlabel, ⟨hcommand, -, hfile⟩ | ⟨-, -, hfile⟩⟩
      · exact .inl (hsame.symm.trans h)
      · rw [hfile, Option.some.injEq] at h
        exact .inr ⟨i, List.mem_cons_self, hcommand, hlabel, h.symm⟩
      · rw [hfile] at h
        cases h
    · exact .inr ⟨j, List.mem_cons_of_mem i hj, h⟩

/-- **Ownership over whole runs.**  Every invocation of a run keeps to what is its own; every
    plist at its end was there before or belongs to the one worktree that installed it; and a
    plist that belongs to none of them is still there. -/
theorem perform_guarded (start : World) (run : List Invocation)
    (distinct : DistinctDigests (run.map Invocation.home)) :
    (∀ before i after, run = before ++ i :: after →
        Guarded (run.map Invocation.home) i (perform start before)) ∧
      (∀ label text, (perform start run).files (label ++ ".plist") = some text →
        start.files (label ++ ".plist") = some text ∨
          ∃ i ∈ run, i.command = .install ∧ i.settings.label = label ∧
            owned i.home text = true ∧ ∀ j ∈ run, j.home ≠ i.home → owned j.home text = false) ∧
      ∀ label text, start.files (label ++ ".plist") = some text →
        (∀ i ∈ run, owned i.home text = false) →
        (perform start run).files (label ++ ".plist") = some text := by
  refine ⟨fun before i after hrun => ?_, fun label text htext => ?_, fun label text htext hrun =>
    files_perform_of_not_owned hrun htext⟩
  · have hi : i ∈ run := by simp [hrun]
    exact Invocation.guarded (fun home hhome => distinct home hhome i.home
      (List.mem_map_of_mem hi)) _
  · rcases files_perform_cases htext with h | ⟨i, hi, hcommand, hlabel, rfl⟩
    · exact .inl h
    · right
      refine ⟨i, hi, hcommand, hlabel, owned_renderPlist_iff.mpr rfl, fun j hj hne => ?_⟩
      rw [← Bool.not_eq_true, owned_renderPlist_iff]
      exact distinct j.home (List.mem_map_of_mem hj) i.home (List.mem_map_of_mem hi) hne

/-- A repository whose environment sets nothing. -/
def checkout (root : String) : Environment :=
  ⟨root, "/Users/me", none, none, none, none, none, none, none, none, none⟩

/-- Every file operation succeeds and `launchctl` does what it is asked. -/
def obliging (label : String) : Outcomes label where
  darwin := true
  binaryExecutable := true
  pythonExecutable := true
  mkdir := true
  writing := .whole
  mv := true
  rm := true
  unload := ⟨⟨true, fun _ => false⟩, fun _ => rfl⟩
  load := ⟨true, fun l => l == label⟩

/-- Two repositories with one label: the second tries to take over, then the first leaves. -/
def siblings : List Invocation :=
  [⟨checkout "/a", .install, obliging _⟩, ⟨checkout "/b", .install, obliging _⟩,
    ⟨checkout "/b", .uninstall, obliging _⟩, ⟨checkout "/a", .uninstall, obliging _⟩]

/-- The result at a run of two worktrees that install and uninstall. -/
theorem perform_guarded_siblings :
    siblings.map Invocation.home = ["/a/.layad", "/b/.layad", "/b/.layad", "/a/.layad"] ∧
      ∀ before i after, siblings = before ++ i :: after →
        Guarded (siblings.map Invocation.home) i
          (perform ⟨fun _ => none, fun _ => false⟩ before) := by
  have hhomes : siblings.map Invocation.home =
      ["/a/.layad", "/b/.layad", "/b/.layad", "/a/.layad"] := by decide +kernel
  have hdistinct : DistinctDigests (siblings.map Invocation.home) := by
    rw [hhomes]
    decide +kernel
  exact ⟨hhomes, (perform_guarded ⟨fun _ => none, fun _ => false⟩ siblings hdistinct).1⟩

end Layad.Service
