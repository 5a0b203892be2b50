import Layad.Joint.Stream
import Layad.Worker.Reaping

namespace Layad

open Channel Framing Transition

/-!
# The link between the daemon and its worker

What the two processes know of each other in every run, whatever dies on the way.  The daemon
of the joint system is the daemon of `Layad.handle` (`Joint.reachable_sys`), and what it sends
comes from requests it has taken (`Joint.Asked`).  While the session lasts, the lines the
worker reads are the requests in order and the lines the daemon reads are the worker's frames
in order (`Joint.InStep`); a reply it accepts says what the worker made of the request of that
number (`Joint.Linked`).
-/

/-! ### What the worker finds in its input -/

section

variable {cx : Ctx} {d : Dispatch}

/-- A frame's bytes are the line feed and bytes that are no control characters. -/
theorem Dispatch.le_of_mem_bytes (hvec : cx.host.toVec = Json.compact)
    (hd : d.job.params.WellFormed) : ∀ b ∈ d.bytes cx, b = newline ∨ 0x20 ≤ b := by
  intro b hb
  rw [Dispatch.bytes, writeFrame, hvec, Json.compact_eq] at hb
  rcases List.mem_append.mp hb with hb | hb
  · exact .inr ((Json.printable_text _ (wellFormed_predictFrame hd d.id).numeric).le_of_mem hb)
  · exact .inl (List.mem_singleton.mp hb)

/-- A frame's bytes are one line, its line feed last. -/
theorem Dispatch.isFrame_bytes (hvec : cx.host.toVec = Json.compact)
    (hd : d.job.params.WellFormed) : IsFrame newline (d.bytes cx) :=
  ⟨_, rfl, fun hmem => (Worker.readLine_writeFrame hvec _
    (wellFormed_predictFrame hd d.id).numeric).1 _ hmem rfl⟩

/-- The first complete line of what is left of the requests is the next request. -/
theorem nextLine_requests (hvec : cx.host.toVec = Json.compact) {rest : List Dispatch}
    (hrest : ∀ d ∈ rest, d.job.params.WellFormed) {input more line : List UInt8}
    (he : input ++ more = (rest.map (Dispatch.bytes cx)).flatten)
    (h : nextLine input = some line) :
    ∃ d rest', rest = d :: rest' ∧ line = d.bytes cx := by
  obtain ⟨i, hi, rfl⟩ := Option.map_eq_some_iff.mp h
  obtain ⟨hlt, hends, hbefore⟩ := List.findIdx?_eq_some_iff_getElem.mp hi
  have hsplit : input = input.take i ++ input[i] :: input.drop (i + 1) := by simp
  -- a byte that ends a line is a newline, for no frame holds a carriage return
  have hnewline : input[i] = newline := by
    have hmem : input[i] ∈ (rest.map (Dispatch.bytes cx)).flatten :=
      he ▸ List.mem_append_left more (List.getElem_mem hlt)
    obtain ⟨frame, hframe, hb⟩ := List.mem_flatten.mp hmem
    obtain ⟨d, hd, rfl⟩ := List.mem_map.mp hframe
    rcases Dispatch.le_of_mem_bytes hvec (hrest d hd) _ hb with hn | hle
    · exact hn
    · rcases Bool.or_eq_true_iff.mp hends with hn | hn
      · exact of_decide_eq_true hn
      · rw [of_decide_eq_true hn] at hle
        exact absurd hle (by decide)
  have hno : newline ∉ input.take i := by
    intro hmem
    obtain ⟨j, hj, hjn⟩ := List.getElem_of_mem hmem
    have hji : j < i := by
      rw [List.length_take] at hj
      omega
    refine hbefore j hji ?_
    rw [List.getElem_take] at hjn
    rw [hjn]
    rfl
  have hframed : Framed newline (rest.map (Dispatch.bytes cx)) := by
    intro frame hframe
    obtain ⟨d, hd, rfl⟩ := List.mem_map.mp hframe
    exact Dispatch.isFrame_bytes hvec (hrest d hd)
  obtain ⟨others, hothers, -⟩ := hframed.head (t := input.drop (i + 1) ++ more) hno (by
    rw [← he, ← hnewline, ← List.cons_append, ← List.append_assoc, ← hsplit])
  obtain ⟨d, rest', rfl, hline, -⟩ := List.map_eq_cons_iff.mp hothers
  refine ⟨d, rest', rfl, ?_⟩
  rw [hline, ← hnewline, List.take_append_getElem]

end

/-! ### The steps of the joint system -/

/-- What is forwarded for a request that is taken. -/
def World.Takes {σ : Type} (w : World σ) (params : Json) : Prop :=
  ∃ body kinds, predictImpl w.cx.config w.cx.host true (.ok body) = .ok (kinds, params)

/-- What a handler takes of a body is well formed. -/
theorem World.Takes.wellFormed {σ : Type} {w : World σ} {parseFloat : String → PyFloat}
    (hw : w.Lawful parseFloat) {params : Json} (h : w.Takes params) : params.WellFormed := by
  obtain ⟨body, kinds, h⟩ := h
  obtain ⟨request, hreq, rfl, -⟩ := predictImpl_ok h
  obtain ⟨documents, members, hdoc, hm, ho⟩ := PredictRequest.fromSlice_ok hreq
  exact PredictRequest.wellFormed_params (Document.wellFormedMembers_toJson hw.reals hm) ho

namespace Joint

variable {σ : Type} {w : World σ} {j j' : Joint σ} {m : Move}

/-- What a label of the daemon may say. -/
structure Possible (w : World σ) (j : Joint σ) (l : Label) : Prop where
  read : ∀ ev, l = .sup ev → Sup.Admissible j.proc.out (j.silent = true) ev
  spawned : ∀ pid, l = .sup (.spawned pid) → 0 < pid ∧ pid < 2 ^ 32
  begins : ∀ key params, l = .call key (.begin (.predict params)) → w.Takes params

/-- What the worker admits is what a label of the daemon may say. -/
theorem possible_of_admits {l : Label} (h : j.admits l = true) : j.Possible w l := by
  refine ⟨?_, ?_, ?_⟩
  · rintro ev rfl bytes rfl
    rw [admits] at h
    split at h
    · rename_i hempty
      rw [List.isEmpty_iff] at hempty
      simp only [Bool.and_eq_true, List.isEmpty_iff] at h
      exact ⟨fun hne => absurd hempty hne, fun _ => h⟩
    · rename_i hempty
      exact ⟨fun _ => List.isPrefixOf_iff_prefix.mp h,
        fun hnil => absurd hnil (by simpa using hempty)⟩
  · rintro pid rfl
    simpa [admits] using h
  · rintro key params rfl
    cases h

/-- A step is the daemon's or the worker's. -/
theorem step_cases (h : j.step w m = some j') :
    (∃ l, j.sys.step w.cx l = some j'.sys ∧ j.Possible w l ∧
      j'.proc = { j.proc with out := j.proc.out.drop (delivered l).length }) ∨
    ∃ ev pid, j.sys.sh.child = .running pid ∧ j'.sys = j.sys ∧
      j.proc.step w pid j.sys.sh.stdin j.sys.sup.released ev = some j'.proc := by
  cases m with
  | daemon l =>
    rw [step] at h
    split at h
    · rename_i hadm
      obtain ⟨sys, hsys, rfl⟩ := Option.map_eq_some_iff.mp h
      exact .inl ⟨l, hsys, possible_of_admits hadm, rfl⟩
    · cases h
  -- a handler begins a prediction: its params were taken of a body
  | predict key body =>
    rw [step] at h
    split at h
    · cases h
    · rename_i kinds params htaken
      obtain ⟨sys, hsys, rfl⟩ := Option.map_eq_some_iff.mp h
      refine .inl ⟨_, hsys, ⟨nofun, nofun, ?_⟩, rfl⟩
      rintro key' params' hl
      cases hl
      exact ⟨body, kinds, htaken⟩
  | worker ev =>
    rw [step] at h
    split at h
    · rename_i pid hchild
      obtain ⟨proc, hproc, rfl⟩ := Option.map_eq_some_iff.mp h
      exact .inr ⟨ev, pid, hchild, rfl, hproc⟩
    · cases h

/-- **The daemon of the joint system is the daemon.** -/
theorem runs_sys (h : (joint w).Runs j j') : (handle w.cx).Runs j.sys j'.sys := by
  refine Machine.Runs.map (N := handle w.cx) (f := Joint.sys) ?_ h
  intro j m j' hstep
  rcases step_cases hstep with ⟨l, hl, -⟩ | ⟨-, -, -, hsys, -⟩
  · exact (Machine.Runs.refl j.sys).step hl
  · rw [hsys]
    exact Machine.Runs.refl j.sys

/-- The handle reaches nothing with its worker that it does not reach alone. -/
theorem reachable_sys (h : (joint w).Reachable j) : (handle w.cx).Reachable j.sys := runs_sys h

/-! ### What is asked -/

end Joint

/-- A child that runs was running, or is spawned. -/
theorem Shared.running_apply {sh : Shared} {eff : Eff} {pid : Nat}
    (h : (sh.apply eff).child = .running pid) : sh.child = .running pid ∨ eff = .spawn pid := by
  cases eff with
  | spawn n =>
    cases h
    exact .inr rfl
  | reap =>
    refine .inl ?_
    simp only [apply] at h
    cases hc : sh.child <;> simp_all [Child.reap]
  | _ => exact .inl h

/-- Who was spawned stays so. -/
theorem Shared.spawned_mono {sh : Shared} (eff : Eff) :
    ∀ pid ∈ sh.spawned, pid ∈ (sh.apply eff).spawned := by
  intro pid h
  cases eff with
  | spawn n => exact List.mem_append_left _ h
  | _ => exact h

/-- A worker is spawned by the event that says so. -/
theorem Sup.step_spawn {cx : Ctx} {sh : Shared} {p p' : Sup} {ev : SupEv} {pid : Nat}
    (h : p.step cx sh ev = some (p', .spawn pid)) : ev = .spawned pid := by
  have hpc : p.pc = .spawning := Sup.step_does h
  simp only [Sup.step, hpc] at h
  cases ev <;> simp_all [killable]

/-- A prediction begins by the event that says so. -/
theorem Call.step_begins {cx : Ctx} {sh : Shared} {key : Nat} {ev : CallEv} {params : Json}
    {pc : PredictPc} {eff : Eff}
    (h : Call.idle.step cx sh key ev = some (.predict params pc, eff)) :
    ev = .begin (.predict params) := by
  cases ev with
  | begin request =>
    have hstart := Option.some.inj h
    cases request <;> simp only [Call.start] at hstart
    · split at hstart <;> cases hstart <;> rfl
    all_goals cases hstart
  | _ => cases h

namespace Sys

variable {σ : Type} {w : World σ} {j : Joint σ}

/-- Every request in the system is one that was taken, and the process ids are possible. -/
structure Asked (w : World σ) (s : Sys) : Prop where
  calls : ∀ key params pc, s.calls key = .predict params pc → w.Takes params
  jobs : ∀ job ∈ s.sh.jobs.accepted, job.params = .null ∨ w.Takes job.params
  pids : ∀ pid ∈ s.sh.spawned, 0 < pid ∧ pid < 2 ^ 32

/-- At the start nothing was requested. -/
theorem Asked.init (w : World σ) : (Sys.init w.cx).Asked w where
  calls key params pc h := by
    simp only [Sys.init] at h
    split at h <;> cases h
  jobs _ h := by simp [Sys.init] at h
  pids _ h := by simp [Sys.init] at h

variable {s : Sys}

/-- The supervisor adds no request but its own, and spawns a possible process. -/
theorem Asked.sup (hs : s.Asked w) {ev : SupEv} {p : Sup} {eff : Eff}
    (hpos : j.Possible w (.sup ev)) (hp : s.sup.step w.cx s.sh ev = some (p, eff)) :
    Asked w { s with sup := p, sh := s.sh.apply eff } := by
  refine ⟨hs.calls, by rw [accepted_of_sup hp]; exact hs.jobs, fun pid hpid => ?_⟩
  by_cases hspawn : ∃ n, eff = .spawn n
  · obtain ⟨n, rfl⟩ := hspawn
    rcases List.mem_append.mp hpid with hpid | hpid
    · exact hs.pids pid hpid
    · rw [List.mem_singleton.mp hpid]
      exact hpos.spawned n (by rw [Sup.step_spawn hp])
  · have hspawned : (s.sh.apply eff).spawned = s.sh.spawned :=
      Shared.spawned_apply (by simpa using hspawn)
    exact hs.pids pid (hspawned ▸ hpid)

/-- A call sends the request that it was begun with. -/
theorem Asked.call (hs : s.Asked w) {key : Nat} {ev : CallEv} {c : Call} {eff : Eff}
    (hpos : j.Possible w (.call key ev))
    (hc : (s.calls key).step w.cx s.sh key ev = some (c, eff)) :
    Asked w { s with calls := Function.update s.calls key c, sh := s.sh.apply eff } := by
  have hm := Call.step_moved hc
  have hcalls : ∀ k params pc, Function.update s.calls key c k = .predict params pc →
      w.Takes params := by
    intro k params pc hk
    by_cases he : k = key
    · subst he
      rw [Function.update_self] at hk
      subst hk
      -- a call that was idle begins with a request that was taken
      rcases hm.params params pc rfl with hidle | ⟨pc₀, hold⟩
      · rw [hidle] at hc
        exact hpos.begins k params (by rw [Call.step_begins hc])
      · exact hs.calls k params pc₀ hold
    · rw [Function.update_of_ne he] at hk
      exact hs.calls k params pc hk
  refine ⟨hcalls, fun job hjob => ?_, ?_⟩
  · rcases accepted_of_call hm.does with ha | ⟨params, ha, rfl, -⟩
    · exact hs.jobs job (ha ▸ hjob)
    · rcases List.mem_append.mp (ha ▸ hjob) with hjob | hjob
      · exact hs.jobs job hjob
      · -- the call's own job: its request, or a wake-up
        rw [List.mem_singleton.mp hjob]
        obtain ⟨-, -, -, -, ⟨-, hc'⟩ | ⟨-, hnull⟩⟩ := hm.does
        · exact .inr (hcalls key _ _ (by rw [Function.update_self, hc']))
        · exact .inl hnull
  · rw [show (s.sh.apply eff).spawned = _ from
      Shared.spawned_apply (not_spawn_of_call hm.does)]
    exact hs.pids

end Sys

namespace Joint

variable {σ : Type} {w : World σ} {j : Joint σ}

/-- In every reachable state each request is one that was taken. -/
theorem asked (h : (joint w).Reachable j) : j.sys.Asked w := by
  refine Machine.invariant_of_step (P := fun j : Joint σ => j.sys.Asked w) (.init w) ?_ h
  intro j m j' hs hstep
  rcases step_cases hstep with ⟨l, hl, hpos, -⟩ | ⟨-, -, -, hsys, -⟩
  · rcases Sys.step_cases hl with
      ⟨ev, p, eff, rfl, hp, hsys⟩ | ⟨key, ev, c, eff, rfl, hc, hsys⟩ | ⟨d, rfl, hsys⟩ |
      ⟨status, rfl, hsys⟩
    all_goals rw [hsys]
    · exact hs.sup hpos hp
    · exact hs.call hpos hc
    · exact ⟨hs.calls, hs.jobs, hs.pids⟩
    · exact ⟨hs.calls, hs.jobs, hs.pids⟩
  · rw [hsys]
    exact hs

/-- What the daemon sends is well formed. -/
theorem wellFormed_frames {parseFloat : String → PyFloat} (hw : w.Lawful parseFloat)
    (h : (joint w).Reachable j) : ∀ d ∈ j.sys.sup.frames, d.job.params.WellFormed := by
  intro d hd
  have hjob := (Sys.Served.reachable (reachable_sys h)).jobs.subset (List.mem_map_of_mem hd)
  rcases (asked h).jobs d.job hjob with hnull | htakes
  · rw [hnull]
    trivial
  · exact htakes.wellFormed hw

end Joint

/-! ### The order of the lines -/

/-- The replies are the lines after the first, as far as they are accepted. -/
theorem getElem?_replies : ∀ {lines : List LineRead}, (∀ l ∈ lines, l.Plain) →
    (∀ l ∈ lines.dropLast, l.fate ≠ .ended) → ∀ (n : Nat) (id : String) (body : Reply),
      (lines.filterMap LineRead.reply)[n]? = some (id, body) ↔
        ∃ line, lines[n]? = some line ∧ line.fate = .reply id body
  | [], _, _, n, id, body => by simp
  | line :: rest, hplain, hlast, n, id, body => by
    have ih := @getElem?_replies rest (fun l hl => hplain l (List.mem_cons_of_mem _ hl))
    cases hfate : line.fate with
    | ready info => exact absurd hfate (hplain line List.mem_cons_self info)
    | ended =>
      cases rest with
      | nil => cases n <;> simp [LineRead.reply, hfate]
      | cons next rest => exact absurd hfate (hlast line List.mem_cons_self)
    | reply id' body' =>
      have ih := ih (fun l hl => by
        cases rest with
        | nil => cases hl
        | cons next rest => exact hlast l (List.mem_cons_of_mem _ hl))
      have hreply : line.reply = some (id', body') := by rw [LineRead.reply, hfate]
      rw [List.filterMap_cons_some hreply]
      cases n with
      | zero => simp [hfate]
      | succ n => simpa using ih n id body

/-- No more requests are answered than were begun. -/
theorem Sup.Synced.replies_le {p : Sup} (h : p.Synced) : p.replies.length ≤ p.frames.length := by
  cases ho : p.outstanding with
  | none => rcases h.settled ho with he | ⟨he, -⟩ <;> omega
  | some o =>
    obtain ⟨before, f, he, -, -, hlen⟩ := h.outstanding o.1 o.2 ho
    rw [he, hlen, List.length_append]
    omega

namespace Sys

variable {cx : Ctx} {s : Sys}

/-- The ready line comes first, then the replies. -/
theorem lines_order (h : (handle cx).Reachable s) :
    (∀ (i : Nat) line info, s.sup.lines[i]? = some line → line.fate = .ready info → i = 0) ∧
    (∀ (i : Nat) line id body, s.sup.lines[i]? = some line → line.fate = .reply id body →
      ∃ n, i = n + 1) ∧
    ∀ (n : Nat) id body, s.sup.replies[n]? = some (id, body) →
      ∃ line, s.sup.lines[n + 1]? = some line ∧ line.fate = .reply id body := by
  have hs := Served.reachable h
  rcases (Handshake.reachable h).staged.weaken with ⟨hno, hle⟩ | ⟨first, rest, he, hfirst, hplain⟩
  · -- nothing was asked yet, so one line was read at most and no reply
    have hnone : s.sup.replies = [] := by
      have := hs.synced.replies_le
      rw [hno] at this
      exact List.length_eq_zero_iff.mp (Nat.le_zero.mp this)
    refine ⟨fun i line info hi _ => ?_, fun i line id body hi hf => ?_, by simp [hnone]⟩
    · have := (List.getElem?_eq_some_iff.mp hi).1
      omega
    · have hmem : (id, body) ∈ s.sup.replies :=
        List.mem_filterMap.mpr ⟨line, List.mem_of_getElem? hi, by rw [LineRead.reply, hf]⟩
      rw [hnone] at hmem
      cases hmem
  · -- the first line is the ready frame, and each later one a reply but the last
    obtain ⟨info₀, hinfo⟩ := hfirst
    refine ⟨fun i line info hi hf => ?_, fun i line id body hi hf => ?_, fun n id body hr => ?_⟩
    · cases i with
      | zero => rfl
      | succ i =>
        rw [he, List.getElem?_cons_succ] at hi
        exact absurd hf (hplain line (List.mem_of_getElem? hi) info)
    · cases i with
      | zero =>
        rw [he, List.getElem?_cons_zero, Option.some.injEq] at hi
        rw [← hi, hinfo] at hf
        cases hf
      | succ i => exact ⟨i, rfl⟩
    · rw [Sup.replies, he, List.filterMap_cons_none (by rw [LineRead.reply, hinfo])] at hr
      rw [he, List.getElem?_cons_succ]
      refine (getElem?_replies hplain (fun l hl => hs.parsed.last l ?_) n id body).mp hr
      rw [he]
      cases rest with
      | nil => cases hl
      | cons next rest => exact List.mem_cons_of_mem _ hl

end Sys

/-! ### What the lines mean -/

/-- What the start of the worker as process `pid` tells the daemon. -/
def World.greeting {σ : Type} (w : World σ) (pid : Nat) : Except String WorkerInfo :=
  Worker.greeting { w.runtime with pid } w.args w.agent w.startup

/-- The reply number `n` says what the worker made of the request number `n`. -/
def World.Replies {σ : Type} (w : World σ) (parseFloat : String → PyFloat)
    (frames : List Dispatch) (n : Nat) (body : Reply) : Prop :=
  ∃ s r, w.ready = some s ∧ (w.reactions parseFloat s frames)[n]? = some r ∧
    r.reply w.cx.host.f64Text = some body

/-- A reply stays the worker's as frames are added. -/
theorem World.Replies.mono {σ : Type} {w : World σ} {parseFloat : String → PyFloat}
    {frames frames' : List Dispatch} {n : Nat} {body : Reply}
    (h : w.Replies parseFloat frames n body) (hf : frames <+: frames') :
    w.Replies parseFloat frames' n body := by
  obtain ⟨s, r, hs, hr, hbody⟩ := h
  exact ⟨s, r, hs,
    getElem?_of_prefix (Worker.reactions_mono s (hf.map (Dispatch.asked parseFloat))) hr, hbody⟩

/-- What an accepted line comes from. -/
structure LineRead.Meant {σ : Type} (w : World σ) (parseFloat : String → PyFloat)
    (pids : List Nat) (frames : List Dispatch) (i : Nat) (line : LineRead) : Prop where
  ready : ∀ info, line.fate = .ready info → ∃ pid ∈ pids, w.greeting pid = .ok info
  reply : ∀ id body, line.fate = .reply id body →
    ∃ n, i = n + 1 ∧ w.Replies parseFloat frames n body

section

variable {σ : Type} {w : World σ} {parseFloat : String → PyFloat}

/-- What a line meant it goes on meaning as pids and frames are added. -/
theorem LineRead.Meant.mono {pids pids' : List Nat} {frames frames' : List Dispatch} {i : Nat}
    {line : LineRead} (h : line.Meant w parseFloat pids frames i)
    (hpids : ∀ pid ∈ pids, pid ∈ pids') (hframes : frames <+: frames') :
    line.Meant w parseFloat pids' frames' i where
  ready info hf := (h.ready info hf).imp fun _ hpid => hpid.imp_left (hpids _)
  reply id body hf := (h.reply id body hf).imp fun _ hn => hn.imp_right (·.mono hframes)

/-- An accepted line that is the text of a frame means what the frame does. -/
theorem meant_of_story (hw : w.Lawful parseFloat) {s : Sys} (hs : (handle w.cx).Reachable s)
    (hpids : ∀ pid ∈ s.sh.spawned, 0 < pid ∧ pid < 2 ^ 32) {pids : List Nat}
    (hspawned : ∀ pid ∈ pids, pid ∈ s.sh.spawned) {served : List Dispatch}
    (hserved : served <+: s.sup.frames) {p : Proc σ} (hstory : p.Story w parseFloat pids served)
    (hfollows : Sup.Follows p.frames s.sup.lines) {i : Nat} {line : LineRead}
    (hi : s.sup.lines[i]? = some line) :
    line.Meant w parseFloat s.sh.spawned s.sup.frames i := by
  obtain ⟨hfirst, hlater, -⟩ := Sys.lines_order hs
  have hsound := (Sys.Served.reachable hs).parsed.sound line (List.mem_of_getElem? hi)
  -- the line is a frame's text, so what it was parsed to is the frame's document
  have hframe : ∀ value, line.fate ≠ .ended → w.cx.host.fromStr line.text = .ok value →
      ∃ frame, p.frames[i]? = some frame ∧
        frame.document.toJson w.cx.host.f64Text = some value := by
    intro value hfate hvalue
    obtain ⟨frame, hframe, htext⟩ := hfollows i line hi hfate
    have hsend := hstory.sendable frame (List.mem_of_getElem? hframe)
    exact ⟨frame, hframe, Worker.fromStr_line hw.text hsend.2 (htext ▸ hvalue)⟩
  constructor
  · -- the first frame is the greeting of a process that was spawned
    intro info hfate
    simp only [LineRead.Sound, hfate] at hsound
    obtain ⟨value, hvalue, hparse⟩ := hsound
    obtain ⟨frame, hf, hdoc⟩ := hframe value (by simp [hfate]) hvalue
    obtain rfl := hfirst i line info hi hfate
    obtain ⟨pid, hpid, rfl⟩ := hstory.first frame hf
    have hpid := hspawned pid hpid
    have hrange : 0 < ({ w.runtime with pid } : Runtime).pid ∧
        ({ w.runtime with pid } : Runtime).pid < 2 ^ 32 := hpids pid hpid
    obtain ⟨-, -, hgreet⟩ := Worker.parseReady_main hrange hdoc
    exact ⟨pid, hpid, hgreet.symm.trans hparse⟩
  · -- a later one is the answer to its request, or names no request
    intro id body hfate
    simp only [LineRead.Sound, hfate] at hsound
    obtain ⟨value, hvalue, hparse⟩ := hsound
    obtain ⟨frame, hf, hdoc⟩ := hframe value (by simp [hfate]) hvalue
    obtain ⟨n, rfl⟩ := hlater i line id body hi hfate
    obtain ⟨s₀, d, hready, hd, ⟨r, hr, htells⟩ | ⟨code, message, rfl⟩⟩ := hstory.tells n frame hf
    · obtain ⟨body', hbody, hreply⟩ := Worker.parseReply_frame htells hdoc
      rw [hreply, Except.ok.injEq, ParsedReply.mk.injEq] at hparse
      exact ⟨n, rfl, World.Replies.mono ⟨s₀, r, hready, hr, hparse.2 ▸ hbody⟩ hserved⟩
    · rw [Worker.parseReply_null (by simp [Json.keys]) hdoc] at hparse
      cases hparse

end

/-! ### One step -/

/-- The worker writes, or has more to write. -/
theorem Sup.Following.feed {p : Sup} {frames new : List PyVal}
    {out out' pending pending' : List UInt8} {gone gone' : Prop}
    (h : p.Following frames out pending gone) (hgone : ¬ gone)
    (he : out' ++ pending' = out ++ (pending ++ (new.map Worker.lineBytes).flatten)) :
    p.Following (frames ++ new) out' pending' gone' := by
  obtain ⟨read, rest, rfl, htexts, hbuf, hstream⟩ := h
  refine ⟨read, rest ++ new, by simp, htexts, hbuf, .inl ?_⟩
  have hstream := hstream.resolve_right fun hg => hgone hg.1
  rw [List.map_append, List.flatten_append, hstream, he]
  simp

/-- The worker is gone, or there was nothing to read yet. -/
theorem Sup.Following.leave {p : Sup} {frames : List PyVal} {out pending : List UInt8}
    {gone gone' : Prop} (h : p.Following frames out pending gone)
    (hgone : gone → gone' ∨ p.lines = []) : p.Following frames out pending gone' := by
  obtain ⟨read, rest, rfl, htexts, hbuf, hstream⟩ := h
  refine ⟨read, rest, rfl, htexts, hbuf, hstream.imp_right fun ⟨hg, hne, hrest⟩ => ?_⟩
  refine ⟨(hgone hg).resolve_right fun hnil => hne ?_, hne, hrest⟩
  rw [hnil] at htexts
  exact List.map_eq_nil_iff.mp htexts.symm

namespace Joint

variable {σ : Type} {w : World σ} {parseFloat : String → PyFloat} {j j' : Joint σ}

/-- The end of the input was reached: the worker is over, or there is nothing left to read. -/
structure Finished (w : World σ) (parseFloat : String → PyFloat) (j : Joint σ) : Prop where
  done : (∃ agent, j.proc.phase = .over agent) ∨
    ∃ s, j.proc.phase = .serving s ∧ j.proc.unread j.sys.sh.stdin = []
  agent : ∀ s, j.proc.phase.agent = some s → w.Reached parseFloat j.sys.sup.frames s

/-- The worker that has emitted nothing but for what it has read, up to the end of the input. -/
theorem Finished.emit {proc : Proc σ} {frame : PyVal} {phase : Phase σ}
    (hphase : (∃ t, phase = .serving t) ∨ ∃ agent, phase = .over agent)
    (hunread : proc.unread j.sys.sh.stdin = [])
    (hagent : ∀ s, phase.agent = some s → w.Reached parseFloat j.sys.sup.frames s) :
    Finished w parseFloat { j with proc := proc.emit w frame phase } := by
  rcases Proc.emit_cases w proc frame phase with he | he <;> rw [he]
  · exact ⟨.inl ⟨_, rfl⟩, hagent⟩
  · rcases hphase with ⟨t, rfl⟩ | ⟨agent, rfl⟩
    · exact ⟨.inr ⟨t, rfl, hunread⟩, hagent⟩
    · exact ⟨.inl ⟨agent, rfl⟩, hagent⟩

/-- What the worker finds in its input, where it has read the requests `served`: the beginning
    of the others. -/
theorem unread_requests (hw : w.Lawful parseFloat) (hr : (joint w).Reachable j)
    {served : List Dispatch} (horder : served <+: j.sys.sup.frames)
    (hstory : j.proc.Story w parseFloat j.sys.sh.spawned served)
    (hne : j.proc.unread j.sys.sh.stdin ≠ []) :
    ∃ rest more, j.sys.sup.frames = served ++ rest ∧
      (∀ d ∈ rest, d.job.params.WellFormed) ∧
      j.proc.unread j.sys.sh.stdin ++ more = (rest.map (Dispatch.bytes w.cx)).flatten := by
  obtain ⟨rest, hrest⟩ := horder
  obtain ⟨more, hmore⟩ := (Sys.Served.reachable (reachable_sys hr)).sent
  refine ⟨rest, more, hrest.symm, fun d hd => wellFormed_frames hw hr d
    (hrest ▸ List.mem_append_right served hd), ?_⟩
  have hlines : j.proc.lines.flatten = served.flatMap (Dispatch.bytes w.cx) := by
    rw [hstory.lines, List.flatMap_def]
  have hwire : j.sys.sh.stdin ++ more =
      j.proc.lines.flatten ++ (rest.map (Dispatch.bytes w.cx)).flatten := by
    rw [hmore, Sup.wire, ← hrest, List.flatMap_append, hlines, ← List.flatMap_def (l := rest)]
  have hle : j.proc.lines.flatten.length ≤ j.sys.sh.stdin.length := by
    by_contra hlt
    exact hne (List.drop_of_length_le (by omega))
  rw [Proc.unread, ← List.drop_append_of_le_length hle, hwire, List.drop_left]

/-- The worker reads what is left of its input when the daemon has let go of it. -/
theorem finished_of_eof (hw : w.Lawful parseFloat) (hr : (joint w).Reachable j)
    {served : List Dispatch} (horder : served <+: j.sys.sup.frames)
    (hstory : j.proc.Story w parseFloat j.sys.sh.spawned served) {s : σ}
    (hphase : j.proc.phase = .serving s) (hne : j.proc.unread j.sys.sh.stdin ≠ [])
    (hline : nextLine (j.proc.unread j.sys.sh.stdin) = none) :
    Finished w parseFloat
      { j with proc := j.proc.serve w s (j.proc.unread j.sys.sh.stdin) } := by
  obtain ⟨rest, more, hframes, hwell, hunread⟩ := unread_requests hw hr horder hstory hne
  have hreached : w.Reached parseFloat j.sys.sup.frames s :=
    (hstory.agent s (by rw [hphase]; rfl)).mono horder
  have hnil : Proc.unread { j.proc with lines := j.proc.lines ++ [j.proc.unread j.sys.sh.stdin] }
      j.sys.sh.stdin = [] := by
    rw [Proc.unread, List.flatten_append, List.length_append, ← List.drop_drop]
    exact List.drop_of_length_le (by simp [Proc.unread])
  -- it is the beginning of the next request
  have hno : newline ∉ j.proc.unread j.sys.sh.stdin := by
    intro hmem
    rw [nextLine, Option.map_eq_none_iff, List.findIdx?_eq_none_iff] at hline
    exact absurd (hline _ hmem) (by decide)
  have hframed : Framed newline (rest.map (Dispatch.bytes w.cx)) := by
    intro frame hframe
    obtain ⟨d, hd, rfl⟩ := List.mem_map.mp hframe
    exact Dispatch.isFrame_bytes hw.vec (hwell d hd)
  obtain ⟨body, others, hbody, hbegins⟩ := hframed.part hno hne hunread.symm
  obtain ⟨d, rest', rfl, hd, -⟩ := List.map_eq_cons_iff.mp hbody
  have hcompact : body = Json.compact (Sup.predictFrame d.id d.job.params) := by
    rw [← hw.vec]
    exact (List.append_cancel_right hd).symm
  rw [hcompact] at hbegins
  have hwf := hwell d List.mem_cons_self
  cases hdecode : PyStr.decode (j.proc.unread j.sys.sh.stdin) with
  | none =>
    unfold Proc.serve
    simp only [hdecode]
    exact ⟨.inl ⟨_, rfl⟩, fun t ht => by cases ht; exact hreached⟩
  | some raw =>
    by_cases hwhole : j.proc.unread j.sys.sh.stdin =
        Json.compact (Sup.predictFrame d.id d.job.params)
    · -- all of it but the line break
      have hstrip : raw.strip =
          (Json.text (Sup.predictFrame d.id d.job.params)).map PyStr.ofChar :=
        Worker.strip_compact (hwhole ▸ hdecode)
      have hmore : served ++ [d] <+: j.sys.sup.frames :=
        ⟨rest', by rw [hframes, List.append_assoc]; rfl⟩
      rcases Proc.serve_request hw hwf hdecode hstrip j.proc s with ⟨frame, phase, hpass, he⟩ | he
      · rw [he]
        refine Finished.emit ?_ hnil fun t ht => (hstory.agent_next hphase hpass t ht).mono hmore
        rcases hpass with ⟨-, rfl | rfl⟩ | ⟨-, rfl⟩
        · exact .inr ⟨_, rfl⟩
        · exact .inl ⟨_, rfl⟩
        · exact .inr ⟨_, rfl⟩
      · rw [he]
        refine ⟨.inl ⟨_, rfl⟩, fun t ht => ?_⟩
        cases ht
        exact (hstory.agent_after hphase d).mono hmore
    · unfold Proc.serve
      rcases Worker.serveLine_truncated hw.nests hwf hdecode hbegins hwhole w.agent s with
        he | ⟨code, message, he⟩
      · simp only [hdecode, he]
        exact ⟨.inr ⟨s, rfl, hnil⟩, fun t ht => by cases ht; exact hreached⟩
      · simp only [hdecode, he]
        exact Finished.emit (.inr ⟨_, rfl⟩) hnil fun t ht => by cases ht; exact hreached

/-- What the worker has done, in terms of the requests it was sent. -/
def Works (w : World σ) (parseFloat : String → PyFloat) (j : Joint σ) (served : List Dispatch) :
    Prop :=
  served <+: j.sys.sup.frames ∧ (j.proc.Story w parseFloat j.sys.sh.spawned served ∨
    (j.sys.sup.outcome.isSome ∧ j.Finished w parseFloat))

/-- **One step of the worker.** -/
theorem Works.worker (hw : w.Lawful parseFloat) (hr : (joint w).Reachable j)
    {served : List Dispatch} (h : j.Works w parseFloat served) {pid : Nat}
    (hchild : j.sys.sh.child = .running pid) {ev : WorkerEv} {proc : Proc σ}
    (hstep : j.proc.step w pid j.sys.sh.stdin j.sys.sup.released ev = some proc) :
    ∃ served, Works w parseFloat { j with proc } served := by
  obtain ⟨horder, hstory | ⟨hout, hfinished⟩⟩ := h
  · -- the worker follows its story: each event of `Proc.step` adds its part
    cases ev with
    | start =>
      simp only [Proc.step] at hstep
      split at hstep
      · rename_i hphase
        have hpid : pid ∈ j.sys.sh.spawned :=
          (Sys.Raised.reachable (reachable_sys hr)).owned.pid pid (by rw [hchild]; rfl)
        have hpid32 := ((asked hr).pids pid hpid).2
        split at hstep
        · rename_i frame s hmain
          cases hstep
          have hstart := hstory.start hw hphase hpid hpid32
            (.inr ⟨s, World.ready_of_started (show w.started pid = _ from hmain), rfl⟩)
          rw [World.started, hmain] at hstart
          exact ⟨served, horder, .inl hstart⟩
        · rename_i frame hmain
          cases hstep
          have hstart := hstory.start hw hphase hpid hpid32 (.inl rfl)
          rw [World.started, hmain] at hstart
          exact ⟨served, horder, .inl hstart⟩
      · cases hstep
    | line =>
      simp only [Proc.step] at hstep
      split at hstep
      · rename_i s bytes hphase hpending hline
        cases hstep
        have hne : j.proc.unread j.sys.sh.stdin ≠ [] := by
          intro hnil
          rw [hnil] at hline
          cases hline
        -- what is unread are whole frames of requests, so the next line is the next request
        obtain ⟨rest, more, hframes, hwell, hunread⟩ :=
          unread_requests hw hr horder hstory hne
        obtain ⟨d, rest', rfl, rfl⟩ := nextLine_requests hw.vec hwell hunread hline
        exact ⟨served ++ [d], ⟨rest', by simpa using hframes.symm⟩,
          .inl (hstory.serve hw hphase (hwell d List.mem_cons_self))⟩
      · cases hstep
    | eof =>
      simp only [Proc.step] at hstep
      split at hstep
      · rename_i s hphase hpending hend
        rw [Bool.and_eq_true, Option.isNone_iff_eq_none] at hend
        split at hstep
        · -- nothing is left over: the stream has ended between two frames
          cases hstep
          exact ⟨served, horder, .inl (hstory.stop fun t ht => hstory.agent t (by
            rw [hphase]
            exact ht))⟩
        · -- part of a line is left: the session is over, and gave up the frame it was writing
          rename_i hne
          cases hstep
          have hout : j.sys.sup.outcome.isSome = true :=
            ((Bool.and_eq_true _ _).mp hend.1).1
          exact ⟨served, horder, .inr ⟨hout, finished_of_eof hw hr horder hstory hphase
            (by simpa using hne) hend.2⟩⟩
      · cases hstep
    | write n =>
      simp only [Proc.step] at hstep
      split at hstep
      · cases hstep
        exact ⟨served, horder, .inl (hstory.written _ _)⟩
      · cases hstep
    | brokenPipe =>
      simp only [Proc.step] at hstep
      split at hstep
      · cases hstep
        exact ⟨served, horder, .inl ((hstory.stop hstory.agent).written _ _)⟩
      · cases hstep
  · -- only what was emitted is still written
    refine ⟨served, horder, .inr ⟨hout, ?_⟩⟩
    cases ev with
    | start | line =>
      rcases hfinished.done with ⟨agent, hphase⟩ | ⟨s, hphase, hnil⟩
      · simp [Proc.step, hphase] at hstep
      · simp [Proc.step, hphase, hnil, nextLine] at hstep
    | eof =>
      rcases hfinished.done with ⟨agent, hphase⟩ | ⟨s, hphase, hnil⟩
      · simp [Proc.step, hphase] at hstep
      · simp only [Proc.step, hphase, hnil] at hstep
        split at hstep
        · rename_i t hserving hpending hend
          cases hserving
          cases hstep
          exact ⟨.inl ⟨_, rfl⟩, fun t ht => hfinished.agent t (by rw [hphase]; exact ht)⟩
        · cases hstep
    | write n =>
      simp only [Proc.step] at hstep
      split at hstep
      · cases hstep
        exact ⟨hfinished.done, hfinished.agent⟩
      · cases hstep
    | brokenPipe =>
      simp only [Proc.step] at hstep
      split at hstep
      · cases hstep
        exact ⟨.inl ⟨_, rfl⟩, hfinished.agent⟩
      · cases hstep

/-! ### The session -/

/-- The lines the daemon reads are the frames the worker emits, in order. -/
structure InStep (j : Joint σ) : Prop where
  follows : Sup.Follows j.proc.frames j.sys.sup.lines
  following : j.sys.sup.Following j.proc.frames j.proc.out j.proc.pending (j.silent = true)

/-- The two are in step until the outcome of the session is decided, and what was accepted in it
    means what it says. -/
structure Linked (w : World σ) (parseFloat : String → PyFloat) (j : Joint σ) : Prop where
  work : ∃ served, j.Works w parseFloat served
  session : j.sys.sup.outcome = none → j.InStep
  lines : ∀ (i : Nat) line, j.sys.sup.lines[i]? = some line →
    line.Meant w parseFloat j.sys.sh.spawned j.sys.sup.frames i

/-- At the start the two are in step. -/
theorem Linked.init (w : World σ) (parseFloat : String → PyFloat) :
    (joint w).init.Linked w parseFloat where
  work := ⟨[], List.nil_prefix, .inl (.init w parseFloat _)⟩
  session _ := ⟨fun _ _ h => by simp [joint, Sys.init, Sup.init] at h,
    [], [], rfl, rfl, by simp [joint, Sys.init, Sup.init], .inl rfl⟩
  lines _ _ h := by simp [joint, Sys.init, Sup.init] at h

/-- A worker that takes a step is not silent. -/
theorem not_silent_of_step {pid : Nat} (hchild : j.sys.sh.child = .running pid)
    {input : List UInt8} {closed : Bool} {ev : WorkerEv} {proc : Proc σ}
    (hstep : j.proc.step w pid input closed ev = some proc) : ¬ j.silent = true := by
  intro hsilent
  simp only [silent, hchild, Child.isRunning, Bool.not_true, Bool.false_or, Bool.and_eq_true,
    List.isEmpty_iff] at hsilent
  obtain ⟨hover, hpending⟩ := hsilent
  rcases hphase : j.proc.phase with _ | _ | agent
  · simp [Phase.isOver, hphase] at hover
  · simp [Phase.isOver, hphase] at hover
  · cases ev <;> simp [Proc.step, hphase, hpending] at hstep
    omega

/-- The worker takes a step. -/
theorem InStep.worker (h : j.InStep) (ho : j.sys.sup.outcome = none) {pid : Nat}
    (hchild : j.sys.sh.child = .running pid) {ev : WorkerEv} {proc : Proc σ}
    (hstep : j.proc.step w pid j.sys.sh.stdin j.sys.sup.released ev = some proc) :
    InStep { j with proc } := by
  have hopen : j.sys.sup.released = false := by simp [Sup.released, ho]
  obtain ⟨new, hframes, hflow⟩ := (Proc.step_flow hstep).resolve_left (by simp [hopen])
  refine ⟨h.follows.mono ?_, ?_⟩
  · rw [hframes]
    exact List.prefix_append _ _
  · rw [hframes]
    exact h.following.feed (not_silent_of_step hchild hstep) hflow

/-- A child that does not run only runs once another is spawned. -/
theorem isRunning_apply {sh : Shared} {eff : Eff} (he : ∀ pid, eff ≠ .spawn pid)
    (h : sh.child.isRunning = false) : (sh.apply eff).child.isRunning = false := by
  cases hc : (sh.apply eff).child with
  | running pid =>
    rcases Shared.running_apply hc with hc | hc
    · rw [hc] at h
      cases h
    · exact absurd hc (he pid)
  | _ => rfl

/-- What is silent stays so, unless another child is spawned. -/
theorem silent_apply {sys : Sys} (hchild : j.sys.sh.child.isRunning = false →
    sys.sh.child.isRunning = false) (out : List UInt8) (h : j.silent = true) :
    silent { sys, proc := { j.proc with out } } = true := by
  simp only [silent, Bool.or_eq_true, Bool.not_eq_true'] at h ⊢
  exact h.imp_left hchild

/-- The supervisor takes a step. -/
theorem InStep.sup (hw : w.Lawful parseFloat) (hr : (joint w).Reachable j) (h : j.InStep)
    (hsend : ∀ frame ∈ j.proc.frames, Sendable w.cx.host.f64Text frame) {ev : SupEv} {p : Sup}
    {eff : Eff} (hpos : j.Possible w (.sup ev))
    (hp : j.sys.sup.step w.cx j.sys.sh ev = some (p, eff)) :
    Sup.Follows j.proc.frames p.lines ∧
      (p.outcome = none → InStep {
        sys := { j.sys with sup := p, sh := j.sys.sh.apply eff }
        proc := { j.proc with out := j.proc.out.drop (delivered (.sup ev)).length } }) := by
  obtain ⟨hfollows, hnext⟩ :=
    h.following.step hw.text hsend h.follows (hpos.read ev rfl) hp
  refine ⟨hfollows, fun ho => ⟨hfollows, ?_⟩⟩
  have htaking : delivered (.sup ev) = Sup.taking ev := by cases ev <;> rfl
  rw [htaking]
  refine (hnext.resolve_left (by simp [ho])).leave fun hg => ?_
  by_cases he : ∃ pid, eff = .spawn pid
  · -- before the worker is spawned there is nothing to read
    obtain ⟨pid, rfl⟩ := he
    have hpc : j.sys.sup.pc = .spawning := Sup.step_does hp
    have hstaged := (Sys.Handshake.reachable (reachable_sys hr)).staged
    simp only [Sup.Staged, hpc] at hstaged
    rcases Sup.step_lines hp with hl | ⟨-, -, -, -, -, hread⟩
    · exact .inr (hl.trans hstaged.2.1)
    · rcases hread with hread | hread <;> cases hpc.symm.trans hread
  · exact .inl (silent_apply (isRunning_apply (by simpa using he)) _ hg)

/-- What the daemon does leaves what the worker has done as it is. -/
theorem Works.keep {served : List Dispatch} (h : j.Works w parseFloat served) {sys : Sys}
    (hframes : j.sys.sup.frames <+: sys.sup.frames)
    (hspawned : ∀ pid ∈ j.sys.sh.spawned, pid ∈ sys.sh.spawned)
    (hsettled : j.sys.sup.outcome.isSome →
      sys.sup.outcome.isSome ∧ sys.sh.stdin = j.sys.sh.stdin) (out : List UInt8) :
    Works w parseFloat { sys, proc := { j.proc with out } } served := by
  obtain ⟨horder, hstory | ⟨hout, hfinished⟩⟩ := h
  · exact ⟨horder.trans hframes, .inl ((hstory.mono hspawned).written _ out)⟩
  · obtain ⟨hout', hstdin⟩ := hsettled hout
    refine ⟨horder.trans hframes, .inr ⟨hout', ?_, fun s hs => (hfinished.agent s hs).mono hframes⟩⟩
    rw [show Joint.sys { sys, proc := { j.proc with out } } = sys from rfl, hstdin]
    exact hfinished.done

/-- The frames the worker has emitted, while the session goes on. -/
theorem Linked.sendable (h : j.Linked w parseFloat) (ho : j.sys.sup.outcome = none) :
    ∃ served, served <+: j.sys.sup.frames ∧
      j.proc.Story w parseFloat j.sys.sh.spawned served := by
  obtain ⟨served, horder, hstory | ⟨hout, -⟩⟩ := h.work
  · exact ⟨served, horder, hstory⟩
  · simp [ho] at hout

/-- **One step keeps the two in step.** -/
theorem Linked.step (hw : w.Lawful parseFloat) (hr : (joint w).Reachable j)
    (h : j.Linked w parseFloat) {m : Move} (hstep : j.step w m = some j') :
    j'.Linked w parseFloat := by
  have hr' := hr.step (l := m) hstep
  have hc := (Sys.Handshake.reachable (reachable_sys hr)).coherent
  rcases step_cases hstep with ⟨l, hl, hpos, hproc⟩ | ⟨ev, pid, hchild, hsys, hproc⟩
  · obtain ⟨sys', proc'⟩ := j'
    dsimp only at hl hproc
    rcases Sys.step_cases hl with
      ⟨ev, p, eff, rfl, hp, rfl⟩ | ⟨key, ev, c, eff, rfl, hcall, rfl⟩ | ⟨d, rfl, rfl⟩ |
      ⟨status, rfl, rfl⟩
    all_goals subst hproc
    · -- after the session the supervisor writes nothing more
      have hsettled : j.sys.sup.outcome.isSome →
          p.outcome.isSome ∧ (j.sys.sh.apply eff).stdin = j.sys.sh.stdin := by
        intro hout
        obtain ⟨o, ho⟩ := Option.isSome_iff_exists.mp hout
        refine ⟨by rw [(Sup.step_settled hc ho hp).1]; rfl, Shared.stdin_apply ?_⟩
        rintro bytes rfl
        obtain ⟨id, key, rest, hpc, -⟩ := Sup.step_does hp
        simp only [Sup.Coherent, hpc] at hc
        rw [hc.1] at ho
        cases ho
      refine ⟨?_, fun ho => ?_, fun i line hi => ?_⟩
      · obtain ⟨served, hworks⟩ := h.work
        exact ⟨served, hworks.keep (Sup.frames_mono hp) (Shared.spawned_mono eff) hsettled _⟩
      · -- an outcome is never taken back
        have hold : j.sys.sup.outcome = none := by
          by_contra hne
          have := (hsettled (Option.isSome_iff_ne_none.mpr hne)).1
          simp [show p.outcome = none from ho] at this
        obtain ⟨served, -, hstory⟩ := h.sendable hold
        exact ((h.session hold).sup hw hr hstory.sendable hpos hp).2 ho
      · cases ho : j.sys.sup.outcome with
        -- a line that is filed during the session is a frame the worker emitted
        | none =>
          obtain ⟨served, horder, hstory⟩ := h.sendable ho
          exact meant_of_story hw (reachable_sys hr') (asked hr').pids (Shared.spawned_mono eff)
            (horder.trans (Sup.frames_mono hp)) hstory
            ((h.session ho).sup hw hr hstory.sendable hpos hp).1 hi
        -- no line is filed after it
        | some o =>
          obtain ⟨-, -, -, hlines, -⟩ := Sup.step_settled hc ho hp
          exact (h.lines i line (hlines ▸ hi)).mono (Shared.spawned_mono eff) (Sup.frames_mono hp)
    · -- a call touches neither the pipe nor the child
      have hd := (Call.step_moved hcall).does
      have he := Sys.not_spawn_of_call hd
      have hstdin : (j.sys.sh.apply eff).stdin = j.sys.sh.stdin :=
        Shared.stdin_apply (by rintro bytes rfl; exact hd)
      have hspawned : (j.sys.sh.apply eff).spawned = j.sys.sh.spawned := Shared.spawned_apply he
      refine ⟨?_, fun ho => ⟨(h.session ho).follows, ?_⟩,
        fun i line hi => hspawned ▸ h.lines i line hi⟩
      · obtain ⟨served, hworks⟩ := h.work
        refine ⟨served, hworks.keep ?_ (Shared.spawned_mono eff) ?_ _⟩
        · exact List.prefix_rfl
        · exact fun hout => ⟨hout, hstdin⟩
      · exact (h.session ho).following.leave fun hg => .inl (silent_apply (isRunning_apply he) _ hg)
    · -- time passes
      refine ⟨?_, fun ho => ⟨(h.session ho).follows, (h.session ho).following⟩, h.lines⟩
      obtain ⟨served, hworks⟩ := h.work
      refine ⟨served, hworks.keep ?_ ?_ ?_ _⟩
      · exact List.prefix_rfl
      · exact fun _ => id
      · exact fun hout => ⟨hout, rfl⟩
    · -- the process exits, and what it has not written is lost
      refine ⟨?_, fun ho => ⟨(h.session ho).follows, ?_⟩, h.lines⟩
      · obtain ⟨served, hworks⟩ := h.work
        refine ⟨served, hworks.keep ?_ ?_ ?_ _⟩
        · exact List.prefix_rfl
        · exact fun _ => id
        · exact fun hout => ⟨hout, rfl⟩
      · refine (h.session ho).following.leave fun hg => .inl (silent_apply (fun hno => ?_) _ hg)
        show (j.sys.sh.child.exit status).isRunning = false
        cases hchild : j.sys.sh.child <;> simp_all [Child.exit, Child.isRunning]
  · -- the worker's own step
    have hj' : j' = { j with proc := j'.proc } := by rw [← hsys]
    refine ⟨?_, fun ho => ?_, by rw [hsys]; exact h.lines⟩
    · obtain ⟨served, hworks⟩ := h.work
      rw [hj']
      exact hworks.worker hw hr hchild hproc
    · rw [hsys] at ho
      rw [hj']
      exact (h.session ho).worker ho hchild hproc

/-- **The daemon and the worker are in step in every run.** -/
theorem linked (hw : w.Lawful parseFloat) (h : (joint w).Reachable j) : j.Linked w parseFloat :=
  Machine.Reachable.induct (P := fun j : Joint σ => j.Linked w parseFloat)
    (.init w parseFloat) (fun _ _ _ hr hs hstep => hs.step hw hr hstep) h

end Joint

end Layad
