import Layad.Joint.Machine
import Layad.Worker.Synchronisation

namespace Layad

open Transition

/-!
# What the worker has done

The worker reads the requests in the order they were written, and each reaction comes from the
state of the agent that the requests before it have left (`Worker.reactions`).  Its frames are
the one of its start and then one for each request it has read (`Proc.Story`); a step keeps
that as long as the daemon holds the other end of the pipes (`Proc.Story.step`).
-/

namespace Worker

variable {σ : Type} {py : PyHost} {agent : Agent σ}

/-- What becomes of requests that are read one after another. -/
def reactions (py : PyHost) (agent : Agent σ) : σ → List PyVal → List Reaction
  | _, [] => []
  | s, params :: rest =>
    (react py agent s params).1 :: reactions py agent (react py agent s params).2 rest

/-- The state of the agent after them. -/
def after (py : PyHost) (agent : Agent σ) (s : σ) (requests : List PyVal) : σ :=
  requests.foldl (fun s params => (react py agent s params).2) s

/-- One more request: the agent is asked it in the state the others left. -/
theorem after_concat (s : σ) (requests : List PyVal) (params : PyVal) :
    after py agent s (requests ++ [params]) =
      (react py agent (after py agent s requests) params).2 := by
  simp [after]

/-- The reactions to further requests are those in the state the first ones left. -/
theorem reactions_append (s : σ) (requests requests' : List PyVal) :
    reactions py agent s (requests ++ requests') =
      reactions py agent s requests ++
        reactions py agent (after py agent s requests) requests' := by
  induction requests generalizing s with
  | nil => rfl
  | cons params rest ih => rw [List.cons_append, reactions, reactions, ih]; rfl

/-- There is one reaction for each request. -/
theorem length_reactions (s : σ) (requests : List PyVal) :
    (reactions py agent s requests).length = requests.length := by
  induction requests generalizing s with
  | nil => rfl
  | cons params rest ih => rw [reactions, List.length_cons, ih, List.length_cons]

/-- More requests only add reactions. -/
theorem reactions_mono (s : σ) {requests requests' : List PyVal} (h : requests <+: requests') :
    reactions py agent s requests <+: reactions py agent s requests' := by
  obtain ⟨rest, rfl⟩ := h
  rw [reactions_append]
  exact List.prefix_append _ _

end Worker

/-- The parameters of a request as the worker reads them. -/
def Dispatch.asked (parseFloat : String → PyFloat) (d : Dispatch) : PyVal :=
  d.job.params.toPy parseFloat

/-- What the worker makes of the requests, where `s` is the state it starts to serve in. -/
def World.reactions {σ : Type} (w : World σ) (parseFloat : String → PyFloat) (s : σ)
    (requests : List Dispatch) : List Worker.Reaction :=
  Worker.reactions w.py w.agent s (requests.map (Dispatch.asked parseFloat))

/-- The start of the worker as the process `pid`. -/
def World.started {σ : Type} (w : World σ) (pid : Nat) : Worker.Started σ :=
  Worker.main { w.runtime with pid } w.args w.agent w.startup

/-- The state the worker starts to serve in. -/
def World.ready {σ : Type} (w : World σ) : Option σ :=
  match w.started 0 with
  | .ready _ s => some s
  | .failed _ => none

/-- A start that went well leaves an agent that was warmed up. -/
theorem World.ready_of_started {σ : Type} {w : World σ} {pid : Nat} {frame : PyVal} {s : σ}
    (h : w.started pid = .ready frame s) : w.ready = some s := by
  unfold World.ready
  unfold World.started Worker.main at h ⊢
  cases hload : w.startup.load with
  | error err => simp [hload] at h
  | ok t =>
    simp only [hload] at h ⊢
    cases hbudget : Worker.applyMemoryBudget w.args w.startup.mlx with
    | error err => simp [hbudget] at h
    | ok limits =>
      simp only [hbudget] at h ⊢
      rcases hwarm : Worker.warmup w.args w.agent t with ⟨err | types, u⟩
      · simp [hwarm] at h
      · simp only [hwarm, Worker.Started.ready.injEq] at h ⊢
        rw [h.2]

/-- A frame whose line can be told from its beginnings: a dict with numbers as the daemon has
    them. -/
def Sendable (f64Text : String → Option String) (frame : PyVal) : Prop :=
  (∃ members, frame = .dict members) ∧ frame.Every (PyVal.NumberLeaf f64Text)

/-- What is assumed of the libraries of both sides: `serde_json` prints compactly, reads JSON
    texts only and reads them as what they say, `json.loads` reads them as what they say and
    no text whose brackets are not in order, the numbers the agent returns are those of JSON,
    and the memory budget is one the daemon can ask for. -/
structure World.Lawful {σ : Type} (w : World σ) (parseFloat : String → PyFloat) : Prop where
  vec : w.cx.host.toVec = Json.compact
  document : w.cx.host.ReadsJson
  reals : PrintsReals w.cx.host.f64Text
  text : w.cx.host.ReadsText
  loads : w.py.ReadsJson parseFloat
  nests : w.py.Nests
  numbers : ∀ s state questions value t, w.agent.predict s state questions = (.ok value, t) →
    value.Every (PyVal.NumberLeaf w.cx.host.f64Text)
  memory : 0 ≤ w.args.memoryMb ∧ w.args.memoryMb < 2 ^ 64

section

variable {σ : Type} {w : World σ} {parseFloat : String → PyFloat}

/-! ### The frames are sendable -/

/-- The numbers of a reply are those of JSON. -/
theorem World.Lawful.numeral (hw : w.Lawful parseFloat) (s : σ) (params : PyVal) :
    (Worker.react w.py w.agent s params).1.Numeral w.cx.host.f64Text := by
  unfold Worker.react
  split
  · trivial
  · trivial
  · split
    · exact hw.numbers _ _ _ _ _ ‹_›
    · rename_i err _ _
      dsimp only
      split
      · cases err.text <;> trivial
      · trivial

/-- The frame of a reaction is sendable. -/
theorem sendable_reaction (hw : w.Lawful parseFloat) {s : σ} {params : PyVal} {id : String}
    {frame : PyVal}
    (h : (Worker.react w.py w.agent s params).1.frame (.text id) = some frame) :
    Sendable w.cx.host.f64Text frame := by
  refine ⟨?_, Worker.Reaction.every_frame (hw.numeral s params) h⟩
  cases hr : (Worker.react w.py w.agent s params).1 with
  | raised =>
    rw [hr] at h
    cases h
  | result | rejected | failed =>
    rw [hr] at h
    cases h
    exact ⟨_, rfl⟩

/-- A fatal frame is sendable. -/
theorem sendable_fatal (f64Text : String → Option String) (code : String) (message : PyStr) :
    Sendable f64Text (Worker.fatal code message .null) :=
  ⟨⟨_, rfl⟩, trivial, trivial, trivial, ⟨trivial, trivial, trivial⟩, trivial⟩

/-- What holds of every text holds of the items of a list of names. -/
theorem everyItem_text {p : PyVal → Prop} (hp : ∀ s, p (.str s)) (names : List String) :
    PyVal.EveryItem p (names.map PyVal.text) := by
  induction names with
  | nil => trivial
  | cons name rest ih => exact ⟨hp _, ih⟩

/-- The frame of a start is sendable. -/
theorem sendable_started (hw : w.Lawful parseFloat) {pid : Nat} (hpid : pid < 2 ^ 32) :
    Sendable w.cx.host.f64Text (w.started pid).frame := by
  have hp : PyVal.NumberLeaf w.cx.host.f64Text (.int pid) := by
    show (-2 ^ 63 : Int) ≤ pid ∧ (pid : Int) < 2 ^ 64
    omega
  have hone : PyVal.NumberLeaf w.cx.host.f64Text (.int Worker.protocolVersion) := by
    show (-2 ^ 63 : Int) ≤ 1 ∧ (1 : Int) < 2 ^ 64
    omega
  have hm : PyVal.NumberLeaf w.cx.host.f64Text (.int w.args.memoryMb) := by
    have := hw.memory
    show (-2 ^ 63 : Int) ≤ w.args.memoryMb ∧ w.args.memoryMb < 2 ^ 64
    omega
  have hfailure : ∀ code message, Sendable w.cx.host.f64Text
      (Worker.failureFrame { w.runtime with pid } code message) := fun code message =>
    ⟨⟨_, rfl⟩, trivial, hone, hp, ⟨trivial, trivial, trivial⟩, trivial⟩
  unfold World.started Worker.main
  split
  · exact hfailure _ _
  · split
    · exact hfailure _ _
    · split
      · exact hfailure _ _
      · rename_i types t hwarm
        rw [Worker.warmup_ok hwarm]
        exact ⟨⟨_, rfl⟩, trivial, hone, hp, trivial, trivial, trivial, trivial, trivial, trivial,
          trivial, trivial, everyItem_text (fun _ => trivial) _, hm, trivial⟩

/-- The agent was asked the first of the requests, each once and in order. -/
def World.Reached (w : World σ) (parseFloat : String → PyFloat) (requests : List Dispatch)
    (s : σ) : Prop :=
  ∃ s₀ handled, w.ready = some s₀ ∧ handled <+: requests ∧
    s = Worker.after w.py w.agent s₀ (handled.map (Dispatch.asked parseFloat))

/-- The agent was asked the first of more requests, too. -/
theorem World.Reached.mono {requests requests' : List Dispatch} {s : σ}
    (h : w.Reached parseFloat requests s) (hmono : requests <+: requests') :
    w.Reached parseFloat requests' s := by
  obtain ⟨s₀, handled, hs₀, hhandled, rfl⟩ := h
  exact ⟨s₀, handled, hs₀, hhandled.trans hmono, rfl⟩

/-! ### The history of the worker -/

namespace Proc

/-- The history of a worker, one of the processes `pids`, that has read the requests
    `served`. -/
structure Story (w : World σ) (parseFloat : String → PyFloat) (pids : List Nat)
    (served : List Dispatch) (p : Proc σ) : Prop where
  lines : p.lines = served.map (Dispatch.bytes w.cx)
  /-- The first frame is that of the start. -/
  first : ∀ frame, p.frames[0]? = some frame →
    ∃ pid ∈ pids, frame = (w.started pid).frame
  /-- Each later frame says what became of its request, or names none. -/
  tells : ∀ (i : Nat) (frame : PyVal), p.frames[i + 1]? = some frame → ∃ s d,
    w.ready = some s ∧ served[i]? = some d ∧
      ((∃ r, (w.reactions parseFloat s served)[i]? = some r ∧
          r.frame (.text d.id) = some frame) ∨
        ∃ code message, frame = Worker.fatal code message .null)
  loading : p.phase = .loading → p.frames = [] ∧ served = []
  agent : ∀ s, p.phase.agent = some s → w.Reached parseFloat served s
  serving : ∀ s, p.phase = .serving s → ∃ s₀, w.ready = some s₀ ∧
    s = Worker.after w.py w.agent s₀ (served.map (Dispatch.asked parseFloat)) ∧
    p.frames.length = served.length + 1
  sendable : ∀ frame ∈ p.frames, Sendable w.cx.host.f64Text frame

variable {p p' : Proc σ} {pids : List Nat} {served : List Dispatch}

/-- The history of a worker that has not started. -/
theorem Story.init (w : World σ) (parseFloat : String → PyFloat) (pids : List Nat) :
    (Proc.init : Proc σ).Story w parseFloat pids [] where
  lines := rfl
  first _ h := by simp [Proc.init] at h
  tells _ _ h := by simp [Proc.init] at h
  loading _ := ⟨rfl, rfl⟩
  agent _ h := by simp [Proc.init, Phase.agent] at h
  serving _ h := by simp [Proc.init] at h
  sendable _ h := by simp [Proc.init] at h

/-- More processes were spawned. -/
theorem Story.mono (h : p.Story w parseFloat pids served) {pids' : List Nat}
    (hmono : ∀ pid ∈ pids, pid ∈ pids') : p.Story w parseFloat pids' served :=
  ⟨h.lines, fun frame hf => (h.first frame hf).imp fun _ hpid => hpid.imp_left (hmono _),
    h.tells, h.loading, h.agent, h.serving, h.sendable⟩

/-- The bytes that are still to be written, or were, decide nothing. -/
theorem Story.written (h : p.Story w parseFloat pids served) (pending out : List UInt8) :
    Story w parseFloat pids served { p with pending, out } :=
  ⟨h.lines, h.first, h.tells, h.loading, h.agent, h.serving, h.sendable⟩

/-- The worker is over. -/
theorem Story.stop (h : p.Story w parseFloat pids served) {agent : Option σ}
    (hagent : ∀ s, agent = some s → w.Reached parseFloat served s) :
    Story w parseFloat pids served { p with phase := .over agent } :=
  ⟨h.lines, h.first, h.tells, fun hno => (by cases hno), hagent, fun _ hs => (by cases hs),
    h.sendable⟩

/-- The phase a start leads to. -/
theorem agent_of_started {phase : Phase σ}
    (h : phase = .over none ∨ ∃ s, w.ready = some s ∧ phase = .serving s) (s : σ)
    (hs : phase.agent = some s) : w.Reached parseFloat served s := by
  rcases h with rfl | ⟨s₀, hready, rfl⟩
  · cases hs
  · cases hs
    exact ⟨s, [], hready, List.nil_prefix, rfl⟩

/-- The worker has emitted the frame of its start. -/
theorem Story.begin (hw : w.Lawful parseFloat) (h : p.Story w parseFloat pids served)
    (hphase : p.phase = .loading) {pid : Nat} (hmem : pid ∈ pids) (hpid : pid < 2 ^ 32)
    {phase : Phase σ} (hnext : phase = .over none ∨ ∃ s, w.ready = some s ∧ phase = .serving s)
    (pending : List UInt8) :
    Story w parseFloat pids served
      { p with phase, pending, frames := p.frames ++ [(w.started pid).frame] } := by
  obtain ⟨hframes, rfl⟩ := h.loading hphase
  rw [hframes, List.nil_append]
  refine ⟨h.lines, ?_, by simp, ?_, agent_of_started hnext, ?_, ?_⟩
  · rintro frame hf
    cases hf
    exact ⟨pid, hmem, rfl⟩
  · rintro rfl
    rcases hnext with hnext | ⟨s, -, hnext⟩ <;> cases hnext
  · rintro s rfl
    rcases hnext with hnext | ⟨s₀, hready, hnext⟩
    · cases hnext
    · cases hnext
      exact ⟨s, hready, rfl, rfl⟩
  · intro frame hf
    rw [List.mem_singleton.mp hf]
    exact sendable_started hw hpid

/-- One more request: its reaction comes last. -/
theorem reactions_concat (s₀ : σ) (served : List Dispatch) (d : Dispatch) :
    w.reactions parseFloat s₀ (served ++ [d]) = w.reactions parseFloat s₀ served ++
      [(Worker.react w.py w.agent
        (Worker.after w.py w.agent s₀ (served.map (Dispatch.asked parseFloat)))
        (d.asked parseFloat)).1] := by
  rw [World.reactions, List.map_append, Worker.reactions_append]
  rfl

/-- What a pass over a request leads to: the frame of the reaction, or of a refusal that names
    no request and asks the agent nothing. -/
def Passes (w : World σ) (parseFloat : String → PyFloat) (s : σ) (d : Dispatch) (frame : PyVal)
    (phase : Phase σ) : Prop :=
  ((Worker.react w.py w.agent s (d.asked parseFloat)).1.frame (.text d.id) = some frame ∧
      (phase = .over (some (Worker.react w.py w.agent s (d.asked parseFloat)).2) ∨
        phase = .serving (Worker.react w.py w.agent s (d.asked parseFloat)).2)) ∨
    ((∃ code message, frame = Worker.fatal code message .null) ∧ phase = .over (some s))

/-- The agent after one more request. -/
theorem Story.agent_after (h : p.Story w parseFloat pids served) {s : σ}
    (hphase : p.phase = .serving s) (d : Dispatch) :
    w.Reached parseFloat (served ++ [d])
      (Worker.react w.py w.agent s (d.asked parseFloat)).2 := by
  obtain ⟨s₀, hready, hs, -⟩ := h.serving s hphase
  exact ⟨s₀, served ++ [d], hready, List.prefix_rfl, by
    rw [List.map_append, List.map_singleton, Worker.after_concat, ← hs]⟩

/-- The agent after such a pass. -/
theorem Story.agent_next (h : p.Story w parseFloat pids served) {s : σ}
    (hphase : p.phase = .serving s) {d : Dispatch} {frame : PyVal} {phase : Phase σ}
    (hpass : Passes w parseFloat s d frame phase) (t : σ) (ht : phase.agent = some t) :
    w.Reached parseFloat (served ++ [d]) t := by
  have hnext := h.agent_after hphase d
  rcases hpass with ⟨-, rfl | rfl⟩ | ⟨-, rfl⟩
  · cases ht
    exact hnext
  · cases ht
    exact hnext
  · cases ht
    exact (h.agent s (by rw [hphase]; rfl)).mono (List.prefix_append served [d])

/-- One more request was read, and nothing emitted for it. -/
theorem Story.raise (h : p.Story w parseFloat pids served) (d : Dispatch) {agent : Option σ}
    (hagent : ∀ s, agent = some s → w.Reached parseFloat (served ++ [d]) s) :
    Story w parseFloat pids (served ++ [d])
      { p with phase := .over agent, lines := p.lines ++ [d.bytes w.cx] } := by
  refine ⟨by simp [h.lines], h.first, ?_, fun hno => (by cases hno), hagent,
    fun _ hs => (by cases hs), h.sendable⟩
  intro i frame hf
  obtain ⟨s, d', hs, hd, htold⟩ := h.tells i frame hf
  refine ⟨s, d', hs, getElem?_of_prefix (List.prefix_append served [d]) hd, ?_⟩
  refine htold.imp_left fun ⟨r, hr, hframe⟩ => ⟨r, ?_, hframe⟩
  rw [reactions_concat]
  exact getElem?_of_prefix (List.prefix_append _ _) hr

/-- One more request was read, and a frame emitted for it. -/
theorem Story.answer (hw : w.Lawful parseFloat) (h : p.Story w parseFloat pids served) {s : σ}
    (hphase : p.phase = .serving s) (d : Dispatch) {frame : PyVal} {phase : Phase σ}
    (hpass : Passes w parseFloat s d frame phase) (pending : List UInt8) :
    Story w parseFloat pids (served ++ [d])
      { p with
        phase, pending
        lines := p.lines ++ [d.bytes w.cx]
        frames := p.frames ++ [frame] } := by
  obtain ⟨s₀, hready, hs, hlen⟩ := h.serving s hphase
  have hold := h.raise d (h.agent_next hphase hpass)
  refine ⟨hold.lines, ?_, ?_, ?_, h.agent_next hphase hpass, ?_, ?_⟩
  · -- the first frame stays the first
    intro f hf
    rw [List.getElem?_append_left (by omega)] at hf
    exact h.first f hf
  · intro i f hf
    rcases Nat.lt_or_ge (i + 1) p.frames.length with hlt | hge
    · -- an earlier frame
      rw [List.getElem?_append_left hlt] at hf
      exact hold.tells i f hf
    · -- the new frame, which is that of the new request
      rw [List.getElem?_append_right hge] at hf
      obtain ⟨hlt, rfl⟩ := List.getElem?_eq_some_iff.mp hf
      have hi : i = served.length := by
        simp only [List.length_singleton] at hlt
        omega
      subst hi
      refine ⟨s₀, d, hready, by simp, ?_⟩
      have hzero : served.length + 1 - p.frames.length = 0 := by omega
      simp only [hzero, List.getElem_singleton]
      rcases hpass with ⟨hframe, -⟩ | ⟨hfatal, -⟩
      · refine .inl ⟨_, ?_, hframe⟩
        have hr : (w.reactions parseFloat s₀ served).length = served.length := by
          rw [World.reactions, Worker.length_reactions, List.length_map]
        rw [reactions_concat, List.getElem?_append_right (by omega), hr, hs]
        simp
      · exact .inr hfatal
  · rintro rfl
    rcases hpass with ⟨-, hp | hp⟩ | ⟨-, hp⟩ <;> cases hp
  · -- an agent that goes on was asked the request
    rintro t rfl
    rcases hpass with ⟨-, hp | hp⟩ | ⟨-, hp⟩
    · cases hp
    · cases hp
      refine ⟨s₀, hready, ?_, by simp [hlen]⟩
      rw [List.map_append, List.map_singleton, Worker.after_concat, ← hs]
    · cases hp
  · intro f hf
    rcases List.mem_append.mp hf with hf | hf
    · exact h.sendable f hf
    · rw [List.mem_singleton.mp hf]
      rcases hpass with ⟨hframe, -⟩ | ⟨⟨code, message, rfl⟩, -⟩
      · exact sendable_reaction hw hframe
      · exact sendable_fatal _ _ _

/-! ### One step of the worker -/

/-- What a step adds to the frames is appended to what is to be written. -/
def Emits (p p' : Proc σ) : Prop :=
  p'.out = p.out ∧ ∃ new, p'.frames = p.frames ++ new ∧
    p'.pending = p.pending ++ (new.map Worker.lineBytes).flatten

/-- A step that adds no frame. -/
theorem Emits.refl (p : Proc σ) (phase : Phase σ) (lines : List (List UInt8)) :
    p.Emits { p with phase, lines } :=
  ⟨rfl, [], (List.append_nil _).symm, (List.append_nil _).symm⟩

/-- A frame is emitted, or it cannot be written and the worker is over. -/
theorem emit_cases (w : World σ) (p : Proc σ) (frame : PyVal) (phase : Phase σ) :
    p.emit w frame phase = { p with phase := .over phase.agent } ∨
    p.emit w frame phase = { p with
      phase := phase
      pending := p.pending ++ Worker.lineBytes frame
      frames := p.frames ++ [frame] } := by
  unfold emit
  split
  · rename_i bytes hbytes
    rw [Worker.eq_lineBytes hbytes]
    exact .inr rfl
  · exact .inl rfl

/-- A step that adds the frame it emits. -/
theorem emits_emit (w : World σ) (p : Proc σ) (frame : PyVal) (phase : Phase σ) :
    p.Emits (p.emit w frame phase) := by
  rcases emit_cases w p frame phase with he | he <;> rw [he]
  · exact .refl p _ _
  · exact ⟨rfl, [frame], rfl, by simp⟩

/-- A step that adds the frame a line is answered with, if any. -/
theorem emits_serve (p : Proc σ) (s : σ) (bytes : List UInt8) :
    p.Emits (p.serve w s bytes) := by
  have hemit : ∀ frame phase,
      p.Emits (emit w { p with lines := p.lines ++ [bytes] } frame phase) :=
    fun frame phase => emits_emit w { p with lines := p.lines ++ [bytes] } frame phase
  unfold serve
  dsimp only
  split
  · exact .refl p _ _
  · split
    · exact .refl p _ _
    · exact hemit _ _
    · exact hemit _ _
    · exact .refl p _ _
    · exact .refl p _ _

/-- As long as the daemon reads, what a step emits is appended to what is to be written. -/
theorem step_flow {pid : Nat} {input : List UInt8} {closed : Bool} {ev : WorkerEv}
    (h : p.step w pid input closed ev = some p') : closed = true ∨
      ∃ new, p'.frames = p.frames ++ new ∧
        p'.out ++ p'.pending = p.out ++ (p.pending ++ (new.map Worker.lineBytes).flatten) := by
  have hemits : p.Emits p' → ∃ new, p'.frames = p.frames ++ new ∧
      p'.out ++ p'.pending = p.out ++ (p.pending ++ (new.map Worker.lineBytes).flatten) :=
    fun ⟨hout, new, hframes, hpending⟩ => ⟨new, hframes, by rw [hout, hpending]⟩
  cases ev with
  -- the steps that emit
  | start =>
    simp only [step] at h
    split at h
    · split at h
      all_goals
        cases h
        exact .inr (hemits (emits_emit w _ _ _))
    · cases h
  | line =>
    simp only [step] at h
    split at h
    · cases h
      exact .inr (hemits (emits_serve _ _ _))
    · cases h
  -- what was to be written is written
  | write n =>
    simp only [step] at h
    split at h
    · cases h
      exact .inr ⟨[], by simp, by simp⟩
    · cases h
  -- the end of the input, and the broken pipe, come of a closed session
  | eof =>
    simp only [step] at h
    split at h
    · rename_i hclosed
      exact .inl ((Bool.and_eq_true _ _).mp hclosed).1
    · cases h
  | brokenPipe =>
    simp only [step] at h
    split at h
    · rename_i hclosed
      exact .inl ((Bool.and_eq_true _ _).mp hclosed).1
    · cases h

/-- The worker starts. -/
theorem Story.start (hw : w.Lawful parseFloat) (h : p.Story w parseFloat pids served)
    (hphase : p.phase = .loading) {pid : Nat} (hmem : pid ∈ pids) (hpid : pid < 2 ^ 32)
    {phase : Phase σ} (hnext : phase = .over none ∨ ∃ s, w.ready = some s ∧ phase = .serving s) :
    Story w parseFloat pids served (p.emit w (w.started pid).frame phase) := by
  rcases emit_cases w p (w.started pid).frame phase with he | he <;> rw [he]
  · exact h.stop (agent_of_started hnext)
  · exact h.begin hw hphase hmem hpid hnext _

/-- A pass over the text of a request. -/
theorem passes_request (hw : w.Lawful parseFloat) {d : Dispatch} (hd : d.job.params.WellFormed)
    {raw : PyStr}
    (hstrip : raw.strip = (Json.text (Sup.predictFrame d.id d.job.params)).map PyStr.ofChar)
    (s : σ) :
    (∃ frame phase, Passes w parseFloat s d frame phase ∧
      ((∃ t, phase = .serving t ∧ Worker.serveLine w.py w.agent s raw = .answer frame t) ∨
        ∃ t, phase = .over (some t) ∧ Worker.serveLine w.py w.agent s raw = .last frame t)) ∨
      Worker.serveLine w.py w.agent s raw =
        .raised (Worker.react w.py w.agent s (d.asked parseFloat)).2 := by
  rcases Worker.serveLine_request hw.loads hd hstrip w.agent s with
    he | ⟨-, code, message, he⟩
  · rw [he]
    cases hr : (Worker.react w.py w.agent s (d.job.params.toPy parseFloat)).1 with
    | failed =>
      exact .inl ⟨_, _, .inl ⟨by rw [Dispatch.asked, hr]; rfl, .inl rfl⟩, .inr ⟨_, rfl, rfl⟩⟩
    | result value =>
      exact .inl ⟨_, _, .inl ⟨by rw [Dispatch.asked, hr]; rfl, .inr rfl⟩, .inl ⟨_, rfl, rfl⟩⟩
    | rejected message =>
      exact .inl ⟨_, _, .inl ⟨by rw [Dispatch.asked, hr]; rfl, .inr rfl⟩, .inl ⟨_, rfl, rfl⟩⟩
    | raised => exact .inr rfl
  · rw [he]
    exact .inl ⟨_, _, .inr ⟨⟨code, message, rfl⟩, rfl⟩, .inr ⟨_, rfl, rfl⟩⟩

/-- The pass of `serve` over a line that is the text of a request. -/
theorem serve_request (hw : w.Lawful parseFloat) {d : Dispatch} (hd : d.job.params.WellFormed)
    {bytes : List UInt8} {raw : PyStr} (hdecode : PyStr.decode bytes = some raw)
    (hstrip : raw.strip = (Json.text (Sup.predictFrame d.id d.job.params)).map PyStr.ofChar)
    (p : Proc σ) (s : σ) :
    (∃ frame phase, Passes w parseFloat s d frame phase ∧
      p.serve w s bytes = emit w { p with lines := p.lines ++ [bytes] } frame phase) ∨
      p.serve w s bytes = { p with
        phase := .over (some (Worker.react w.py w.agent s (d.asked parseFloat)).2)
        lines := p.lines ++ [bytes] } := by
  unfold Proc.serve
  rcases passes_request hw hd hstrip s with ⟨frame, phase, hpass, hline⟩ | hraised
  · refine .inl ⟨frame, phase, hpass, ?_⟩
    rcases hline with ⟨t, rfl, he⟩ | ⟨t, rfl, he⟩
    · simp only [hdecode, he]
    · simp only [hdecode, he]
  · exact .inr (by simp only [hdecode, hraised])

/-- The worker reads the next request. -/
theorem Story.serve (hw : w.Lawful parseFloat) (h : p.Story w parseFloat pids served) {s : σ}
    (hphase : p.phase = .serving s) {d : Dispatch} (hd : d.job.params.WellFormed) :
    Story w parseFloat pids (served ++ [d]) (p.serve w s (d.bytes w.cx)) := by
  obtain ⟨-, raw, hdecode, hstrip, -⟩ := Worker.readLine_writeFrame hw.vec
    [("id", .str d.id), ("method", .str "predict"), ("params", d.job.params)]
    (wellFormed_predictFrame hd d.id).numeric
  rw [Dispatch.bytes, Sup.predictFrame]
  rcases serve_request hw hd hdecode hstrip p s with ⟨frame, phase, hpass, he⟩ | he
  · rw [he]
    rcases emit_cases w { p with lines := p.lines ++ [d.bytes w.cx] } frame phase with
      hemit | hemit
    · exact hemit ▸ h.raise d (h.agent_next hphase hpass)
    · exact hemit ▸ h.answer hw hphase d hpass _
  · rw [he]
    refine h.raise d fun t ht => ?_
    cases ht
    exact h.agent_after hphase d

end Proc

end

end Layad
