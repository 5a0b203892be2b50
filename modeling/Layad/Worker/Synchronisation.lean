import Layad.Worker.Conservation
import Mathlib.Data.List.Infix

namespace Layad

open Channel Transition

/-!
# Requests and replies stay in step

The predict frames carry the ids `"1"`, `"2"`, … in the order the jobs left the queue, and
the accepted replies answer the same ids in the same order, at most one frame behind
(`Sup.Synced`).  An answer handed to a caller is therefore the result of the reply to that
caller's own frame (`Sys.Served`).
-/

/-- The ids of the first `n` requests. -/
def ids (n : Nat) : List String := (List.range n).map fun i => toString (i + 1)

/-- One more id. -/
theorem ids_succ (n : Nat) : ids (n + 1) = ids n ++ [toString (n + 1)] := by
  simp [ids, List.range_succ]

/-- No two requests carry the same id. -/
theorem nodup_ids (n : Nat) : (ids n).Nodup := by
  refine List.Nodup.map ?_ List.nodup_range
  intro i j hij
  have hd : Nat.toDigits 10 (i + 1) = Nat.toDigits 10 (j + 1) := by
    simpa using congrArg String.toList hij
  -- reading the digits back
  have hv := congrArg (Nat.ofDigitChars 10 · 0) hd
  simpa using hv

/-- What is in a list is in one that it begins. -/
theorem getElem?_of_prefix {α : Type*} {l l' : List α} (h : l <+: l') {i : Nat} {a : α}
    (hi : l[i]? = some a) : l'[i]? = some a := by
  obtain ⟨hlt, rfl⟩ := List.getElem?_eq_some_iff.mp hi
  exact List.prefix_iff_getElem?.mp h i hlt

/-- The bytes a request is sent as. -/
def Dispatch.bytes (cx : Ctx) (f : Dispatch) : List UInt8 :=
  writeFrame cx.host (Sup.predictFrame f.id f.job.params)

/-- The id and the body of an accepted reply line. -/
def LineRead.reply (l : LineRead) : Option (String × Reply) :=
  match l.fate with
  | .reply id body => some (id, body)
  | _ => none

/-- What an accepted line says, by the parsers. -/
def LineRead.Sound (cx : Ctx) (l : LineRead) : Prop :=
  match l.fate with
  | .ready info => ∃ value, cx.host.fromStr l.text = .ok value ∧ parseReady value = .ok info
  | .reply id body =>
    ∃ value, cx.host.fromStr l.text = .ok value ∧ parseReply cx.host value = .ok ⟨id, body⟩
  | .ended => True

namespace Sup

variable {cx : Ctx} {sh : Shared} {p p' : Sup} {ev : SupEv} {eff : Eff}

/-- The replies accepted, oldest first. -/
def replies (p : Sup) : List (String × Reply) := p.lines.filterMap LineRead.reply

/-- The request that is being written or in flight, with its reply channel. -/
def outstanding (p : Sup) : Option (String × Nat) :=
  match p.pc with
  | .writing id key _ => some (id, key)
  | _ => p.inflight

/-- The job in hand, taken from the queue and not yet begun. -/
def taken (p : Sup) : List Job :=
  match p.pc with
  | .dequeued job => [job]
  | _ => []

/-- What is left to write of the frame begun last. -/
def unwritten (p : Sup) : List UInt8 :=
  match p.pc with
  | .writing _ _ out => out
  | _ => []

/-- The reply to the frame of call `key` was accepted, with result `v`. -/
def Answers (p : Sup) (key : Nat) (v : Json) : Prop :=
  ∃ (i : Nat) (f : Dispatch), p.frames[i]? = some f ∧ f.job.reply = key ∧
    p.replies[i]? = some (f.id, .ok v)

/-- An accepted reply stays one. -/
theorem Answers.mono {key : Nat} {v : Json} (h : p.Answers key v) (hf : p.frames <+: p'.frames)
    (hl : p.lines <+: p'.lines) : p'.Answers key v := by
  obtain ⟨i, f, hi, hk, hr⟩ := h
  exact ⟨i, f, getElem?_of_prefix hf hi, hk, getElem?_of_prefix (hl.filterMap _) hr⟩

/-! ### One step -/

/-- No result from the worker is being handed on. -/
def Quiet (p : Sup) : Prop := ∀ key v next, p.pc ≠ .answer key (.ok v) next

/-- Failing the handshake hands on no result. -/
theorem settleRestart_quiet (err : StartError) (reason : String) :
    (p.settleRestart sh err reason).outstanding = p.inflight ∧
      (p.settleRestart sh err reason).Quiet := by
  unfold settleRestart
  split <;> simp [outstanding, Quiet]

/-- Failing the request in flight hands on no result, and leaves none outstanding. -/
theorem failInflight_quiet (err : WorkerError) (reason : String) :
    (p.failInflight err reason).outstanding = none ∧ (p.failInflight err reason).Quiet := by
  unfold failInflight
  split <;> simp [outstanding, Quiet, *]

/-- What follows the reaping hands on no result. -/
theorem afterReap_quiet (reason : Option String) (result : Except String String) :
    outstanding { p with pc := afterReap reason result } = p.inflight ∧
      Quiet { p with pc := afterReap reason result } := by
  cases reason <;> simp [outstanding, Quiet, afterReap]

/-- A frame while idle that is no complete line ends the session. -/
theorem onIdleFrame_quiet (hi : p.inflight = none) {frame : Except String Frame}
    (hl : (p.onIdleFrame cx sh frame).lines = p.lines) :
    (p.onIdleFrame cx sh frame).outstanding = none ∧
      (p.onIdleFrame cx sh frame).Quiet := by
  revert hl
  unfold onIdleFrame
  repeat' split
  all_goals try (simp; done)
  · exact fun _ => hi ▸ settleRestart_quiet _ _
  all_goals simp [outstanding, Quiet, hi]

/-- A frame that was waited for and is no complete line ends the session. -/
theorem onWaitFrame_quiet {frame : Except String Frame}
    (hl : (p.onWaitFrame cx sh frame).lines = p.lines) :
    ∃ err reason, p.onWaitFrame cx sh frame = p.failInflight err reason := by
  revert hl
  unfold onWaitFrame onReply
  dsimp only
  repeat' split
  all_goals simp

/-- A step that begins no frame and files no line keeps the request that is outstanding, or
    ends the session; and it hands no result on. -/
theorem step_quiet (hc : p.Coherent) (h : p.step cx sh ev = some (p', eff))
    (hf : p'.frames = p.frames) (hl : p'.lines = p.lines) :
    (p'.outstanding = p.outstanding ∨ (p'.outstanding = none ∧ p'.outcome.isSome)) ∧ p'.Quiet := by
  revert h hf hl
  fun_cases Sup.step cx sh p ev
  all_goals intro h hf hl
  all_goals simp only [Option.some.injEq, Prod.mk.injEq, reduceCtorEq] at h
  all_goals obtain ⟨rfl, rfl⟩ := h
  all_goals try (simp_all [outstanding, Quiet, Coherent]; done)
  -- the ends of the session that are shared, and the end of `shutdown_child`
  all_goals try exact ⟨Or.inr ⟨(failInflight_quiet _ _).1, by simp⟩, (failInflight_quiet _ _).2⟩
  all_goals try
    first
      | refine ⟨Or.inl ?_, (settleRestart_quiet _ _).2⟩
        rw [(settleRestart_quiet _ _).1]
      | refine ⟨Or.inl ?_, (afterReap_quiet _ _).2⟩
        rw [(afterReap_quiet _ _).1]
    simp [outstanding, *]
  -- a read
  all_goals
    rename p.read cx _ = some _ => hr
    obtain ⟨buf, avail, rfl⟩ := read_eq hr
    rename p.pc = _ => hpc
    simp only [Coherent, hpc] at hc
  · simp [outstanding, Quiet, hpc]
  · obtain ⟨ho, hq⟩ := onIdleFrame_quiet (p := { p with buf, avail }) hc.2 hl
    exact ⟨Or.inl (by simpa [outstanding, hpc, hc.2] using ho), hq⟩
  · simp [outstanding, Quiet, hpc]
  · obtain ⟨err, reason, he⟩ := onWaitFrame_quiet (p := { p with buf, avail }) hl
    rw [he]
    obtain ⟨ho, hq⟩ := failInflight_quiet (p := { p with buf, avail }) err reason
    exact ⟨Or.inr ⟨ho, by simp⟩, hq⟩

/-! ### Frames and replies -/

/-- The frames are numbered in order, and the replies answer them in order, at most one
    behind. -/
structure Synced (p : Sup) : Prop where
  ids : p.frames.map Dispatch.id = ids p.frames.length
  nextId : p.nextId = p.frames.length
  replies : p.replies.map Prod.fst = Layad.ids p.replies.length
  outstanding : ∀ id key, p.outstanding = some (id, key) →
    ∃ before f, p.frames = before ++ [f] ∧ f.id = id ∧ f.job.reply = key ∧
      p.replies.length = before.length
  settled : p.outstanding = none → p.replies.length = p.frames.length ∨
    (p.replies.length + 1 = p.frames.length ∧ p.outcome.isSome)
  answer : ∀ key v next, p.pc = .answer key (.ok v) next → p.Answers key v

/-- A new supervisor has neither frames nor replies. -/
theorem Synced.init : Sup.init.Synced where
  ids := rfl
  nextId := rfl
  replies := rfl
  outstanding _ _ h := by simp [Sup.outstanding, Sup.init] at h
  settled _ := Or.inl rfl
  answer _ _ _ h := by simp [Sup.init] at h

/-- Frames and replies stay in step when neither grows. -/
theorem Synced.quiet (hs : p.Synced) (hf : p'.frames = p.frames) (hn : p'.nextId = p.nextId)
    (hr : p'.replies = p.replies)
    (ho : p'.outstanding = p.outstanding ∨ (p'.outstanding = none ∧ p'.outcome.isSome))
    (hset : p.outcome.isSome → p'.outcome.isSome) (hq : p'.Quiet) : p'.Synced where
  ids := by rw [hf]; exact hs.ids
  nextId := by rw [hn, hf]; exact hs.nextId
  replies := by rw [hr]; exact hs.replies
  outstanding id key h := by
    rcases ho with ho | ⟨ho, -⟩
    · rw [hf, hr]
      exact hs.outstanding id key (ho ▸ h)
    · rw [ho] at h
      cases h
  settled h := by
    rw [hf, hr]
    cases hp : p.outstanding with
    | none => exact (hs.settled hp).imp_right (And.imp_right hset)
    | some o =>
      -- the request in flight is given up with the session
      obtain ⟨before, f, he, -, -, hlen⟩ := hs.outstanding o.1 o.2 hp
      rcases ho with ho | ⟨-, hout⟩
      · simp [ho, hp] at h
      · exact Or.inr ⟨by simp [he, hlen], hout⟩
  answer key v next h := absurd h (hq key v next)

/-- A new frame takes the next number. -/
theorem Synced.dispatch (hs : p.Synced) (hc : p.Coherent) {job : Job}
    (hpc : p.pc = .dequeued job) : (p.dispatch cx sh job).Synced := by
  simp only [Coherent, hpc] at hc
  have hreplies : (p.dispatch cx sh job).replies = p.replies := rfl
  -- no request is outstanding, and the session goes on: all frames are answered
  have hlen : p.replies.length = p.frames.length := by
    rcases hs.settled (by simp [Sup.outstanding, hpc, hc.2]) with h | ⟨-, h⟩
    · exact h
    · simp [hc.1] at h
  refine ⟨?_, ?_, ?_, ?_, ?_, ?_⟩
  · simp [ids_succ, hs.ids, hs.nextId]
  · simp [hs.nextId]
  · rw [hreplies]
    exact hs.replies
  · intro id key h
    simp only [Sup.outstanding, dispatch_pc, Option.some.injEq, Prod.mk.injEq] at h
    exact ⟨p.frames, _, rfl, h.1, h.2, by rw [hreplies, hlen]⟩
  · intro h
    simp [Sup.outstanding] at h
  · intro key v next h
    simp at h

/-- The frame begun last carries the last id. -/
theorem Synced.id_of_last (hs : p.Synced) {before : List Dispatch} {f : Dispatch}
    (he : p.frames = before ++ [f]) : f.id = toString (before.length + 1) := by
  have hids := hs.ids
  rw [he, List.map_append, List.length_append] at hids
  simp only [List.map_cons, List.map_nil, List.length_singleton, ids_succ] at hids
  exact List.singleton_inj.mp (List.append_inj' hids rfl).2

/-- An accepted reply is to the frame begun last. -/
theorem Synced.reply (hs : p.Synced) {text id : String} {body : Reply} {key : Nat}
    (hpc : p.pc = .wait) (hi : p.inflight = some (id, key))
    (hf : p'.frames = p.frames) (hn : p'.nextId = p.nextId)
    (hl : p'.lines = p.lines ++ [⟨text, .reply id body⟩]) (hi' : p'.inflight = none)
    (hpc' : p'.pc = .answer key body.answer body.next) : p'.Synced := by
  obtain ⟨before, f, he, hid, hkey, hlen⟩ :=
    hs.outstanding id key (by simp [Sup.outstanding, hpc, hi])
  have hr : p'.replies = p.replies ++ [(id, body)] := by
    simp [Sup.replies, hl, LineRead.reply]
  refine ⟨by rw [hf]; exact hs.ids, by rw [hn, hf]; exact hs.nextId, ?_, ?_, ?_, ?_⟩
  · rw [hr, List.map_append, hs.replies, List.length_append, hlen]
    simp [ids_succ, ← hid, hs.id_of_last he]
  · intro id key h
    simp [Sup.outstanding, hpc', hi'] at h
  · intro _
    exact Or.inl (by simp [hf, he, hr, hlen])
  · intro key' v next h
    rw [hpc'] at h
    injection h with hk ha hnext
    refine ⟨before.length, f, by simp [hf, he], by rw [hkey, hk], ?_⟩
    cases body with
    | ok result =>
      simp only [Reply.answer, Except.ok.injEq] at ha
      simp [hr, ← hlen, hid, ha]
    | err body => simp [Reply.answer] at ha

/-- A session that has decided hands no result on. -/
theorem Coherent.quiet (hc : p.Coherent) (ho : p.outcome.isSome) : p.Quiet := by
  intro key v next hpc
  simp only [Coherent, hpc] at hc
  have := hc.2.2 ⟨v, rfl⟩
  simp_all

/-- After the session nothing is being written. -/
theorem Coherent.outstanding_of_outcome (hc : p.Coherent) (ho : p.outcome.isSome) :
    p.outstanding = p.inflight := by
  unfold Sup.outstanding
  split
  · rename_i hpc
    simp_all [Coherent]
  · rfl

/-- **Every step of the supervisor keeps frames and replies in step.** -/
theorem Synced.step (hs : p.Synced) (hc : p.Coherent) (h : p.step cx sh ev = some (p', eff)) :
    p'.Synced := by
  have hc' := hc.step h
  have hset : p.outcome.isSome → p'.outcome.isSome := by
    intro ho
    obtain ⟨o, ho⟩ := Option.isSome_iff_exists.mp ho
    rw [(step_settled hc ho h).1]
    rfl
  rcases step_frames h with ⟨hf, hn⟩ | ⟨job, hpc, -, rfl, -⟩
  · rcases step_lines h with hl | ⟨text, fate, hl, hfiled, -, hpc⟩
    · -- neither a frame nor a line
      obtain ⟨ho, hq⟩ := step_quiet hc h hf hl
      exact hs.quiet hf hn (by rw [Sup.replies, hl]; rfl) ho hset hq
    · have hout : p.outstanding = p.inflight := by
        rcases hpc with hpc | hpc <;> simp [Sup.outstanding, hpc]
      -- a line: the ready frame, the reply to the frame in flight, or the session's last
      cases fate with
      | ready info =>
        obtain ⟨-, -, hpc', -, hi⟩ := hfiled
        refine hs.quiet hf hn (by simp [Sup.replies, hl, LineRead.reply]) ?_ hset ?_
        · exact Or.inl (by rw [hout]; simp [Sup.outstanding, hpc', hi])
        · simp [Quiet, hpc']
      | reply id body =>
        obtain ⟨value, key, -, -, hi, hi', hpc', -⟩ := hfiled
        have hwait : p.pc = .wait := by
          rcases hpc with hpc | hpc
          · simp [Coherent, hpc, hi] at hc
          · exact hpc
        exact hs.reply hwait hi hf hn hl hi' hpc'
      | ended =>
        obtain ⟨⟨reason, ho⟩, hi⟩ := hfiled
        have hsome : p'.outcome.isSome := by rw [ho]; rfl
        refine hs.quiet hf hn (by simp [Sup.replies, hl, LineRead.reply]) ?_ hset
          (hc'.quiet hsome)
        rw [hc'.outstanding_of_outcome hsome, hout]
        exact hi.imp_right fun hi => ⟨hi, hsome⟩
  · -- a frame
    exact hs.dispatch hc hpc

/-! ### The lines read -/

/-- Every accepted line parses as what it was accepted as, and a line that ends the session
    is the last. -/
structure Parsed (cx : Ctx) (p : Sup) : Prop where
  sound : ∀ l ∈ p.lines, l.Sound cx
  ended : ∀ l ∈ p.lines, l.fate = .ended → ∃ reason, p.outcome = some (.restart reason)
  last : ∀ l ∈ p.lines.dropLast, l.fate ≠ .ended

/-- A line is filed with the fate that its text says. -/
theorem Filed.sound {text : String} {fate : Fate} (h : Filed cx sh p p' text fate) :
    LineRead.Sound cx ⟨text, fate⟩ := by
  cases fate with
  | ready info => exact h.1
  | reply id body =>
    obtain ⟨value, -, hv, hp, -⟩ := h
    exact ⟨value, hv, hp⟩
  | ended => trivial

/-- A new supervisor has read no line. -/
theorem Parsed.init (cx : Ctx) : Sup.init.Parsed cx where
  sound _ h := by simp [Sup.init] at h
  ended _ h := by simp [Sup.init] at h
  last _ h := by simp [Sup.init] at h

/-- A step of the supervisor files lines with the fate that their texts say. -/
theorem Parsed.step (hs : p.Parsed cx) (hc : p.Coherent)
    (h : p.step cx sh ev = some (p', eff)) : p'.Parsed cx := by
  cases ho : p.outcome with
  | some o =>
    obtain ⟨ho', -, -, hl, -⟩ := step_settled hc ho h
    refine ⟨by rw [hl]; exact hs.sound, ?_, by rw [hl]; exact hs.last⟩
    rw [hl, ho', ← ho]
    exact hs.ended
  | none =>
    -- no line so far ended the session
    have hnone : ∀ l ∈ p.lines, l.fate ≠ .ended := by
      intro l hl he
      obtain ⟨reason, hr⟩ := hs.ended l hl he
      simp [ho] at hr
    rcases step_lines h with hl | ⟨text, fate, hl, hfiled, -⟩
    · rw [← hl] at hnone
      refine ⟨by rw [hl]; exact hs.sound, fun l hm he => absurd he (hnone l hm), ?_⟩
      exact fun l hm => hnone l ((List.dropLast_sublist _).subset hm)
    · refine ⟨?_, ?_, ?_⟩
      · intro l hm
        rcases List.mem_append.mp (hl ▸ hm) with hm | hm
        · exact hs.sound l hm
        · exact List.mem_singleton.mp hm ▸ hfiled.sound
      · intro l hm he
        rcases List.mem_append.mp (hl ▸ hm) with hm | hm
        · exact absurd he (hnone l hm)
        · obtain rfl := List.mem_singleton.mp hm
          subst he
          exact hfiled.1
      · rw [hl, List.dropLast_concat]
        exact hnone

/-! ### The queue and the pipe -/

/-- The jobs taken from the queue for a request, in order. -/
def begun (p : Sup) : List Job := p.frames.map Dispatch.job ++ p.taken

/-- The bytes of all frames, in order. -/
def wire (cx : Ctx) (p : Sup) : List UInt8 := p.frames.flatMap (Dispatch.bytes cx)

/-- A session that is left is over. -/
theorem Over.of_leaving (hc : p.Coherent) (h : p.pc.leaving = true) : p.Over :=
  Or.inl (hc.outcome_of_leaving h)

/-- Outside the two points where a request is on its way, no job is in hand and nothing is
    left to write. -/
theorem taken_of_frame {pc : Pc} (h : pc.leaving = true ∨
    (∃ key answer, pc = .answer key answer none) ∨ ∃ info, pc = .readyState info) :
    taken { p with pc } = [] ∧ unwritten { p with pc } = [] := by
  rcases h with h | ⟨key, answer, rfl⟩ | ⟨info, rfl⟩
  · cases pc <;> simp_all [Pc.leaving, taken, unwritten]
  · exact ⟨rfl, rfl⟩
  · exact ⟨rfl, rfl⟩

/-- After a frame between requests no job is in hand and nothing is left to write. -/
theorem onIdleFrame_taken (frame : Except String Frame) :
    (p.onIdleFrame cx sh frame).taken = [] ∧ (p.onIdleFrame cx sh frame).unwritten = [] :=
  taken_of_frame ((onIdleFrame_pc frame).imp_right Or.inr)

/-- After a frame for the request in flight no job is in hand and nothing is left to write. -/
theorem onWaitFrame_taken (frame : Except String Frame) :
    (p.onWaitFrame cx sh frame).taken = [] ∧ (p.onWaitFrame cx sh frame).unwritten = [] :=
  taken_of_frame (onWaitFrame_pc frame)

/-- While the supervisor reads no job is in hand and nothing is left to write. -/
theorem taken_of_wait (h : p.pc = .idle ∨ p.pc = .wait) : p.taken = [] ∧ p.unwritten = [] := by
  rcases h with h | h <;> simp [taken, unwritten, h]

/-- After the session no job is in hand. -/
theorem Over.taken (ho : p.Over) (hc : p.Coherent) : p.taken = [] := by
  have hpc : p.pc.leaving = true ∨ p.pc.ending = true := ho.elim hc.leaving_of_outcome Or.inr
  unfold Sup.taken
  split
  · simp_all [Pc.leaving, Pc.ending]
  · rfl

/-- Jobs are taken from the front of the queue, one by one. -/
theorem step_begun (hc : p.Coherent) (h : p.step cx sh ev = some (p', eff)) :
    p'.Over ∨
    (eff = .recv ∧ ∃ job rest, sh.jobs.buffer = job :: rest ∧ p'.begun = p.begun ++ [job]) ∨
    (eff ≠ .recv ∧ p'.begun = p.begun) := by
  have hc' := hc.step h
  revert h
  fun_cases Sup.step cx sh p ev
  all_goals intro h
  all_goals simp only [Option.some.injEq, Prod.mk.injEq, reduceCtorEq] at h
  all_goals obtain ⟨rfl, rfl⟩ := h
  -- the way out
  all_goals try
    refine Or.inl (.of_leaving hc' ?_)
    first | rfl | (simp; done)
  all_goals try (simp_all [Over, Coherent, Pc.ending, begun, taken]; done)
  -- a read
  all_goals
    rename p.read cx _ = some _ => hr
    obtain ⟨buf, avail, rfl⟩ := read_eq hr
    rename p.pc = _ => hpc
    have ht := (taken_of_wait (p := p) (by simp [hpc])).1
    refine Or.inr (Or.inr ⟨by simp, ?_⟩)
  · rfl
  · simp [begun, ht, onIdleFrame_taken]
  · rfl
  · simp [begun, ht, onWaitFrame_taken]

/-- A frame is written in order and in full before the session goes on. -/
theorem step_unwritten (hc : p.Coherent) (h : p.step cx sh ev = some (p', eff)) :
    p'.outcome.isSome ∨
    (∃ bytes, eff = .write bytes ∧ wire cx p' = wire cx p ∧
      p.unwritten = bytes ++ p'.unwritten) ∨
    ((∀ bytes, eff ≠ .write bytes) ∧
      ((wire cx p' = wire cx p ∧ p'.unwritten = p.unwritten) ∨
        (p.unwritten = [] ∧ wire cx p' = wire cx p ++ p'.unwritten))) := by
  have hc' := hc.step h
  revert h
  fun_cases Sup.step cx sh p ev
  all_goals intro h
  all_goals simp only [Option.some.injEq, Prod.mk.injEq, reduceCtorEq] at h
  all_goals obtain ⟨rfl, rfl⟩ := h
  -- the way out
  all_goals try
    refine Or.inl (hc'.outcome_of_leaving ?_)
    first | rfl | (simp; done)
  all_goals try (simp_all [Coherent, wire, unwritten, Dispatch.bytes]; done)
  -- a read
  all_goals
    rename p.read cx _ = some _ => hr
    obtain ⟨buf, avail, rfl⟩ := read_eq hr
    rename p.pc = _ => hpc
    have ht := (taken_of_wait (p := p) (by simp [hpc])).2
    refine Or.inr (Or.inr ⟨by simp, Or.inl ⟨by simp [wire], ?_⟩⟩)
  · rfl
  · rw [(onIdleFrame_taken _).2, ht]
  · rfl
  · rw [(onWaitFrame_taken _).2, ht]

/-- Frames that were begun stay so. -/
theorem frames_mono (h : p.step cx sh ev = some (p', eff)) : p.frames <+: p'.frames := by
  rcases step_frames h with ⟨hf, -⟩ | ⟨job, -, -, rfl, -⟩
  · rw [hf]
  · exact List.prefix_append _ _

/-- Bytes that were written stay so. -/
theorem wire_mono (h : p.step cx sh ev = some (p', eff)) : wire cx p <+: wire cx p' := by
  exact List.IsPrefix.flatMap (frames_mono h) _

/-- Lines that were read stay so. -/
theorem lines_mono (h : p.step cx sh ev = some (p', eff)) : p.lines <+: p'.lines := by
  rcases step_lines h with hl | ⟨text, fate, hl, -⟩
  · rw [hl]
  · rw [hl]
    exact List.prefix_append _ _

end Sup

/-- A reply channel holds what it held, or what was just sent on it. -/
theorem Shared.slot_apply_eq_sent {sh : Shared} {eff : Eff} {k : Nat} {answer : Answer}
    (h : ((sh.apply eff).replies k).slot = .sent answer) :
    (sh.replies k).slot = .sent answer ∨ eff = .reply k answer := by
  have hdrop : ∀ keys, (dropReplies sh.replies keys k).slot = .sent answer →
      (sh.replies k).slot = .sent answer := by
    intro keys hk
    unfold dropReplies at hk
    split at hk
    · exact Oneshot.slot_dropSender_eq_sent hk
    · exact hk
  cases eff with
  | reply key a =>
    by_cases hk : k = key
    · subst hk
      simp only [apply, Function.update_self] at h
      exact (Oneshot.slot_send_eq_sent h).imp_right fun ha => by rw [ha.2]
    · simp only [apply, Function.update_of_ne hk] at h
      exact Or.inl h
  | closeReply key =>
    by_cases hk : k = key
    · subst hk
      simpa [apply] using h
    · simp only [apply, Function.update_of_ne hk] at h
      exact Or.inl h
  | abandon key => exact Or.inl (hdrop [key] h)
  | kill keys => exact Or.inl (hdrop keys h)
  | dropReceiver => exact Or.inl (hdrop _ h)
  | _ => exact Or.inl h

/-- Only a write puts bytes into the pipe. -/
theorem Shared.stdin_apply {sh : Shared} {eff : Eff} (h : ∀ bytes, eff ≠ .write bytes) :
    (sh.apply eff).stdin = sh.stdin := by
  cases eff <;> simp_all [apply, signalChild]

namespace Sys

variable {cx : Ctx} {s s' : Sys} {l : Label}

/-- The requests of the handle: what left the queue, what went to the worker, what came back
    and who was answered with it. -/
structure Served (cx : Ctx) (s : Sys) : Prop where
  synced : s.sup.Synced
  parsed : s.sup.Parsed cx
  queue : ∃ lost, s.sh.jobs.accepted = s.sup.begun ++ lost ++ s.sh.jobs.buffer ∧
    (¬ s.sup.Over → lost = [])
  sent : s.sh.stdin <+: s.sup.wire cx
  pipe : s.sup.outcome = none → s.sh.stdin ++ s.sup.unwritten = s.sup.wire cx
  results : ∀ k v, (s.sh.replies k).slot = .sent (.ok v) → s.sup.Answers k v
  answered : ∀ k answer, (s.calls k).answered = some answer →
    (s.sh.replies k).slot = .sent answer ∨
      ∃ err, answer = .error err ∧ err.invalidatesWorker = false
  params : ∀ job ∈ s.sh.jobs.accepted, ∀ params pc,
    s.calls job.reply = .predict params pc → job.params = params

/-- A new handle has served nothing. -/
theorem Served.init (cx : Ctx) : (Sys.init cx).Served cx where
  synced := .init
  parsed := .init cx
  queue := ⟨[], rfl, fun _ => rfl⟩
  sent := List.nil_prefix
  pipe _ := rfl
  results k v h := by simp [Sys.init] at h
  answered k answer h := by
    simp only [Sys.init] at h
    split at h <;> simp [Call.answered] at h
  params job h := by simp [Sys.init] at h

/-- The supervisor takes jobs off the front of the queue. -/
theorem buffer_of_sup {ev : SupEv} {p : Sup} {eff : Eff}
    (hp : s.sup.step cx s.sh ev = some (p, eff)) :
    ∃ dropped, s.sh.jobs.buffer = dropped ++ (s.sh.apply eff).jobs.buffer := by
  have hd := Sup.step_does hp
  cases eff with
  | recv =>
    refine ⟨s.sh.jobs.buffer.take 1, ?_⟩
    cases hbuf : s.sh.jobs.buffer <;> simp [Shared.apply, Mpsc.pop, hbuf]
  | dropReceiver => exact ⟨s.sh.jobs.buffer, by simp [Shared.apply, Mpsc.dropReceiver]⟩
  | push => exact absurd hd id
  | _ => exact ⟨[], rfl⟩

/-- The queue's history is what was begun, what was lost at the end, and what still waits. -/
theorem queue_sup {ev : SupEv} {p : Sup} {eff : Eff}
    (hq : ∃ lost, s.sh.jobs.accepted = s.sup.begun ++ lost ++ s.sh.jobs.buffer ∧
      (¬ s.sup.Over → lost = []))
    (hc : s.sup.Coherent) (hp : s.sup.step cx s.sh ev = some (p, eff)) :
    ∃ lost, (s.sh.apply eff).jobs.accepted = p.begun ++ lost ++ (s.sh.apply eff).jobs.buffer ∧
      (¬ p.Over → lost = []) := by
  obtain ⟨lost, hacc, hlost⟩ := hq
  rw [accepted_of_sup hp, hacc]
  by_cases ho : p.Over
  · -- what the supervisor has in hand is lost, and so is what it takes
    obtain ⟨dropped, hbuf⟩ := buffer_of_sup hp
    refine ⟨s.sup.taken ++ lost ++ dropped, ?_, fun h => absurd ho h⟩
    have hframes : p.frames = s.sup.frames := by
      rcases Sup.step_frames hp with ⟨hf, -⟩ | ⟨job, hpc, -, rfl, -⟩
      · exact hf
      · simp only [Sup.Coherent, hpc] at hc
        simp [Sup.Over, hc.1, Pc.ending] at ho
    simp [Sup.begun, ho.taken (hc.step hp), hframes, hbuf]
  · -- what is taken from the queue is in hand, and then begun
    have hold : ¬ s.sup.Over := fun h => ho (h.step hc hp)
    refine ⟨[], ?_, fun _ => rfl⟩
    rw [hlost hold, List.append_nil, List.append_nil]
    rcases Sup.step_begun hc hp with h | ⟨rfl, job, rest, hbuf, hbegun⟩ | ⟨hne, hbegun⟩
    · exact absurd h ho
    · simp [hbegun, Shared.apply, Mpsc.pop, hbuf]
    · have hd := Sup.step_does hp
      have hbuf : (s.sh.apply eff).jobs.buffer = s.sh.jobs.buffer := by
        cases eff with
        | dropReceiver => exact absurd (Or.inr (by rw [show s.sup.pc = _ from hd]; rfl)) hold
        | recv => exact absurd rfl hne
        | push => exact absurd hd id
        | _ => rfl
      rw [hbuf, hbegun]

/-- The frames are for the jobs the queue took first. -/
theorem Served.jobs (hs : s.Served cx) : s.sup.frames.map Dispatch.job <+: s.sh.jobs.accepted := by
  obtain ⟨lost, hacc, -⟩ := hs.queue
  exact ⟨s.sup.taken ++ lost ++ s.sh.jobs.buffer, by simp [hacc, Sup.begun]⟩

/-- The supervisor serves the requests in their order. -/
theorem Served.sup (hs : s.Served cx) (hb : s.Booked) {ev : SupEv} {p : Sup} {eff : Eff}
    (hp : s.sup.step cx s.sh ev = some (p, eff)) :
    Served cx { s with sup := p, sh := s.sh.apply eff } := by
  have hc := hb.coherent
  have hstep : s.step cx (.sup ev) = some { s with sup := p, sh := s.sh.apply eff } := by
    simp [Sys.step, hp]
  refine ⟨hs.synced.step hc hp, hs.parsed.step hc hp, ?_, ?_, ?_, ?_, ?_, ?_⟩
  · exact queue_sup hs.queue hc hp
  · -- what was written stays a beginning of the frames
    have hwire := Sup.wire_mono hp
    by_cases hw : ∃ bytes, eff = .write bytes
    · obtain ⟨bytes, rfl⟩ := hw
      obtain ⟨id, key, out, hpc, rest, rfl⟩ := Sup.step_does hp
      simp only [Sup.Coherent, hpc] at hc
      have hpipe := hs.pipe hc.1
      simp only [Sup.unwritten, hpc, ← List.append_assoc] at hpipe
      exact List.IsPrefix.trans ⟨rest, hpipe⟩ hwire
    · rw [Shared.stdin_apply (by simpa using hw)]
      exact hs.sent.trans hwire
  · -- during the session all of the frames but the rest of the last was written
    intro ho
    have hold : s.sup.outcome = none := by
      by_contra hne
      obtain ⟨o, hso⟩ := Option.ne_none_iff_exists'.mp hne
      simp [(Sup.step_settled hc hso hp).1] at ho
    have hpipe := hs.pipe hold
    rcases Sup.step_unwritten hc hp with h | ⟨bytes, rfl, hwire, hun⟩ |
      ⟨hne, ⟨hwire, hun⟩ | ⟨hun, hwire⟩⟩
    · simp [show p.outcome = none from ho] at h
    · simp only [Shared.apply, hwire, ← hpipe, hun, List.append_assoc]
    · simp only [Shared.stdin_apply hne, hwire, hun, hpipe]
    · simp only [Shared.stdin_apply hne, hwire, ← hpipe, hun, List.append_nil]
  · -- a result on a reply channel is that of the call's own frame
    intro k v hk
    have hans : s.sup.Answers k v := by
      rcases Shared.slot_apply_eq_sent hk with hk | rfl
      · exact hs.results k v hk
      · rcases Sup.step_does hp with ⟨next, hpc⟩ | ⟨detail, -, h⟩
        · exact hs.synced.answer k v next hpc
        · cases h
    exact hans.mono (Sup.frames_mono hp) (Sup.lines_mono hp)
  · intro k answer hk
    refine (hs.answered k answer hk).imp_left fun hslot => ?_
    have hst := slot_stable_step hb hstep (k := k) (by simp [hslot])
    exact hst.trans hslot
  · rw [accepted_of_sup hp]
    exact hs.params

/-- A call gets what it was answered with. -/
theorem Served.call (hs : s.Served cx) (hb : s.Booked) {key : Nat} {ev : CallEv} {c : Call}
    {eff : Eff} (hc : (s.calls key).step cx s.sh key ev = some (c, eff)) :
    Served cx { s with calls := Function.update s.calls key c, sh := s.sh.apply eff } := by
  have hm := Call.step_moved hc
  have hd := hm.does
  have hstdin : (s.sh.apply eff).stdin = s.sh.stdin :=
    Shared.stdin_apply (by rintro bytes rfl; exact hd)
  refine ⟨hs.synced, hs.parsed, ?_, hstdin ▸ hs.sent, hstdin ▸ hs.pipe, ?_, ?_, ?_⟩
  · obtain ⟨lost, hacc, hlost⟩ := hs.queue
    rcases hd.keeps with ⟨state, rfl⟩ | ⟨job, rfl⟩ | ⟨-, hjobs⟩
    · exact ⟨lost, hacc, hlost⟩
    · exact ⟨lost, by simp [Shared.apply, Mpsc.push, hacc], hlost⟩
    · exact ⟨lost, by rw [hjobs]; exact hacc, hlost⟩
  · intro k v hk
    exact hs.results k v (by rwa [slot_of_call hd] at hk)
  · intro k answer hk
    rw [slot_of_call hd]
    dsimp only at hk
    by_cases he : k = key
    · subst he
      rw [Function.update_self] at hk
      rcases Call.step_answered hc with ha | ⟨params, answer', -, hslot, ha⟩ | ⟨err, ha, hno⟩
      · exact hs.answered k answer (ha ▸ hk)
      · rw [ha, Option.some.injEq] at hk
        exact Or.inl (hk ▸ hslot)
      · rw [ha, Option.some.injEq] at hk
        exact Or.inr ⟨err, hk.symm, hno⟩
    · rw [Function.update_of_ne he] at hk
      exact hs.answered k answer hk
  · intro job hj params pc hk
    dsimp only at hk
    by_cases he : job.reply = key
    · subst he
      rw [Function.update_self] at hk
      rcases accepted_of_call hd with ha | ⟨params', ha, rfl, -⟩
      · -- the call is not idle, since its job is in the queue's history
        have hin : job ∈ s.sh.jobs.accepted := ha ▸ hj
        rcases hm.params params pc hk with hidle | ⟨pc₀, hold⟩
        · exact absurd (List.mem_map_of_mem hin) (hb.fresh job.reply (by simp [hidle]))
        · exact hs.params job hin params pc₀ hold
      · rw [ha] at hj
        obtain ⟨hkey, -, hmay, -, ⟨-, hc'⟩ | ⟨hw, -⟩⟩ := hd
        · obtain ⟨rfl, -⟩ := Call.predict.inj (hk.symm.trans hc')
          rcases List.mem_append.mp hj with hj | hj
          · exact absurd (List.mem_map_of_mem hj) (hb.fresh job.reply hmay)
          · rw [List.mem_singleton.mp hj]
        · have hno := not_prediction_of_waking hw
          rcases hm.kind with hidle | hkind
          · exact absurd hidle hno.2
          · rw [hk, hno.1] at hkind
            cases hkind
    · rw [Function.update_of_ne he] at hk
      rcases accepted_of_call hd with ha | ⟨params', ha, -⟩
      · exact hs.params job (ha ▸ hj) params pc hk
      · rcases List.mem_append.mp (ha ▸ hj) with hj | hj
        · exact hs.params job hj params pc hk
        · exact absurd (by rw [List.mem_singleton.mp hj]) he

/-- **Requests and replies are in step in every reachable state.** -/
theorem Served.reachable (h : (handle cx).Reachable s) : s.Served cx := by
  refine Machine.Reachable.induct (Served.init cx) ?_ h
  intro s l s' hr hs hstep
  have hb := Booked.reachable hr
  rcases step_cases hstep with
    ⟨ev, p, eff, -, hp, rfl⟩ | ⟨key, ev, c, eff, -, hc, rfl⟩ | ⟨d, -, rfl⟩ | ⟨status, -, rfl⟩
  · exact hs.sup hb hp
  · exact hs.call hb hc
  · exact ⟨hs.synced, hs.parsed, hs.queue, hs.sent, hs.pipe, hs.results, hs.answered, hs.params⟩
  · exact ⟨hs.synced, hs.parsed, hs.queue, hs.sent, hs.pipe, hs.results, hs.answered, hs.params⟩

/-- A frame that a step begins is for the job in hand, and records whether its caller is
    there. -/
theorem frames_step (h : s.step cx l = some s') {f : Dispatch}
    (hf : f ∈ s'.sup.frames) :
    f ∈ s.sup.frames ∨ (l = .sup .go ∧ s.sup.pc = .dequeued f.job ∧ s.sh.state ≠ .shuttingDown ∧
      f.wanted = !(s.sh.replies f.job.reply).closed) := by
  rcases step_cases h with
    ⟨ev, p, eff, rfl, hp, rfl⟩ | ⟨key, ev, c, eff, -, hc, rfl⟩ | ⟨d, -, rfl⟩ | ⟨status, -, rfl⟩
  · rcases Sup.step_frames hp with ⟨he, -⟩ | ⟨job, hpc, hst, rfl, -, rfl⟩
    · exact Or.inl (he ▸ hf)
    · rcases List.mem_append.mp hf with hf | hf
      · exact Or.inl hf
      · obtain rfl := List.mem_singleton.mp hf
        exact Or.inr ⟨rfl, hpc, hst, rfl⟩
  · exact Or.inl hf
  · exact Or.inl hf
  · exact Or.inl hf

/-- A result that was returned was sent. -/
theorem Served.answered_ok (hs : s.Served cx) {k : Nat} {v : Json}
    (hk : (s.calls k).answered = some (.ok v)) : (s.sh.replies k).slot = .sent (.ok v) :=
  (hs.answered k _ hk).resolve_right (by simp)

/-- The prediction of call `k` was answered with the result of the reply to its own frame. -/
theorem Served.own_reply (hs : s.Served cx) (hb : s.Booked) {k : Nat} {v : Json}
    (hk : (s.calls k).answered = some (.ok v)) :
    ∃ f ∈ s.sup.frames, ∃ l ∈ s.sup.lines, ∃ value,
      (∀ f' ∈ s.sup.frames, f'.job.reply = k ↔ f' = f) ∧
      (∀ f' ∈ s.sup.frames, f'.id = f.id ↔ f' = f) ∧
      (∀ params pc, s.calls k = .predict params pc → f.job.params = params) ∧
      cx.host.fromStr l.text = .ok value ∧
      (value.get "id").bind Json.asStr = some f.id ∧
      (value.get "ok").bind Json.asBool = some true ∧ value.get "result" = some v := by
  obtain ⟨i, f, hf, rfl, hr⟩ := hs.results k v (hs.answered_ok hk)
  have hmem : f ∈ s.sup.frames := List.mem_of_getElem? hf
  obtain ⟨l, hl, hlr⟩ := List.mem_filterMap.mp (List.mem_of_getElem? hr)
  have hfate : l.fate = .reply f.id (.ok v) := by
    unfold LineRead.reply at hlr
    split at hlr <;> simp_all
  have hsound := hs.parsed.sound l hl
  simp only [LineRead.Sound, hfate] at hsound
  obtain ⟨value, hv, hp⟩ := hsound
  -- each call sends one job at most, and each frame has its own id
  have hjobs : (s.sup.frames.map (Job.reply ∘ Dispatch.job)).Nodup := by
    rw [← List.map_map]
    exact (hs.jobs.map Job.reply).sublist.nodup hb.balanced.accepted_nodup
  have hids : (s.sup.frames.map Dispatch.id).Nodup := hs.synced.ids ▸ nodup_ids _
  refine ⟨f, hmem, l, hl, value, ?_, ?_, ?_, hv, parseReply_ok_id hp, parseReply_ok_result hp⟩
  · intro f' hf'
    exact ⟨fun h => List.inj_on_of_nodup_map hjobs hf' hmem h, fun h => by rw [h]⟩
  · intro f' hf'
    exact ⟨fun h => List.inj_on_of_nodup_map hids hf' hmem h, fun h => by rw [h]⟩
  · exact hs.params f.job (hs.jobs.subset (List.mem_map_of_mem hmem))

/-- **Protocol synchronisation.**  In every reachable state: frames are begun only after the
    first line was accepted as the ready line, and no later one is; the pipe holds a prefix
    of the frames in order; the frames carry the ids `"1"`, …, `"n"` for the jobs in the
    order of the queue; the accepted replies carry the ids `"1"`, …, `"m"` where `m` is `n`,
    or `n - 1` while a request is outstanding or after the session; a complete line that is
    read is the ready line, the reply to the request in flight, or the last of the session,
    which then restarts; and an `Ok` answer is the result of the reply to the one frame of
    that very call. -/
theorem protocol_synchronised (h : (handle cx).Reachable s) :
    (s.sup.frames ≠ [] → Announced s.sup.lines) ∧
    s.sh.stdin <+: s.sup.frames.flatMap (Dispatch.bytes cx) ∧
    s.sup.frames.map Dispatch.id = ids s.sup.frames.length ∧
    s.sup.frames.map Dispatch.job <+: s.sh.jobs.accepted ∧
    s.sup.replies.map Prod.fst = ids s.sup.replies.length ∧
    (s.sup.replies.length = s.sup.frames.length ∨
      (s.sup.replies.length + 1 = s.sup.frames.length ∧
        ((∃ key, s.sup.outstanding = some (toString s.sup.frames.length, key)) ∨
          s.sup.outcome.isSome))) ∧
    (∀ source p text, s.sup.pc = .idle ∨ s.sup.pc = .wait →
      s.sup.read cx source = some (p, some (.ok (.line text))) →
      ∃ p' fate, s.sup.step cx s.sh (.read source) = some (p', .skip) ∧
        p'.lines = s.sup.lines ++ [⟨text, fate⟩] ∧ Sup.Filed cx s.sh s.sup p' text fate) ∧
    (∀ l ∈ s.sup.lines, l.Sound cx) ∧
    (∀ l ∈ s.sup.lines, l.fate = .ended → ∃ reason, s.sup.outcome = some (.restart reason)) ∧
    (∀ l ∈ s.sup.lines.dropLast, l.fate ≠ .ended) ∧
    (∀ k v, (s.calls k).answered = some (.ok v) →
      ∃ f ∈ s.sup.frames, ∃ l ∈ s.sup.lines, ∃ value,
        (∀ f' ∈ s.sup.frames, f'.job.reply = k ↔ f' = f) ∧
        (∀ f' ∈ s.sup.frames, f'.id = f.id ↔ f' = f) ∧
        (∀ params pc, s.calls k = .predict params pc → f.job.params = params) ∧
        cx.host.fromStr l.text = .ok value ∧
        (value.get "id").bind Json.asStr = some f.id ∧
        (value.get "ok").bind Json.asBool = some true ∧ value.get "result" = some v) := by
  have hb := Booked.reachable h
  have hs := Served.reachable h
  refine ⟨?_, hs.sent, hs.synced.ids, hs.jobs, hs.synced.replies, ?_,
    fun source p text hpc hr => Sup.step_line hpc hr, hs.parsed.sound, hs.parsed.ended,
    hs.parsed.last, fun k v hk => hs.own_reply hb hk⟩
  · intro hf
    rcases (Handshake.reachable h).staged.weaken with ⟨hno, -⟩ | ha
    · exact absurd hno hf
    · exact ha
  · cases ho : s.sup.outstanding with
    | none => exact (hs.synced.settled ho).imp_right (And.imp_right Or.inr)
    | some o =>
      obtain ⟨id, key⟩ := o
      obtain ⟨before, f, he, rfl, -, hlen⟩ := hs.synced.outstanding id key ho
      refine Or.inr ⟨by simp [he, hlen], Or.inl ⟨key, ?_⟩⟩
      simp [he, hs.synced.id_of_last he]

/-- The answer is `null`. -/
def isNullAnswer : Option Answer → Bool
  | some (.ok .null) => true
  | _ => false

/-- The test of an answer. -/
theorem eq_of_isNullAnswer {answer : Option Answer} (h : isNullAnswer answer = true) :
    answer = some (.ok .null) := by
  unfold isNullAnswer at h
  split at h
  · rfl
  · cases h

open Replay in
/-- The result at a run: the prediction of call `1` returns the `null` of the reply to its
    frame. -/
theorem protocol_synchronised_answered :
    ∃ s, (handle demo).Reachable s ∧ (s.calls 1).answered = some (.ok .null) ∧
      ∃ f ∈ s.sup.frames, ∀ f' ∈ s.sup.frames, f'.job.reply = 1 ↔ f' = f := by
  have hrun : ((handle demo).exec (handle demo).init
      (ready ++ predict 1 ++ dispatch ++ [emits 1] ++ go 1 ++ [.call 1 .go])).map
      (fun s => isNullAnswer (s.calls 1).answered) = some true := by decide +kernel
  obtain ⟨s, hs, hv⟩ := Machine.reachable_of_exec hrun
  have hans := eq_of_isNullAnswer hv
  obtain ⟨-, -, -, -, -, -, -, -, -, -, hown⟩ := protocol_synchronised hs
  obtain ⟨f, hf, l, hl, value, hone, -⟩ := hown 1 .null hans
  exact ⟨s, hs, hans, f, hf, hone⟩

end Sys

end Layad
