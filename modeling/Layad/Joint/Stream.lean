import Layad.Joint.Story
import Layad.Library.Framing

namespace Layad

open Channel Framing Transition

/-!
# The stream from the worker to the daemon

The supervisor reads the worker's frames in order, one line each, in whatever pieces they
come.  What it has read, what it still holds, what lies in the pipe and what the worker has
not written yet are together the frames that were emitted (`Sup.Following`); every step of
the supervisor keeps that, up to the end of its session (`Sup.Following.step`).
-/

/-- The lines of sendable frames can be told apart. -/
theorem Sendable.framed {f64Text : String → Option String} {frames : List PyVal}
    (h : ∀ frame ∈ frames, Sendable f64Text frame) :
    Framed newline (frames.map Worker.lineBytes) := by
  intro bytes hb
  obtain ⟨frame, hf, rfl⟩ := List.mem_map.mp hb
  exact ⟨_, rfl, Worker.newline_notMem (h frame hf).2⟩

namespace Sup

variable {cx : Ctx} {sh : Shared} {p p' p₁ : Sup} {ev : SupEv} {eff : Eff}

/-! ### One read -/

/-- What a read does: a turn over what the reader still holds or over what the pipe gives, or
    nothing, or it fails. -/
theorem read_cases {source : Source} {result : Option (Except String Frame)}
    (h : p.read cx source = some (p₁, result)) :
    (∃ available, (source = .buffered ∧ available = p.avail ∧ p.avail ≠ [] ∨
        source = .pipe (.data available) ∧ p.avail = []) ∧
      p₁ = (p.turn cx available).1 ∧ result = (p.turn cx available).2) ∨
    (source = .pipe .interrupted ∧ p₁ = p ∧ result = none) ∨
    (∃ err, source = .pipe (.failed err) ∧ p₁ = p ∧ result = some (.error err)) := by
  cases source with
  | buffered =>
    simp only [read] at h
    split at h
    · cases h
    · rename_i hne
      obtain ⟨rfl, rfl⟩ := Prod.mk.inj (Option.some.inj h)
      exact .inl ⟨p.avail, .inl ⟨rfl, rfl, by simpa using hne⟩, rfl, rfl⟩
  | pipe fill =>
    simp only [read] at h
    split at h
    · rename_i hnil
      cases fill with
      | data bytes =>
        obtain ⟨rfl, rfl⟩ := Prod.mk.inj (Option.some.inj h)
        exact .inl ⟨bytes, .inr ⟨rfl, by simpa using hnil⟩, rfl, rfl⟩
      | interrupted =>
        obtain ⟨rfl, rfl⟩ := Prod.mk.inj (Option.some.inj h)
        exact .inr (.inl ⟨rfl, rfl, rfl⟩)
      | failed err =>
        obtain ⟨rfl, rfl⟩ := Prod.mk.inj (Option.some.inj h)
        exact .inr (.inr ⟨err, rfl, rfl, rfl⟩)
    · cases h

/-- A turn over a part of the stream of some frames, of which `t` is still to come. -/
theorem turn_stream {frames : List PyVal} (hs : ∀ frame ∈ frames, Sendable cx.host.f64Text frame)
    (hbuf : newline ∉ p.buf) {available t : List UInt8} (hne : available ≠ [])
    (he : (frames.map Worker.lineBytes).flatten = p.buf ++ (available ++ t)) :
    ((p.turn cx available).2 = none → newline ∉ (p.turn cx available).1.buf ∧
      (frames.map Worker.lineBytes).flatten =
        (p.turn cx available).1.buf ++ ((p.turn cx available).1.avail ++ t)) ∧
    ∀ text, (p.turn cx available).2 = some (.ok (.line text)) → ∃ frame rest,
      frames = frame :: rest ∧ text = Worker.lineText frame ∧
      newline ∉ (p.turn cx available).1.buf ∧
      (rest.map Worker.lineBytes).flatten =
        (p.turn cx available).1.buf ++ ((p.turn cx available).1.avail ++ t) := by
  unfold turn
  dsimp only
  rcases split_newline available with hno | ⟨xs, ys, rfl, hxs⟩
  · rw [readTurn_part hno hne]
    split
    · -- too long: an error, and no line
      exact ⟨by simp, by simp⟩
    · -- a part of the first frame joins the buffer
      exact ⟨fun _ => ⟨by simp [hbuf, hno], by simpa using he⟩, by simp⟩
  · rw [readTurn_line hxs]
    split
    · exact ⟨by simp, by simp⟩
    · refine ⟨by simp, fun text htext => ?_⟩
      have he' : (frames.map Worker.lineBytes).flatten = (p.buf ++ xs) ++ newline :: (ys ++ t) := by
        simpa using he
      -- the buffer and what came before the line feed are the first frame
      obtain ⟨others, hframes, hothers⟩ :=
        (Sendable.framed hs).head (by simp [hbuf, hxs]) he'
      obtain ⟨frame, rest, rfl, hline, rfl⟩ := List.map_eq_cons_iff.mp hframes
      have hfinish := @Worker.finishFrame_line cx.host (Worker.lineText frame)
        (Worker.le_of_mem_lineText (hs frame List.mem_cons_self).2)
      have hbytes : Worker.lineBytes frame = utf8 (Worker.lineText frame) ++ [newline] := rfl
      rw [← hbytes, hline] at hfinish
      rw [hfinish, Option.some.injEq, Except.ok.injEq, Frame.line.injEq] at htext
      exact ⟨frame, rest, rfl, htext.symm, by simp, by simpa using hothers.symm⟩

/-- The text of a line that the end of the stream has cut off. -/
theorem utf8_of_finishFrame {host : Host} {frame : PyVal}
    (hnum : frame.Every (PyVal.NumberLeaf host.f64Text)) {buf : List UInt8}
    (hbegins : buf <+: utf8 (Worker.lineText frame)) {text : String}
    (h : finishFrame host buf = .ok (.line text)) : utf8 text = buf := by
  have hlast : ∀ b ∈ buf.getLast?, 0x20 ≤ b := fun b hb =>
    Worker.le_of_mem_lineText hnum b (hbegins.subset (List.mem_of_getLast? hb))
  have hkeep : ∀ b : UInt8, b < 0x20 → popIf b buf = buf := by
    intro b hb
    refine if_neg fun hlastb => ?_
    exact absurd (hlast b hlastb) (by simpa using hb)
  rw [finishFrame, hkeep newline (by decide), hkeep carriageReturn (by decide)] at h
  unfold String.fromUTF8? at h
  split at h
  · rename_i hvalid
    split at hvalid
    · cases h
      cases hvalid
      rfl
    · cases hvalid
  · cases h

/-- The last turn, over the end of the stream, when `t` was never written. -/
theorem turn_end {frames : List PyVal} (hs : ∀ frame ∈ frames, Sendable cx.host.f64Text frame)
    (hbuf : newline ∉ p.buf) {t : List UInt8}
    (he : (frames.map Worker.lineBytes).flatten = p.buf ++ t) {text : String}
    (h : (p.turn cx []).2 = some (.ok (.line text))) :
    (∃ frame rest, frames = frame :: rest ∧ utf8 text <+: utf8 (Worker.lineText frame)) ∧
      (p.turn cx []).1.buf = [] ∧ (p.turn cx []).1.avail = [] := by
  unfold turn readTurn at h ⊢
  dsimp only at h ⊢
  by_cases hnil : p.buf.isEmpty
  · simp [hnil] at h
  · simp only [List.isEmpty_nil, if_true, hnil, Bool.false_eq_true, if_false] at h ⊢
    have hne : p.buf ≠ [] := by simpa using hnil
    obtain ⟨body, others, hframes, hbegins⟩ := (Sendable.framed hs).part hbuf hne he
    obtain ⟨frame, rest, rfl, hline, rfl⟩ := List.map_eq_cons_iff.mp hframes
    have hbody : body = utf8 (Worker.lineText frame) := (List.append_cancel_right hline).symm
    refine ⟨⟨frame, rest, rfl, ?_⟩, trivial, trivial⟩
    rw [hbody] at hbegins
    rwa [utf8_of_finishFrame (hs frame List.mem_cons_self).2 hbegins (Option.some.inj h)]

/-! ### What a step does with the stream -/

/-- A frame read between requests leaves the buffers alone. -/
@[simp] theorem onIdleFrame_buffers (frame : Except String Frame) :
    (p.onIdleFrame cx sh frame).buf = p.buf ∧ (p.onIdleFrame cx sh frame).avail = p.avail := by
  unfold onIdleFrame settleRestart
  repeat' split
  all_goals exact ⟨rfl, rfl⟩

/-- A frame read for a request leaves the buffers alone. -/
@[simp] theorem onWaitFrame_buffers (frame : Except String Frame) :
    (p.onWaitFrame cx sh frame).buf = p.buf ∧ (p.onWaitFrame cx sh frame).avail = p.avail := by
  unfold onWaitFrame onReply failInflight
  dsimp only
  repeat' split
  all_goals exact ⟨rfl, rfl⟩

/-- A frame that is no complete line ends the session. -/
theorem onIdleFrame_ends {frame : Except String Frame} (h : ∀ text, frame ≠ .ok (.line text)) :
    (p.onIdleFrame cx sh frame).outcome.isSome = true := by
  unfold onIdleFrame
  repeat' split
  all_goals first
    | exact absurd rfl (h _)
    | simp

/-- Anything but a line ends the session. -/
theorem onWaitFrame_ends {frame : Except String Frame} (h : ∀ text, frame ≠ .ok (.line text)) :
    (p.onWaitFrame cx sh frame).outcome.isSome = true := by
  unfold onWaitFrame
  repeat' split
  all_goals first
    | exact absurd rfl (h _)
    | simp

/-- What a step does with the reader's buffers and the lines: nothing, or one turn of a read
    with what becomes of its frame. -/
theorem step_turns (h : p.step cx sh ev = some (p', eff)) :
    ((∀ source, ev ≠ .read source) ∧ p'.buf = p.buf ∧ p'.avail = p.avail ∧ p'.lines = p.lines) ∨
    ∃ source p₁ result, ev = .read source ∧ eff = .skip ∧ p.read cx source = some (p₁, result) ∧
      p'.buf = p₁.buf ∧ p'.avail = p₁.avail ∧
      ((result = none ∧ p' = p₁) ∨ ∃ frame, result = some frame ∧ Files cx sh p₁ p' frame ∧
        ((∃ text, frame = .ok (.line text)) ∨ p'.outcome.isSome = true)) := by
  revert h
  fun_cases Sup.step cx sh p ev
  all_goals intro h
  all_goals simp only [Option.some.injEq, Prod.mk.injEq, reduceCtorEq] at h
  all_goals obtain ⟨rfl, rfl⟩ := h
  all_goals try
    left
    refine ⟨by simp, ?_⟩
    first
      | exact ⟨rfl, rfl, rfl⟩
      | (unfold settleRestart; split <;> exact ⟨rfl, rfl, rfl⟩)
      | (unfold failInflight; split <;> exact ⟨rfl, rfl, rfl⟩)
  -- a read
  all_goals
    right
    rename p.read cx _ = some _ => hr
    refine ⟨_, _, _, rfl, rfl, hr, ?_⟩
  · exact ⟨rfl, rfl, .inl ⟨rfl, rfl⟩⟩
  · rename Except String Frame => frame
    refine ⟨by simp, by simp, .inr ⟨frame, rfl, onIdleFrame_lines frame, ?_⟩⟩
    by_cases hline : ∃ text, frame = .ok (.line text)
    · exact .inl hline
    · exact .inr (onIdleFrame_ends fun text ht => hline ⟨text, ht⟩)
  · exact ⟨rfl, rfl, .inl ⟨rfl, rfl⟩⟩
  · rename Except String Frame => frame
    refine ⟨by simp, by simp, .inr ⟨frame, rfl, onWaitFrame_lines frame, ?_⟩⟩
    by_cases hline : ∃ text, frame = .ok (.line text)
    · exact .inl hline
    · exact .inr (onWaitFrame_ends fun text ht => hline ⟨text, ht⟩)

/-! ### The frames behind the lines -/

/-- The lines that were accepted are the frames that were emitted, in order. -/
def Follows (frames : List PyVal) (lines : List LineRead) : Prop :=
  ∀ (i : Nat) (line : LineRead), lines[i]? = some line → line.fate ≠ .ended →
    ∃ frame, frames[i]? = some frame ∧ line.text = Worker.lineText frame

/-- Lines accepted so far are the first of more frames, too. -/
theorem Follows.mono {frames frames' : List PyVal} {lines : List LineRead}
    (h : Follows frames lines) (hf : frames <+: frames') : Follows frames' lines := by
  intro i line hi hfate
  obtain ⟨frame, hframe, htext⟩ := h i line hi hfate
  exact ⟨frame, getElem?_of_prefix hf hframe, htext⟩

/-- One more line, if it is that of the next frame. -/
theorem Follows.concat {frames : List PyVal} {lines : List LineRead} (h : Follows frames lines)
    {line : LineRead} (hline : line.fate ≠ .ended →
      ∃ frame, frames[lines.length]? = some frame ∧ line.text = Worker.lineText frame) :
    Follows frames (lines ++ [line]) := by
  intro i l hi hfate
  rcases Nat.lt_or_ge i lines.length with hlt | hge
  · exact h i l (by rwa [List.getElem?_append_left hlt] at hi) hfate
  · rw [List.getElem?_append_right hge] at hi
    obtain ⟨hlt, rfl⟩ := List.getElem?_eq_some_iff.mp hi
    have hi0 : i = lines.length := by
      simp only [List.length_singleton] at hlt
      omega
    subst hi0
    simpa using hline (by simpa using hfate)

/-- What is in the reader's buffers, in the pipe and with the worker is the rest of the frames
    that were emitted; or the worker is `gone`, from which nothing more comes, and nothing is left
    to read. -/
def Following (frames : List PyVal) (out pending : List UInt8) (gone : Prop) (p : Sup) : Prop :=
  ∃ read rest, frames = read ++ rest ∧ p.lines.map LineRead.text = read.map Worker.lineText ∧
    newline ∉ p.buf ∧
    ((rest.map Worker.lineBytes).flatten = p.buf ++ (p.avail ++ (out ++ pending)) ∨
      (gone ∧ read ≠ [] ∧ p.buf = [] ∧ p.avail = [] ∧ out = []))

/-- What the pipe gives is what lies in it, and its end comes only when the worker is `gone`. -/
def Admissible (out : List UInt8) (gone : Prop) (ev : SupEv) : Prop :=
  ∀ bytes, ev = .read (.pipe (.data bytes)) →
    (bytes ≠ [] → bytes <+: out) ∧ (bytes = [] → out = [] ∧ gone)

/-- The bytes an event takes from the pipe. -/
def taking : SupEv → List UInt8
  | .read source => source.delivered
  | _ => []

/-- A line that the decoder takes. -/
theorem Filed.fromStr {text : String} {fate : Fate} (h : Filed cx sh p p' text fate)
    (hfate : fate ≠ .ended) : ∃ value, cx.host.fromStr text = .ok value := by
  cases fate with
  | ready info => exact h.1.imp fun _ hv => hv.1
  | reply id body => exact h.imp fun _ hv => hv.choose_spec.1
  | ended => exact absurd rfl hfate

/-- A read that yields no complete line, but a frame, ends the session. -/
theorem Files.lines_of_ne {frame : Except String Frame} (h : Files cx sh p p' frame)
    (hne : ∀ text, frame ≠ .ok (.line text)) : p'.lines = p.lines := by
  rcases h with ⟨text, fate, rfl, -⟩ | ⟨-, hl⟩
  · exact absurd rfl (hne text)
  · exact hl

variable {read rest : List PyVal} {out pending : List UInt8} {gone : Prop}

/-- A turn over bytes of the stream. -/
theorem Following.turn (hrest : ∀ frame ∈ rest, Sendable cx.host.f64Text frame)
    (hfollows : Follows (read ++ rest) p.lines)
    (htexts : p.lines.map LineRead.text = read.map Worker.lineText) (hbuf : newline ∉ p.buf)
    {available out' : List UInt8} (hne : available ≠ [])
    (he : (rest.map Worker.lineBytes).flatten = p.buf ++ (available ++ (out' ++ pending)))
    (hb : p'.buf = (p.turn cx available).1.buf) (ha : p'.avail = (p.turn cx available).1.avail)
    (hdone : ((p.turn cx available).2 = none ∧ p' = (p.turn cx available).1) ∨
      ∃ frame, (p.turn cx available).2 = some frame ∧
        Files cx sh (p.turn cx available).1 p' frame ∧
        ((∃ text, frame = .ok (.line text)) ∨ p'.outcome.isSome = true)) :
    Follows (read ++ rest) p'.lines ∧
      (p'.outcome.isSome = true ∨ p'.Following (read ++ rest) out' pending gone) := by
  have hlen : p.lines.length = read.length := by simpa using congrArg List.length htexts
  obtain ⟨hpart, hline⟩ := turn_stream hrest hbuf hne he
  rcases hdone with ⟨hnone, rfl⟩ | ⟨frame, hsome, hfiles, hends⟩
  · obtain ⟨hbuf', he'⟩ := hpart hnone
    exact ⟨hfollows, .inr ⟨read, rest, rfl, htexts, hbuf', .inl he'⟩⟩
  · rcases hfiles with ⟨text, fate, rfl, hl, -⟩ | ⟨hno, hl⟩
    · obtain ⟨frame, rest, rfl, rfl, hbuf', he'⟩ := hline text hsome
      have hl : p'.lines = p.lines ++ [⟨Worker.lineText frame, fate⟩] := hl
      rw [hl]
      refine ⟨hfollows.concat fun _ => ⟨frame, by simp [hlen], rfl⟩, .inr ?_⟩
      exact ⟨read ++ [frame], rest, by simp, by simp [hl, htexts], hb ▸ hbuf',
        .inl (by rw [hb, ha]; exact he')⟩
    · have hl : p'.lines = p.lines := hl
      rw [hl]
      exact ⟨hfollows, .inl (hends.resolve_left fun ht => ht.elim hno)⟩

/-- The turn over the end of the stream. -/
theorem Following.turn_nil (hjson : cx.host.ReadsText)
    (hrest : ∀ frame ∈ rest, Sendable cx.host.f64Text frame)
    (hfollows : Follows (read ++ rest) p.lines)
    (htexts : p.lines.map LineRead.text = read.map Worker.lineText) (hbuf : newline ∉ p.buf)
    (he : (rest.map Worker.lineBytes).flatten = p.buf ++ pending ∨ p.buf = []) (hgone : gone)
    (hb : p'.buf = (p.turn cx []).1.buf) (ha : p'.avail = (p.turn cx []).1.avail)
    (hdone : ∃ frame, (p.turn cx []).2 = some frame ∧
      Files cx sh (p.turn cx []).1 p' frame ∧
      ((∃ text, frame = .ok (.line text)) ∨ p'.outcome.isSome = true)) :
    Follows (read ++ rest) p'.lines ∧
      (p'.outcome.isSome = true ∨ p'.Following (read ++ rest) [] pending gone) := by
  have hlen : p.lines.length = read.length := by simpa using congrArg List.length htexts
  obtain ⟨frame, hsome, hfiles, hends⟩ := hdone
  rcases hfiles with ⟨text, fate, rfl, hl, hfiled⟩ | ⟨hno, hl⟩
  · -- the end of the stream makes a line of what was left
    have hl : p'.lines = p.lines ++ [⟨text, fate⟩] := hl
    have he : (rest.map Worker.lineBytes).flatten = p.buf ++ pending := by
      rcases he with he | hnil
      · exact he
      · simp [Sup.turn, readTurn, hnil] at hsome
    obtain ⟨⟨frame, rest, rfl, hbegins⟩, hbuf', havail'⟩ := turn_end hrest hbuf he hsome
    rw [hl]
    by_cases hfate : fate = .ended
    · subst hfate
      obtain ⟨⟨reason, ho⟩, -⟩ := hfiled
      exact ⟨hfollows.concat fun h => absurd rfl h, .inl (by rw [ho]; rfl)⟩
    · -- the decoder takes no text that was cut off
      obtain ⟨value, hvalue⟩ := hfiled.fromStr hfate
      obtain ⟨⟨members, rfl⟩, hnum⟩ := hrest frame List.mem_cons_self
      have htext : text = Worker.lineText (.dict members) := by
        by_contra hne
        exact Worker.fromStr_truncated hjson hnum hbegins
          (fun h => hne (utf8_injective h)) value hvalue
      refine ⟨hfollows.concat fun _ => ⟨_, by simp [hlen], htext⟩, .inr ?_⟩
      exact ⟨read ++ [.dict members], rest, by simp, by simp [hl, htexts, htext],
        by simp [hb, hbuf'], .inr ⟨hgone, by simp, hb.trans hbuf', ha.trans havail', rfl⟩⟩
  · -- no line: the session ends
    have hl : p'.lines = p.lines := hl
    rw [hl]
    exact ⟨hfollows, .inl (hends.resolve_left fun ht => ht.elim hno)⟩

/-- **What a step does with the stream.**  The lines accepted are frames that were emitted, and
    as long as the session goes on the rest of the frames is still to come. -/
theorem Following.step {frames : List PyVal} {out pending : List UInt8} {gone : Prop}
    (hjson : cx.host.ReadsText) (hs : ∀ frame ∈ frames, Sendable cx.host.f64Text frame)
    (hfollows : Follows frames p.lines) (hf : p.Following frames out pending gone)
    (hadm : Admissible out gone ev) (h : p.step cx sh ev = some (p', eff)) :
    Follows frames p'.lines ∧
      (p'.outcome.isSome = true ∨
        p'.Following frames (out.drop (taking ev).length) pending gone) := by
  obtain ⟨read, rest, rfl, htexts, hbuf, hstream⟩ := hf
  have hrest : ∀ frame ∈ rest, Sendable cx.host.f64Text frame := fun frame hm =>
    hs frame (List.mem_append_right read hm)
  rcases step_turns h with ⟨hno, hb, ha, hl⟩ | ⟨source, p₁, result, rfl, -, hread, hb, ha, hdone⟩
  · -- nothing was read
    have htaking : taking ev = [] := by
      cases ev with
      | read source => exact absurd rfl (hno source)
      | _ => rfl
    rw [hl, htaking]
    exact ⟨hfollows, .inr ⟨read, rest, rfl, hl ▸ htexts, hb ▸ hbuf, by rwa [hb, ha]⟩⟩
  · rcases read_cases hread with
      ⟨available, hfrom, rfl, rfl⟩ | ⟨rfl, rfl, rfl⟩ | ⟨err, rfl, rfl, rfl⟩
    · rcases hfrom with ⟨rfl, rfl, hne⟩ | ⟨rfl, hnil⟩
      · -- what the reader still holds
        have he := hstream.resolve_right fun hg => hne hg.2.2.2.1
        exact Following.turn hrest hfollows htexts hbuf hne he hb ha hdone
      · -- what comes from the pipe: nothing at its end, else the beginning of the output
        obtain ⟨hpart, hend⟩ := hadm available rfl
        by_cases hne : available = []
        · subst hne
          obtain ⟨rfl, hgone⟩ := hend rfl
          have hyields : (p.turn cx []).2 ≠ none := by
            simp only [Sup.turn, readTurn, List.isEmpty_nil, if_true]
            split <;> simp
          have he : (rest.map Worker.lineBytes).flatten = p.buf ++ pending ∨ p.buf = [] :=
            hstream.imp (fun he => by simpa [hnil] using he) fun hg => hg.2.2.1
          exact Following.turn_nil hjson hrest hfollows htexts hbuf he hgone hb ha
            (hdone.resolve_left fun h => hyields h.1)
        · obtain ⟨out', rfl⟩ := hpart hne
          have he : (rest.map Worker.lineBytes).flatten =
              p.buf ++ (available ++ (out' ++ pending)) := by
            rcases hstream with he | ⟨-, -, -, -, hout⟩
            · simpa [hnil] using he
            · exact absurd (List.append_eq_nil_iff.mp hout).1 hne
          rw [show (available ++ out').drop (taking (.read (.pipe (.data available)))).length = out'
            from List.drop_left]
          exact Following.turn hrest hfollows htexts hbuf hne he hb ha hdone
    · -- the read was interrupted
      rcases hdone with ⟨-, rfl⟩ | ⟨frame, hsome, -⟩
      · exact ⟨hfollows, .inr ⟨read, rest, rfl, htexts, hbuf, hstream⟩⟩
      · cases hsome
    · -- the read failed
      rcases hdone with ⟨hnone, -⟩ | ⟨frame, hsome, hfiles, hends⟩
      · cases hnone
      · cases hsome
        have hl := hfiles.lines_of_ne (by simp)
        rw [hl]
        exact ⟨hfollows, .inl (hends.resolve_left (by simp))⟩

end Sup

end Layad
