import Layad.Library.Segment
import Layad.Worker.Calls
import Layad.Worker.Coherence

namespace Layad

open Segment Transition

/-!
# Reading frames

`reader` is `read_frame_buffered` called again and again on one stream: the machine's events
say how the bytes arrive, where the operating system interrupts a read, and where `select!`
drops a pending call.  What the calls return is fixed by the stream alone
(`Reader.reading_independent_of_chunking`), up to the byte count of an oversized frame.
-/

/-! ### The results a stream stands for -/

/-- A result of a read without the byte count of an oversized frame. -/
inductive Verdict where
  | line (text : String)
  | invalid (err : String)
  | oversized
  | eof
  deriving DecidableEq, Repr

/-- Forget the byte count. -/
def verdict : Except String Frame → Verdict
  | .ok (.line text) => .line text
  | .ok .eof => .eof
  | .ok (.oversized _) => .oversized
  | .error err => .invalid err

/-- What a segment of an allowed length is read as. -/
def segmentVerdict (host : Host) (segment : List UInt8) : Verdict :=
  let bytes := popIf carriageReturn (popIf newline segment)
  match String.fromUTF8? ⟨bytes.toArray⟩ with
  | some text => .line text
  | none => .invalid (host.utf8Error bytes)

/-- What the segments of a stream are read as, up to the first that is too long. -/
def verdicts (host : Host) (maxBytes : Nat) : List (List UInt8) → List Verdict
  | [] => [.eof]
  | segment :: rest =>
    if maxBytes < segment.length then [.oversized]
    else segmentVerdict host segment :: verdicts host maxBytes rest

/-- What a stream is read as. -/
def reference (host : Host) (maxBytes : Nat) (stream : List UInt8) : List Verdict :=
  verdicts host maxBytes (cut newline [] stream)

/-- What the end of a segment is read as is its verdict. -/
theorem verdict_finishFrame (host : Host) (segment : List UInt8) :
    verdict (finishFrame host segment) = segmentVerdict host segment := by
  unfold finishFrame segmentVerdict
  dsimp only
  cases String.fromUTF8? ⟨(popIf carriageReturn (popIf newline segment)).toArray⟩ <;> rfl

/-- What is there of a segment is too long already. -/
theorem verdicts_oversized {host : Host} {maxBytes : Nat} {acc : List UInt8}
    (h : maxBytes < acc.length) (s : List UInt8) :
    verdicts host maxBytes (cut newline acc s) = [.oversized] := by
  have hne : acc ≠ [] := List.ne_nil_of_length_pos (by omega)
  obtain ⟨segment, rest, hcut, hlen⟩ := length_head_cut (d := newline) hne s
  rw [hcut, verdicts, if_pos (by omega)]

/-- A segment within the limit has its verdict, and the rest theirs. -/
theorem verdicts_line {host : Host} {maxBytes : Nat} {segment : List UInt8}
    (h : ¬ maxBytes < segment.length) (rest : List (List UInt8)) :
    verdicts host maxBytes (segment :: rest) =
      segmentVerdict host segment :: verdicts host maxBytes rest := by
  rw [verdicts, if_neg h]

/-! ### One turn -/

/-- After the end of the stream or an oversized frame nothing more is read. -/
def ends : Except String Frame → Bool
  | .ok .eof | .ok (.oversized _) => true
  | _ => false

/-- A complete line does not end the reading. -/
theorem ends_finishFrame (host : Host) (buf : List UInt8) :
    ends (finishFrame host buf) = false := by
  unfold finishFrame
  dsimp only
  split <;> rfl

/-- A turn over bytes with a newline in them. -/
theorem readTurn_line {xs : List UInt8} (h : newline ∉ xs) (host : Host) (maxBytes : Nat)
    (buf ys : List UInt8) :
    readTurn host maxBytes buf (xs ++ newline :: ys) =
      if maxBytes < (buf ++ xs ++ [newline]).length then
        ⟨buf, xs ++ newline :: ys, some (.ok (.oversized (buf ++ xs ++ [newline]).length))⟩
      else ⟨[], ys, some (finishFrame host (buf ++ xs ++ [newline]))⟩ := by
  have hnone : xs.findIdx? (· = newline) = none := by
    simpa using fun x hx => ne_of_mem_of_not_mem hx h
  have hpos : (xs ++ newline :: ys).findIdx? (· = newline) = some xs.length := by
    simp [List.findIdx?_append, hnone, List.findIdx?_cons]
  have hlen : (buf ++ xs ++ [newline]).length = buf.length + (xs.length + 1) := by
    rw [List.append_assoc, List.length_append, List.length_append, List.length_singleton]
  have hsplit : xs ++ newline :: ys = (xs ++ [newline]) ++ ys := by simp
  have htake : (xs ++ newline :: ys).take (xs.length + 1) = xs ++ [newline] := by
    rw [hsplit]
    exact List.take_left' (by simp)
  have hdrop : (xs ++ newline :: ys).drop (xs.length + 1) = ys := by
    rw [hsplit]
    exact List.drop_left' (by simp)
  rw [readTurn, if_neg (by simp), hlen]
  simp only [hpos, Option.map_some, Option.getD_some, htake, hdrop, Option.isSome_some, if_true,
    List.append_assoc]

/-- A turn over bytes without a newline. -/
theorem readTurn_part {xs : List UInt8} (h : newline ∉ xs) (hne : xs ≠ []) (host : Host)
    (maxBytes : Nat) (buf : List UInt8) :
    readTurn host maxBytes buf xs =
      if maxBytes < (buf ++ xs).length then
        ⟨buf, xs, some (.ok (.oversized (buf ++ xs).length))⟩
      else ⟨buf ++ xs, [], none⟩ := by
  have hpos : xs.findIdx? (· = newline) = none := by
    simpa using fun x hx => ne_of_mem_of_not_mem hx h
  rw [readTurn, if_neg (by simpa using hne), List.length_append]
  simp [hpos]

/-- The bytes up to the first newline and what comes after, or no newline at all. -/
theorem split_newline (xs : List UInt8) :
    newline ∉ xs ∨ ∃ ys zs, xs = ys ++ newline :: zs ∧ newline ∉ ys := by
  by_cases h : newline ∈ xs
  · obtain ⟨ys, zs, rfl, hys⟩ := List.eq_append_cons_of_mem h
    exact Or.inr ⟨ys, zs, rfl, hys⟩
  · exact Or.inl h

/-- What a turn does to what is still to be read, of which `rest` is not yet delivered. -/
structure Turn.Sound (host : Host) (maxBytes : Nat) (buf available rest : List UInt8)
    (t : Turn) : Prop where
  bare : newline ∉ t.buf
  kept : t.buf.length ≤ maxBytes
  goes : t.result = none →
    verdicts host maxBytes (cut newline buf (available ++ rest)) =
      verdicts host maxBytes (cut newline t.buf (t.avail ++ rest))
  yields : ∀ result, t.result = some result →
    verdicts host maxBytes (cut newline buf (available ++ rest)) =
      verdict result ::
        if ends result then [] else verdicts host maxBytes (cut newline t.buf (t.avail ++ rest))
  shrinks : (∃ result, t.result = some result ∧ ends result = true) ∨
    2 * t.avail.length + t.buf.length < 2 * available.length + buf.length

/-- **What a turn takes it accounts for.** -/
theorem readTurn_sound (host : Host) {maxBytes : Nat} {buf available rest : List UInt8}
    (hb : newline ∉ buf) (hk : buf.length ≤ maxBytes) (hend : available = [] → rest = []) :
    (readTurn host maxBytes buf available).Sound host maxBytes buf available rest := by
  rcases split_newline available with hno | ⟨xs, ys, rfl, hxs⟩
  · by_cases hne : available = []
    · -- the end of the stream
      rw [hne, hend hne]
      by_cases hbuf : buf = []
      · -- between two segments
        rw [hbuf]
        refine ⟨by simp [readTurn], by simp [readTurn], by simp [readTurn], ?_, ?_⟩
        · rintro result ⟨⟩
          rfl
        · exact Or.inl ⟨_, rfl, rfl⟩
      · have hturn : readTurn host maxBytes buf [] = ⟨[], [], some (finishFrame host buf)⟩ := by
          simp [readTurn, hbuf]
        rw [hturn]
        refine ⟨by simp, Nat.zero_le _, by simp, ?_, Or.inr ?_⟩
        · rintro result ⟨⟩
          rw [ends_finishFrame, verdict_finishFrame, List.append_nil, cut_nil_of_ne hbuf,
            verdicts_line (by omega)]
          rfl
        · have := List.length_pos_iff.mpr hbuf
          simpa using this
    · -- a part of a segment
      rw [readTurn_part hno hne]
      split
      · -- the limit is passed before the segment ends
        rename_i hlong
        refine ⟨hb, hk, by simp, ?_, Or.inl ⟨_, rfl, rfl⟩⟩
        rintro result ⟨⟩
        rw [cut_append hno, verdicts_oversized hlong]
        rfl
      · rename_i hshort
        refine ⟨by simp [hb, hno], Nat.le_of_not_lt hshort, fun _ => ?_, by simp, Or.inr ?_⟩
        · rw [cut_append hno, List.nil_append]
        · have := List.length_pos_iff.mpr hne
          simp only [List.length_append, List.length_nil]
          omega
  · -- the end of a segment
    rw [readTurn_line hxs]
    split
    · -- the limit is passed with the segment
      rename_i hlong
      refine ⟨hb, hk, by simp, ?_, Or.inl ⟨_, rfl, rfl⟩⟩
      rintro result ⟨⟩
      rw [List.append_assoc, List.cons_append, cut_append_delimiter hxs, verdicts, if_pos hlong]
      rfl
    · rename_i hshort
      refine ⟨by simp, Nat.zero_le _, by simp, ?_, Or.inr ?_⟩
      · rintro result ⟨⟩
        rw [ends_finishFrame, verdict_finishFrame, List.append_assoc, List.cons_append,
          cut_append_delimiter hxs, verdicts_line hshort]
        rfl
      · simp only [List.length_append, List.length_cons, List.length_nil]
        omega

/-! ### The reader -/

/-- A stream that is read: what the pipe still has, what the reader's own buffer holds, the
    frame buffer, whether a call is pending, and what the calls returned. -/
structure Reader where
  rest : List UInt8
  avail : List UInt8
  buf : List UInt8
  pending : Bool
  results : List (Except String Frame)

/-- What happens to a reader. -/
inductive ReadEv where
  /-- `read_frame_buffered` is called. -/
  | call
  /-- `fill_buf` returns. -/
  | turn (source : Source)
  /-- `select!` drops the pending call. -/
  | drop

/-- What a pipe can do that has `rest` still to deliver: any nonempty part of it, nothing at
    the end, and no failure. -/
def Source.possible (rest : List UInt8) : Source → Bool
  | .buffered | .pipe .interrupted => true
  | .pipe (.failed _) => false
  | .pipe (.data bytes) => bytes.isPrefixOf rest && (!bytes.isEmpty || rest.isEmpty)

/-- The bytes the pipe delivers. -/
def Source.delivered : Source → List UInt8
  | .pipe (.data bytes) => bytes
  | _ => []

namespace Reader

/-- The stream is read to its end, or to an oversized frame. -/
def isOver (r : Reader) : Bool := r.results.getLast?.any ends

/-- One turn over the bytes `fill_buf` returned. -/
def take (host : Host) (maxBytes : Nat) (r : Reader) (available : List UInt8) : Reader :=
  let t := readTurn host maxBytes r.buf available
  { r with
    buf := t.buf
    avail := t.avail
    pending := t.result.isNone
    results := r.results ++ t.result.toList }

/-- One step. -/
def step (host : Host) (maxBytes : Nat) (r : Reader) : ReadEv → Option Reader
  | .call => if r.pending || r.isOver then none else some { r with pending := true }
  | .drop => if r.pending then some { r with pending := false } else none
  | .turn source =>
    if !r.pending || !source.possible r.rest then none
    else
      match source with
      | .buffered => if r.avail.isEmpty then none else some (r.take host maxBytes r.avail)
      | .pipe fill =>
        if r.avail.isEmpty then
          match fill with
          | .data bytes =>
            some ({ r with rest := r.rest.drop bytes.length }.take host maxBytes bytes)
          | .interrupted => some r
          | .failed _ => none
        else none

end Reader

/-- Reading a stream. -/
def reader (host : Host) (maxBytes : Nat) (stream : List UInt8) : Machine Reader ReadEv where
  init := ⟨stream, [], [], false, []⟩
  step := Reader.step host maxBytes

namespace Reader

variable {host : Host} {maxBytes : Nat} {stream : List UInt8} {r t : Reader}

/-- What is left to do: each byte is delivered and then taken. -/
def unread (r : Reader) : Nat := 2 * (r.avail.length + r.rest.length) + r.buf.length

/-- What the stream is read as from here on. -/
def remaining (host : Host) (maxBytes : Nat) (r : Reader) : List Verdict :=
  if r.isOver then [] else verdicts host maxBytes (cut newline r.buf (r.avail ++ r.rest))

/-- The results so far and the remaining ones are those of the whole stream. -/
structure Faithful (host : Host) (maxBytes : Nat) (stream : List UInt8) (r : Reader) : Prop where
  bare : newline ∉ r.buf
  kept : r.buf.length ≤ maxBytes
  agrees : r.results.map verdict ++ r.remaining host maxBytes = reference host maxBytes stream
  closed : r.pending = true → r.isOver = false

/-- The reading is over if its last result ends it. -/
theorem isOver_append (r : Reader) (results : List (Except String Frame))
    (result : Except String Frame) (h : r.results = results ++ [result]) :
    r.isOver = ends result := by
  rw [isOver, h, List.getLast?_concat, Option.any_some]

/-- **A turn over bytes that are to be read next** keeps the account, and comes nearer to the
    end of the stream. -/
theorem Faithful.take (h : r.Faithful host maxBytes stream) (ho : r.isOver = false)
    {available rest : List UInt8} (hsplit : r.avail ++ r.rest = available ++ rest)
    (hend : available = [] → rest = []) :
    ({ r with rest }.take host maxBytes available).Faithful host maxBytes stream ∧
      (({ r with rest }.take host maxBytes available).isOver = true ∨
        ({ r with rest }.take host maxBytes available).unread < r.unread) := by
  have hs := readTurn_sound host h.bare h.kept hend
  have hagrees := h.agrees
  have hlen := congrArg List.length hsplit
  rw [List.length_append, List.length_append] at hlen
  rw [remaining, if_neg (by simp [ho]), hsplit] at hagrees
  cases hr : (readTurn host maxBytes r.buf available).result with
  -- the turn goes on: the same segments remain, and there is less to read
  | none =>
    have hover : ({ r with rest }.take host maxBytes available).isOver = false := by
      rw [isOver, Reader.take, hr]
      simpa [isOver] using ho
    refine ⟨⟨hs.bare, hs.kept, ?_, fun _ => hover⟩, Or.inr ?_⟩
    · rw [remaining, hover, if_neg (by simp), ← hagrees, hs.goes hr]
      simp [Reader.take, hr]
    · rcases hs.shrinks with ⟨result, hsome, -⟩ | hlt
      · rw [hr] at hsome
        cases hsome
      · show 2 * ((readTurn host maxBytes r.buf available).avail.length + rest.length) +
          (readTurn host maxBytes r.buf available).buf.length < r.unread
        rw [unread]
        omega
  -- the turn yields the verdict on the first segment that remained
  | some result =>
    have hover : ({ r with rest }.take host maxBytes available).isOver = ends result :=
      isOver_append _ r.results result (by simp [Reader.take, hr])
    refine ⟨⟨hs.bare, hs.kept, ?_, fun hp => ?_⟩, ?_⟩
    · rw [remaining, hover, ← hagrees, hs.yields result hr]
      simp [Reader.take, hr]
    · simp [Reader.take, hr] at hp
    · rw [hover]
      rcases hs.shrinks with ⟨result', hsome, he⟩ | hlt
      · rw [hr, Option.some.injEq] at hsome
        exact Or.inl (hsome ▸ he)
      · right
        show 2 * ((readTurn host maxBytes r.buf available).avail.length + rest.length) +
          (readTurn host maxBytes r.buf available).buf.length < r.unread
        rw [unread]
        omega

/-- What a turn takes is what the reader still holds, or what the pipe delivers. -/
theorem step_turn {source : Source} (h : r.step host maxBytes (.turn source) = some t) :
    r.pending = true ∧ ((source = .pipe .interrupted ∧ t = r) ∨
      ∃ available rest, r.avail ++ r.rest = available ++ rest ∧ (available = [] → rest = []) ∧
        t = { r with rest }.take host maxBytes available) := by
  simp only [step] at h
  split at h
  · cases h
  · rename_i hp
    simp only [Bool.or_eq_true, Bool.not_eq_true', not_or, Bool.not_eq_false] at hp
    obtain ⟨hp, hposs⟩ := hp
    refine ⟨hp, ?_⟩
    split at h
    · split at h
      · cases h
      · rename_i hne
        cases h
        -- the reader's own buffer first
        exact Or.inr ⟨r.avail, r.rest, rfl, fun hnil => absurd hnil (by simpa using hne), rfl⟩
    · split at h
      · rename_i hnil
        have hnil : r.avail = [] := by simpa using hnil
        split at h
        · rename_i bytes
          cases h
          simp only [Source.possible, Bool.and_eq_true, List.isPrefixOf_iff_prefix,
            Bool.or_eq_true, Bool.not_eq_true'] at hposs
          -- then the pipe, as far as it gives
          obtain ⟨⟨rest, hrest⟩, hsome⟩ := hposs
          refine Or.inr ⟨bytes, rest, by rw [hnil, List.nil_append, hrest], fun hb => ?_, ?_⟩
          · simpa [hb, ← hrest] using hsome
          · rw [← hrest, List.drop_left]
        · cases h
          exact Or.inl ⟨rfl, rfl⟩
        · cases h
      · cases h

/-- A step keeps the results and what remains those of the whole stream. -/
theorem Faithful.step (h : r.Faithful host maxBytes stream) {ev : ReadEv}
    (hs : r.step host maxBytes ev = some t) : t.Faithful host maxBytes stream := by
  cases ev with
  | call =>
    simp only [Reader.step] at hs
    split at hs
    · cases hs
    · rename_i hno
      cases hs
      simp only [Bool.or_eq_true, not_or, Bool.not_eq_true] at hno
      exact ⟨h.bare, h.kept, h.agrees, fun _ => hno.2⟩
  | drop =>
    simp only [Reader.step] at hs
    split at hs
    · cases hs
      exact ⟨h.bare, h.kept, h.agrees, fun hp => absurd hp (by simp)⟩
    · cases hs
  | turn source =>
    obtain ⟨hp, ⟨-, rfl⟩ | ⟨available, rest, hsplit, hend, rfl⟩⟩ := step_turn hs
    · exact h
    · exact (h.take (h.closed hp) hsplit hend).1

/-- In every reachable state the results are those of the whole stream. -/
theorem Faithful.reachable (h : (reader host maxBytes stream).Reachable r) :
    r.Faithful host maxBytes stream :=
  Machine.invariant_of_step (P := Faithful host maxBytes stream)
    ⟨by simp [reader], Nat.zero_le _, by simp [reader, remaining, isOver, reference],
      by simp [reader]⟩
    (fun _ _ _ hr hs => hr.step hs) h

/-- A pending call can take its next turn. -/
theorem exists_turn (h : r.Faithful host maxBytes stream) (hp : r.pending = true) :
    ∃ source t, r.step host maxBytes (.turn source) = some t ∧
      (t.isOver = true ∨ t.unread < r.unread) := by
  have ho := h.closed hp
  by_cases hne : r.avail = []
  · refine ⟨.pipe (.data r.rest), { r with rest := [] }.take host maxBytes r.rest, ?_, ?_⟩
    · simp [Reader.step, hp, hne, Source.possible, List.isPrefixOf_iff_prefix]
    · exact (h.take ho (by rw [hne]; simp) fun _ => rfl).2
  · refine ⟨.buffered, r.take host maxBytes r.avail, ?_, ?_⟩
    · simp [Reader.step, hp, hne, Source.possible]
    · exact (h.take ho rfl fun hnil => absurd hnil hne).2

/-- From every state the stream can be read to its end. -/
theorem exists_isOver (h : r.Faithful host maxBytes stream) (ho : r.isOver = false) :
    ∃ t, (reader host maxBytes stream).Runs r t ∧ t.isOver = true := by
  induction hn : r.unread using Nat.strongRecOn generalizing r with
  | _ n ih =>
    obtain ⟨u, hu, hp, hun, hfu⟩ : ∃ u, (reader host maxBytes stream).Runs r u ∧
        u.pending = true ∧ u.unread = r.unread ∧ u.Faithful host maxBytes stream := by
      by_cases hp : r.pending
      · exact ⟨r, .refl r, hp, rfl, h⟩
      · have hcall : r.step host maxBytes .call = some { r with pending := true } := by
          simp [Reader.step, hp, ho]
        exact ⟨_, (Machine.Runs.refl r).step (l := .call) hcall, rfl, rfl, h.step hcall⟩
    obtain ⟨source, t, hstep, hless⟩ := exists_turn hfu hp
    have ht : (reader host maxBytes stream).Runs r t := hu.step (l := ReadEv.turn source) hstep
    cases hto : t.isOver with
    | true => exact ⟨t, ht, hto⟩
    | false =>
      have hlt : t.unread < n := by
        rw [hto] at hless
        have := hless.resolve_left (by simp)
        omega
      obtain ⟨v, hv, hvo⟩ := ih t.unread hlt (hfu.step hstep) hto rfl
      exact ⟨v, ht.trans hv, hvo⟩

/-- **Reading does not depend on the chunks or on dropped calls.**  Whatever was read so far
    is what the whole stream is read as, as far as it goes; all of it once the end of the
    stream or an oversized frame was reported, which can always be reached, and which every
    turn that is not interrupted comes nearer to; and the frame buffer never holds more than
    `maxBytes`. -/
theorem reading_independent_of_chunking (h : (reader host maxBytes stream).Reachable r) :
    r.buf.length ≤ maxBytes ∧
    r.results.map verdict <+: reference host maxBytes stream ∧
    (r.isOver = true → r.results.map verdict = reference host maxBytes stream) ∧
    (r.isOver = false → ∃ t, (reader host maxBytes stream).Runs r t ∧ t.isOver = true) ∧
    (∀ source t, source ≠ .pipe .interrupted → r.step host maxBytes (.turn source) = some t →
      t.isOver = true ∨ t.unread < r.unread) := by
  have hf := Faithful.reachable h
  refine ⟨hf.kept, ⟨_, hf.agrees⟩, fun ho => ?_, exists_isOver hf, ?_⟩
  · rw [← hf.agrees, remaining, if_pos ho, List.append_nil]
  · intro source t hne hstep
    obtain ⟨hp, ⟨rfl, -⟩ | ⟨available, rest, hsplit, hend, rfl⟩⟩ := step_turn hstep
    · exact absurd rfl hne
    · exact (hf.take (hf.closed hp) hsplit hend).2

/-- A stream of a short line, a line that ends in a carriage return and a line without an
    end, in chunks that cut it at the wrong places, with a call dropped half-way and a read
    interrupted. -/
theorem reading_independent_of_chunking_dropped :
    ∃ r, (reader Replay.host 4 (utf8 "a\nb\r\ncd")).Reachable r ∧ r.isOver = true ∧
      r.results.map verdict = [.line "a", .line "b", .line "cd", .eof] ∧
      r.results.map verdict = reference Replay.host 4 (utf8 "a\nb\r\ncd") := by
  have hrun : ((reader Replay.host 4 (utf8 "a\nb\r\ncd")).exec
      (reader Replay.host 4 (utf8 "a\nb\r\ncd")).init
      [.call, .turn (.pipe (.data (utf8 "a\nb"))), .call, .turn .buffered,
        .turn (.pipe .interrupted), .turn (.pipe (.data (utf8 "\r"))), .drop, .call,
        .turn (.pipe (.data (utf8 "\ncd"))), .call, .turn .buffered, .turn (.pipe (.data [])),
        .call, .turn (.pipe (.data []))]).map
      (fun r => decide (r.isOver = true ∧
        r.results.map verdict = [.line "a", .line "b", .line "cd", .eof])) = some true := by
    decide +kernel
  obtain ⟨r, hr, hv⟩ := Machine.reachable_of_exec hrun
  obtain ⟨ho, hres⟩ := of_decide_eq_true hv
  exact ⟨r, hr, ho, hres, (reading_independent_of_chunking hr).2.2.1 ho⟩

end Reader

/-! ### The supervisor's reads -/

namespace Sup

variable {cx : Ctx} {sh : Shared} {p p' : Sup} {ev : SupEv} {eff : Eff}

/-- **The supervisor reads its worker's output as `reader` does**: a read that `select!` lets
    finish its turn is a turn of a reader with the same buffers. -/
theorem step_of_read {source : Source} {result : Option (Except String Frame)}
    (h : p.read cx source = some (p', result)) {rest : List UInt8}
    (hposs : source.possible rest = true) (results : List (Except String Frame)) :
    Reader.step cx.host cx.config.maxResponseBytes ⟨rest, p.avail, p.buf, true, results⟩
        (.turn source) =
      some ⟨rest.drop source.delivered.length, p'.avail, p'.buf, result.isNone,
        results ++ result.toList⟩ := by
  unfold read at h
  cases source with
  | buffered =>
    simp only at h
    split at h
    · cases h
    · rename_i hne
      cases h
      simp [Reader.step, Source.possible, Source.delivered, hne, Reader.take]
  | pipe fill =>
    simp only at h
    split at h
    · rename_i hnil
      cases fill with
      | data bytes =>
        cases h
        simp [Reader.step, hposs, Source.delivered, hnil, Reader.take]
      | interrupted =>
        cases h
        simp [Reader.step, hposs, Source.delivered, hnil]
      -- the reference has no failing pipe
      | failed err => cases hposs
    · cases h

/-- What the supervisor has of the next frame fits the limit. -/
def Retains (cx : Ctx) (p : Sup) : Prop :=
  newline ∉ p.buf ∧ p.buf.length ≤ cx.config.maxResponseBytes

/-- What a read leaves in the buffer fits the limit. -/
theorem Retains.read {source : Source} {result : Option (Except String Frame)}
    (hr : p.Retains cx) (h : p.read cx source = some (p', result)) : p'.Retains cx := by
  have hturn : ∀ available, (p.turn cx available).1.Retains cx := fun available =>
    have hs := readTurn_sound cx.host hr.1 hr.2 fun _ : available = [] => (rfl : [] = [])
    ⟨hs.bare, hs.kept⟩
  unfold Sup.read at h
  repeat' split at h
  all_goals cases h
  all_goals first
    | exact hturn _
    | exact hr

/-- Failing the handshake leaves the buffer alone. -/
theorem retains_settleRestart (err : StartError) (reason : String) :
    (p.settleRestart sh err reason).Retains cx ↔ p.Retains cx := by
  unfold settleRestart
  split <;> rfl

/-- Failing the request in flight leaves the buffer alone. -/
theorem retains_failInflight (err : WorkerError) (reason : String) :
    (p.failInflight err reason).Retains cx ↔ p.Retains cx := by
  unfold failInflight
  split <;> rfl

/-- What follows a frame between requests leaves the buffer alone. -/
theorem retains_onIdleFrame (frame : Except String Frame) :
    (p.onIdleFrame cx sh frame).Retains cx ↔ p.Retains cx := by
  unfold onIdleFrame
  repeat' split
  all_goals first
    | rfl
    | exact retains_settleRestart _ _

/-- What follows a frame for the request in flight leaves the buffer alone. -/
theorem retains_onWaitFrame (frame : Except String Frame) :
    (p.onWaitFrame cx sh frame).Retains cx ↔ p.Retains cx := by
  unfold onWaitFrame onReply
  dsimp only
  repeat' split
  all_goals first
    | rfl
    | exact retains_failInflight _ _

/-- No step of the supervisor buffers more than the limit. -/
theorem Retains.step (hr : p.Retains cx) (h : p.step cx sh ev = some (p', eff)) :
    p'.Retains cx := by
  revert h
  fun_cases Sup.step cx sh p ev
  all_goals intro h
  all_goals simp only [Option.some.injEq, Prod.mk.injEq, reduceCtorEq] at h
  all_goals obtain ⟨rfl, rfl⟩ := h
  all_goals first
    | exact hr
    | exact (retains_settleRestart _ _).mpr hr
    | exact (retains_failInflight _ _).mpr hr
    | skip
  -- a read
  all_goals
    rename p.read cx _ = some _ => hread
    first
      | exact hr.read hread
      | exact (retains_onIdleFrame _).mpr (hr.read hread)
      | exact (retains_onWaitFrame _).mpr (hr.read hread)

end Sup

/-- The supervisor never keeps more of a frame than the limit allows. -/
theorem Sys.retains {cx : Ctx} {s : Sys} (h : (handle cx).Reachable s) : s.sup.Retains cx := by
  refine Machine.invariant_of_step (P := fun s => s.sup.Retains cx) ?_ ?_ h
  · exact ⟨by simp [handle, Sys.init, Sup.init], Nat.zero_le _⟩
  · intro s l t hs hstep
    rcases step_cases hstep with
      ⟨ev, p, eff, -, hp, rfl⟩ | ⟨key, ev, c, eff, -, -, rfl⟩ | ⟨d, -, rfl⟩ | ⟨status, -, rfl⟩
    · exact Sup.Retains.step hs hp
    all_goals exact hs

end Layad
