import Mathlib.Data.List.Infix

/-!
# Streams of frames

A stream carries frames one after another, each closed by a delimiter that stands nowhere
else in it.  A reader that looks for the delimiter gets the frames in order, whatever the
parts the stream arrives in.

* `Framed.head` — up to the first delimiter the stream is its first frame;
* `Framed.part` — what is there without a delimiter is the beginning of the first frame.
-/

namespace Framing

variable {α : Type*} {d : α}

/-- A frame: a body without the delimiter, then the delimiter. -/
def IsFrame (d : α) (frame : List α) : Prop := ∃ body, frame = body ++ [d] ∧ d ∉ body

/-- A list of frames. -/
def Framed (d : α) (frames : List (List α)) : Prop := ∀ frame ∈ frames, IsFrame d frame

/-- No frames at all. -/
theorem Framed.nil : Framed d [] := fun _ hf => nomatch hf

/-- All but the first frame. -/
theorem Framed.tail {frame : List α} {rest : List (List α)} (h : Framed d (frame :: rest)) :
    Framed d rest :=
  fun f hf => h f (List.mem_cons_of_mem frame hf)

/-- Frames and more frames. -/
theorem Framed.append {frames frames' : List (List α)} (h : Framed d frames)
    (h' : Framed d frames') : Framed d (frames ++ frames') := by
  intro f hf
  rcases List.mem_append.mp hf with hf | hf
  · exact h f hf
  · exact h' f hf

/-- Frames and one more. -/
theorem Framed.concat {frames : List (List α)} (h : Framed d frames) {frame : List α}
    (hframe : IsFrame d frame) : Framed d (frames ++ [frame]) :=
  h.append fun _ hf => List.mem_singleton.mp hf ▸ hframe

/-- Two texts up to their first delimiter agree if what begins with them does. -/
theorem eq_of_append {xs ys s t : List α} (hx : d ∉ xs) (hy : d ∉ ys)
    (h : xs ++ d :: s = ys ++ d :: t) : xs = ys ∧ s = t := by
  rcases List.append_eq_append_iff.mp h with ⟨zs, rfl, hz⟩ | ⟨zs, rfl, hz⟩
  · cases zs with
    | nil => exact ⟨(List.append_nil xs).symm, (List.cons.inj hz).2⟩
    | cons z zs =>
      rw [← (List.cons.inj hz).1] at hy
      exact absurd (List.mem_append_right xs List.mem_cons_self) hy
  · cases zs with
    | nil => exact ⟨List.append_nil ys, (List.cons.inj hz).2.symm⟩
    | cons z zs =>
      rw [← (List.cons.inj hz).1] at hx
      exact absurd (List.mem_append_right ys List.mem_cons_self) hx

/-- **The first frame of a stream.** -/
theorem Framed.head {frames : List (List α)} (h : Framed d frames) {xs t : List α}
    (hxs : d ∉ xs) (he : frames.flatten = xs ++ d :: t) :
    ∃ rest, frames = (xs ++ [d]) :: rest ∧ t = rest.flatten := by
  cases frames with
  | nil => exact absurd he (by simp)
  | cons frame rest =>
    obtain ⟨body, rfl, hbody⟩ := h frame List.mem_cons_self
    rw [List.flatten_cons, List.append_assoc, List.singleton_append] at he
    obtain ⟨rfl, rfl⟩ := eq_of_append hbody hxs he
    exact ⟨rest, rfl, rfl⟩

/-- **A part of the first frame.** -/
theorem Framed.part {frames : List (List α)} (h : Framed d frames) {xs t : List α}
    (hxs : d ∉ xs) (hne : xs ≠ []) (he : frames.flatten = xs ++ t) :
    ∃ body rest, frames = (body ++ [d]) :: rest ∧ xs <+: body := by
  cases frames with
  | nil =>
    rw [List.flatten_nil] at he
    exact absurd (List.append_eq_nil_iff.mp he.symm).1 hne
  | cons frame rest =>
    obtain ⟨body, rfl, hbody⟩ := h frame List.mem_cons_self
    refine ⟨body, rest, rfl, ?_⟩
    rw [List.flatten_cons, List.append_assoc, List.singleton_append] at he
    rcases List.append_eq_append_iff.mp he with ⟨zs, rfl, hz⟩ | ⟨zs, rfl, -⟩
    · cases zs with
      | nil => rw [List.append_nil]
      | cons z zs =>
        rw [← (List.cons.inj hz).1] at hxs
        exact absurd (List.mem_append_right body List.mem_cons_self) hxs
    · exact List.prefix_append xs zs

end Framing
