import Mathlib.Data.List.Basic

/-!
# Cutting a stream after each delimiter

`cut d acc s` is the list of the segments of a stream: each but the last ends with the
delimiter `d` and has no other one, and the last may lack it.  `acc` is what is already
there of the first segment, so a stream can be cut as it arrives:

* `cut_append_delimiter` — the first segment is over once the delimiter is there;
* `cut_append` — without a delimiter the first segment only grows;
* `length_head_cut` — the first segment is as long as what is there of it, or longer.
-/

namespace Segment

variable {α : Type*} [DecidableEq α]

/-- The segments of a stream whose first segment begins with `acc`. -/
def cut (d : α) : List α → List α → List (List α)
  | acc, [] => if acc.isEmpty then [] else [acc]
  | acc, a :: s => if a = d then (acc ++ [a]) :: cut d [] s else cut d (acc ++ [a]) s

variable {d : α}

/-- There is nothing to cut. -/
@[simp] theorem cut_nil_nil : cut d [] [] = [] := rfl

/-- What is left over is the last segment. -/
theorem cut_nil_of_ne {acc : List α} (h : acc ≠ []) : cut d acc [] = [acc] := by
  simp [cut, h]

/-- Letters that are no delimiter are collected. -/
theorem cut_append {xs : List α} (h : d ∉ xs) (acc s : List α) :
    cut d acc (xs ++ s) = cut d (acc ++ xs) s := by
  induction xs generalizing acc with
  | nil => rw [List.nil_append, List.append_nil]
  | cons x xs ih =>
    rw [List.mem_cons, not_or] at h
    obtain ⟨hx, hxs⟩ := h
    rw [List.cons_append, cut, if_neg (Ne.symm hx), ih hxs, List.append_assoc,
      List.singleton_append]

/-- A delimiter ends the segment. -/
theorem cut_append_delimiter {xs : List α} (h : d ∉ xs) (acc s : List α) :
    cut d acc (xs ++ d :: s) = (acc ++ xs ++ [d]) :: cut d [] s := by
  rw [cut_append h, cut, if_pos rfl]

/-- The first segment has at least what was collected. -/
theorem length_head_cut {acc : List α} (h : acc ≠ []) (s : List α) :
    ∃ segment rest, cut d acc s = segment :: rest ∧ acc.length ≤ segment.length := by
  induction s generalizing acc with
  | nil => exact ⟨acc, [], cut_nil_of_ne h, Nat.le_refl _⟩
  | cons a s ih =>
    by_cases ha : a = d
    · exact ⟨acc ++ [a], cut d [] s, by rw [cut, if_pos ha], by simp⟩
    · obtain ⟨segment, rest, hcut, hlen⟩ := @ih (acc ++ [a]) (by simp)
      rw [List.length_append, List.length_singleton] at hlen
      exact ⟨segment, rest, by rw [cut, if_neg ha, hcut], by omega⟩

end Segment
