import Mathlib.Data.List.Infix

/-!
# Where a pattern cannot occur

A list `l` is `Clear` of a pattern `p` when no nonempty suffix of `l` can be the beginning
of an occurrence of `p`, whatever follows `l`.

* `clear_append`, `clear_flatMap` — what is put together from clear lists is clear;
* `infix_append_iff` — a clear list in front neither holds `p` nor begins it;
* `clear_of_not_mem` — a list without the first element of `p` is clear of it.
-/

namespace Occurrence

variable {α : Type*} [DecidableEq α]

/-- No nonempty suffix of `l` is a prefix of `p`, or has `p` as a prefix. -/
def Clear (p l : List α) : Bool :=
  l.tails.all fun t => t.isEmpty || !(p.isPrefixOf t) && !(t.isPrefixOf p)

/-- Nothing begins in the empty text. -/
@[simp] theorem clear_nil (p : List α) : Clear p [] = true := rfl

/-- A text is clear if its first letter is, and the rest. -/
theorem clear_cons {p l : List α} {a : α} :
    Clear p (a :: l) = true ↔ (¬ p <+: a :: l ∧ ¬ a :: l <+: p) ∧ Clear p l = true := by
  have hnot (x y : List α) : (!x.isPrefixOf y) = true ↔ ¬ x <+: y := by
    rw [← List.isPrefixOf_iff_prefix, Bool.not_eq_true, Bool.not_eq_true']
  rw [Clear, List.tails, List.all_cons, Bool.and_eq_true, ← Clear, List.isEmpty_cons,
    Bool.false_or, Bool.and_eq_true, hnot, hnot]

/-- A nonempty list that is clear of `p` is no beginning of an occurrence of it. -/
theorem not_prefix_append {p l : List α} {a : α} (h : Clear p (a :: l) = true) (r : List α) :
    ¬ p <+: a :: l ++ r := by
  intro hp
  obtain ⟨⟨hpl, hlp⟩, -⟩ := clear_cons.mp h
  rcases List.prefix_or_prefix_of_prefix hp (List.prefix_append (a :: l) r) with h | h
  · exact hpl h
  · exact hlp h

/-- After a clear text the pattern is in the rest, or not at all. -/
theorem infix_append_iff {p l : List α} (h : Clear p l = true) (r : List α) :
    p <:+: l ++ r ↔ p <:+: r := by
  induction l with
  | nil => rw [List.nil_append]
  | cons a l ih =>
    have hp := not_prefix_append h r
    rw [List.cons_append] at hp ⊢
    rw [List.infix_cons_iff, ih (clear_cons.mp h).2]
    exact or_iff_right hp

/-- The pattern is not in a clear text. -/
theorem not_infix_of_clear {p l : List α} (hp : p ≠ []) (h : Clear p l = true) : ¬ p <:+: l := by
  have := infix_append_iff h []
  rw [List.append_nil] at this
  rw [this, List.infix_nil]
  exact hp

/-- Clear texts one after the other. -/
theorem clear_append {p l r : List α} (hl : Clear p l = true) (hr : Clear p r = true) :
    Clear p (l ++ r) = true := by
  induction l with
  | nil => exact hr
  | cons a l ih =>
    refine clear_cons.mpr ⟨⟨not_prefix_append hl r, fun h => ?_⟩, ih (clear_cons.mp hl).2⟩
    exact (clear_cons.mp hl).1.2 ((List.prefix_append (a :: l) r).trans h)

/-- Any number of clear texts. -/
theorem clear_flatMap {β : Type*} {p : List α} {f : β → List α} {bs : List β}
    (h : ∀ b ∈ bs, Clear p (f b) = true) : Clear p (bs.flatMap f) = true := by
  induction bs with
  | nil => rfl
  | cons b bs ih =>
    rw [List.flatMap_cons]
    exact clear_append (h b List.mem_cons_self) (ih fun b' hb' => h b' (List.mem_cons_of_mem b hb'))

/-- What is clear of a pattern is clear of every longer one. -/
theorem clear_of_beginning {p q l : List α} (hpq : p <+: q) (h : Clear p l = true) :
    Clear q l = true := by
  induction l with
  | nil => rfl
  | cons a l ih =>
    obtain ⟨⟨hpl, hlp⟩, htail⟩ := clear_cons.mp h
    refine clear_cons.mpr ⟨⟨fun hq => hpl (hpq.trans hq), fun hq => ?_⟩, ih htail⟩
    rcases List.prefix_or_prefix_of_prefix hpq hq with h' | h'
    · exact hpl h'
    · exact hlp h'

/-- A text without the first letter of the pattern is clear. -/
theorem clear_of_not_mem {a : α} {p l : List α} (hp : p.head? = some a) (h : a ∉ l) :
    Clear p l = true := by
  obtain ⟨p, rfl⟩ := List.head?_eq_some_iff.mp hp
  induction l with
  | nil => rfl
  | cons b l ih =>
    rw [List.mem_cons, not_or] at h
    refine clear_cons.mpr ⟨⟨fun hp => ?_, fun hp => ?_⟩, ih h.2⟩
    · exact h.1 (List.cons_prefix_cons.mp hp).1
    · exact h.1 (List.cons_prefix_cons.mp hp).1.symm

end Occurrence
