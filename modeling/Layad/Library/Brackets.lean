import Mathlib.Algebra.BigOperators.Group.List.Basic
import Mathlib.Algebra.Order.Ring.Int
import Mathlib.Data.List.Infix

/-!
# Balanced words

Over letters with a weight, `1` for one that opens, `-1` for one that closes and `0` for any
other, a word is balanced if it closes what it opens and nothing else (`Balanced`).

* `Balanced.append`, `Balanced.wrap`, `Balanced.light` — how balanced words are built;
* `Balanced.depth_pos` — a word between brackets is not balanced before its last letter, so
  that no balanced word is the beginning of another one between brackets.
-/

namespace Brackets

variable {α : Type*} {weight : α → Int}

/-- How many brackets are open at the end of a word. -/
def depth (weight : α → Int) (word : List α) : Int := (word.map weight).sum

/-- The empty word is at depth zero. -/
@[simp] theorem depth_nil : depth weight ([] : List α) = 0 := rfl

/-- The first letter counts with its weight. -/
@[simp] theorem depth_cons (a : α) (word : List α) :
    depth weight (a :: word) = weight a + depth weight word := by
  simp [depth]

/-- Depths add up. -/
@[simp] theorem depth_append (u v : List α) :
    depth weight (u ++ v) = depth weight u + depth weight v := by
  simp [depth]

/-- Every bracket is closed, and none before it is opened. -/
structure Balanced (weight : α → Int) (word : List α) : Prop where
  closed : depth weight word = 0
  opened : ∀ u, u <+: word → 0 ≤ depth weight u

/-- A word without brackets. -/
theorem Balanced.light {word : List α} (h : ∀ a ∈ word, weight a = 0) : Balanced weight word := by
  have hzero : ∀ u : List α, (∀ a ∈ u, weight a = 0) → depth weight u = 0 := by
    intro u hu
    induction u with
    | nil => rfl
    | cons a rest ih =>
      rw [depth_cons, hu a List.mem_cons_self, ih fun b hb => hu b (List.mem_cons_of_mem a hb),
        Int.zero_add]
  exact ⟨hzero word h, fun u hu => (hzero u fun a ha => h a (hu.subset ha)).ge⟩

/-- The empty word is balanced. -/
theorem Balanced.nil : Balanced weight ([] : List α) := .light fun _ ha => nomatch ha

/-- Two balanced words, one after the other. -/
theorem Balanced.append {u v : List α} (hu : Balanced weight u) (hv : Balanced weight v) :
    Balanced weight (u ++ v) where
  closed := by rw [depth_append, hu.closed, hv.closed, Int.zero_add]
  opened p hp := by
    obtain ⟨t, ht⟩ := hp
    rcases List.append_eq_append_iff.mp ht with ⟨q, rfl, -⟩ | ⟨q, rfl, hq⟩
    · exact hu.opened p (List.prefix_append p q)
    · rw [depth_append, hu.closed, Int.zero_add]
      exact hv.opened q ⟨t, hq.symm⟩

/-- A word before whose end a bracket is open. -/
theorem Balanced.depth_pos {word : List α} (h : Balanced weight word) {a : α} (ha : weight a = 1)
    {u : List α} (hu : u <+: a :: word) (hne : u ≠ []) : 0 < depth weight u := by
  rcases List.prefix_cons_iff.mp hu with rfl | ⟨t, rfl, ht⟩
  · exact absurd rfl hne
  · have := h.opened t ht
    rw [depth_cons, ha]
    omega

/-- A balanced word between brackets. -/
theorem Balanced.wrap {word : List α} (h : Balanced weight word) {a b : α} (ha : weight a = 1)
    (hb : weight b = -1) : Balanced weight (a :: word ++ [b]) where
  closed := by simp [ha, hb, h.closed]
  opened u hu := by
    rcases List.prefix_concat_iff.mp hu with rfl | hu
    · simp [ha, hb, h.closed]
    · by_cases hne : u = []
      · rw [hne, depth_nil]
      · exact (h.depth_pos ha hu hne).le

end Brackets
