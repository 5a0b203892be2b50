import Mathlib.Data.List.Infix

/-!
# Shell patterns

The patterns of a shell's `case`: a bracket expression or a plain character stands for one
character, `*` for any number of them.

* `accepts_literal_append` — plain characters in front are matched one by one;
* `accepts_star` — a `*` matches any beginning;
* `accepts_beginning`, `accepts_end`, `accepts_infix` — plain characters before, after and
  between stars.
-/

namespace Glob

/-- One piece of a pattern. -/
inductive Piece where
  | one (admits : Char → Bool)
  | star

/-- A plain character. -/
def char (c : Char) : Piece := .one (· == c)

/-- The pattern matches the whole text. -/
def accepts : List Piece → List Char → Bool
  | [], text => text.isEmpty
  | .one _ :: _, [] => false
  | .one admits :: rest, c :: text => admits c && accepts rest text
  | .star :: rest, text => text.tails.any (accepts rest)

variable {rest : List Piece} {text : List Char}

/-- The empty pattern accepts the empty text. -/
@[simp] theorem accepts_nil : accepts [] text = true ↔ text = [] := by
  rw [accepts, List.isEmpty_iff]

/-- A pattern of one letter and a rest. -/
theorem accepts_one {admits : Char → Bool} :
    accepts (.one admits :: rest) text = true ↔
      ∃ c t, text = c :: t ∧ admits c = true ∧ accepts rest t = true := by
  cases text with
  | nil => simp [accepts]
  | cons c t => simp [accepts]

/-- A star stands for any beginning. -/
theorem accepts_star :
    accepts (.star :: rest) text = true ↔ ∃ t, t <:+ text ∧ accepts rest t = true := by
  simp only [accepts, List.any_eq_true, List.mem_tails]

/-- A star at the end matches whatever is left. -/
theorem accepts_star_nil : accepts [.star] text = true :=
  accepts_star.mpr ⟨[], List.nil_suffix, rfl⟩

/-- A literal stands for itself. -/
theorem accepts_literal_append {literal : List Char} :
    accepts (literal.map char ++ rest) text = true ↔
      ∃ t, text = literal ++ t ∧ accepts rest t = true := by
  induction literal generalizing text with
  | nil => simp
  | cons c literal ih =>
    rw [List.map_cons, List.cons_append, char, accepts_one]
    simp only [ih, beq_iff_eq]
    constructor
    · rintro ⟨d, t, rfl, rfl, r, rfl, hr⟩
      exact ⟨r, rfl, hr⟩
    · rintro ⟨r, rfl, hr⟩
      exact ⟨c, literal ++ r, rfl, rfl, r, rfl, hr⟩

/-- `literal*` -/
theorem accepts_beginning (literal : List Char) :
    accepts (literal.map char ++ [.star]) text = true ↔ literal <+: text := by
  rw [accepts_literal_append]
  constructor
  · rintro ⟨t, rfl, -⟩
    exact List.prefix_append literal t
  · rintro ⟨t, rfl⟩
    exact ⟨t, rfl, accepts_star_nil⟩

/-- `*literal` -/
theorem accepts_end (literal : List Char) :
    accepts (.star :: literal.map char) text = true ↔ literal <:+ text := by
  rw [accepts_star]
  constructor
  · rintro ⟨t, ht, hacc⟩
    rw [← List.append_nil (literal.map char), accepts_literal_append] at hacc
    obtain ⟨r, rfl, hr⟩ := hacc
    rw [accepts_nil.mp hr, List.append_nil] at ht
    exact ht
  · intro h
    refine ⟨literal, h, ?_⟩
    rw [← List.append_nil (literal.map char), accepts_literal_append]
    exact ⟨[], by simp, rfl⟩

/-- `*literal*` -/
theorem accepts_infix (literal : List Char) :
    accepts (.star :: (literal.map char ++ [.star])) text = true ↔ literal <:+: text := by
  rw [accepts_star, List.infix_iff_prefix_suffix]
  simp only [accepts_beginning, and_comm]

/-- `*[...]*` -/
theorem accepts_somewhere {admits : Char → Bool} :
    accepts [.star, .one admits, .star] text = true ↔ ∃ c ∈ text, admits c = true := by
  rw [accepts_star]
  constructor
  · rintro ⟨t, ht, hacc⟩
    obtain ⟨c, r, rfl, hc, -⟩ := accepts_one.mp hacc
    exact ⟨c, ht.subset List.mem_cons_self, hc⟩
  · rintro ⟨c, hmem, hc⟩
    obtain ⟨before, after, rfl⟩ := List.append_of_mem hmem
    exact ⟨c :: after, List.suffix_append _ _,
      accepts_one.mpr ⟨c, after, rfl, hc, accepts_star_nil⟩⟩

end Glob
