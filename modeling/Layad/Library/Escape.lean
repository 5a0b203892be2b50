import Mathlib.Data.List.Infix

/-!
# Escaping by one replacement after another

A table of codes, one for each character that must not appear: all of a character's
occurrences are replaced, then all of the next one's, so a later replacement runs over what an
earlier one put in.

* `replaceAll_eq` — if no code holds a character that is still to be replaced, this is the same
  as replacing every character of the text once (`encode`);
* `expand_flatMap` — if the codes begin with one character that is itself replaced, and none
  is the beginning of another, reading them back once gives the text (`expand`);
* `lead_suffix` — wherever that character stands in the output, a code begins.
-/

namespace Escape

variable {α : Type*} [DecidableEq α]

/-- Put `code` for every `c`. -/
def replace (c : α) (code text : List α) : List α :=
  text.flatMap fun x => if x = c then code else [x]

/-- A replacement leaves out what it replaces and what its code does not hold. -/
theorem not_mem_replace {a c : α} {code text : List α} (ha : a ∉ code) (h : a = c ∨ a ∉ text) :
    a ∉ replace c code text := by
  intro hmem
  obtain ⟨x, hx, hmem⟩ := List.mem_flatMap.mp hmem
  by_cases hxc : x = c
  · rw [if_pos hxc] at hmem
    exact ha hmem
  · rw [if_neg hxc, List.mem_singleton] at hmem
    subst hmem
    exact h.elim hxc fun h => h hx

/-- The replacements of a table, one after another. -/
def replaceAll (table : List (α × List α)) (text : List α) : List α :=
  table.foldl (fun text entry => replace entry.1 entry.2 text) text

/-- The code of a character, itself if the table has none. -/
def encode (table : List (α × List α)) (x : α) : List α := (table.lookup x).getD [x]

/-- Read every code once, from the left; the first `skip` characters belong to a code that was
    read already. -/
def expandFrom (table : List (α × List α)) : Nat → List α → List α
  | _, [] => []
  | skip + 1, _ :: text => expandFrom table skip text
  | 0, c :: text =>
    match table.find? fun entry => entry.2.isPrefixOf (c :: text) with
    | some (x, code) => x :: expandFrom table (code.length - 1) text
    | none => c :: expandFrom table 0 text

/-- Every code is replaced by the letter it stands for. -/
def expand (table : List (α × List α)) (text : List α) : List α := expandFrom table 0 text

/-! ### One after another is all at once -/

/-- The first entry of a letter counts. -/
theorem encode_cons (x c : α) (code : List α) (table : List (α × List α)) :
    encode ((c, code) :: table) x = if x = c then code else encode table x := by
  rw [encode, List.lookup_cons]
  by_cases h : x = c
  · rw [if_pos h, h, beq_self_eq_true]
    rfl
  · rw [if_neg h, beq_false_of_ne h]
    rfl

/-- A character the table does not list stands for itself. -/
theorem encode_of_not_mem {x : α} {table : List (α × List α)} (h : x ∉ table.map Prod.fst) :
    encode table x = [x] := by
  induction table with
  | nil => rfl
  | cons entry table ih =>
    rw [List.map_cons, List.mem_cons, not_or] at h
    rw [encode_cons, if_neg h.1, ih h.2]

/-- A letter with an entry is encoded by one. -/
theorem encode_mem {x : α} {table : List (α × List α)} (h : x ∈ table.map Prod.fst) :
    (x, encode table x) ∈ table := by
  induction table with
  | nil => cases h
  | cons entry table ih =>
    obtain ⟨c, code⟩ := entry
    rw [encode_cons]
    split
    · rename_i hx
      exact hx ▸ List.mem_cons_self
    · rename_i hx
      exact List.mem_cons_of_mem _ (ih ((List.mem_cons.mp h).resolve_left hx))

/-- A text without letters to encode stays as it is. -/
theorem flatMap_encode_of_not_mem {text : List α} {table : List (α × List α)}
    (h : ∀ x ∈ text, x ∉ table.map Prod.fst) : text.flatMap (encode table) = text := by
  induction text with
  | nil => rfl
  | cons x text ih =>
    rw [List.forall_mem_cons] at h
    rw [List.flatMap_cons, encode_of_not_mem h.1, ih h.2]
    rfl

/-- **The order is right**: no code holds a character that is still to be replaced. -/
theorem replaceAll_eq {table : List (α × List α)}
    (h : table.Pairwise fun entry later => later.1 ∉ entry.2) (text : List α) :
    replaceAll table text = text.flatMap (encode table) := by
  induction table generalizing text with
  | nil => exact (flatMap_encode_of_not_mem (by simp)).symm
  | cons entry table ih =>
    obtain ⟨c, code⟩ := entry
    rw [List.pairwise_cons] at h
    have hcode : code.flatMap (encode table) = code := by
      refine flatMap_encode_of_not_mem fun x hx hmem => ?_
      obtain ⟨later, hlater, rfl⟩ := List.mem_map.mp hmem
      exact h.1 later hlater hx
    have hstep : replaceAll ((c, code) :: table) text =
        replaceAll table (replace c code text) := rfl
    rw [hstep, ih h.2, replace, List.flatMap_assoc]
    refine List.flatMap_congr fun x _ => ?_
    rw [encode_cons]
    split
    · exact hcode
    · exact List.flatMap_singleton ..

/-! ### Reading back -/

/-- The codes begin with `lead`, which has a code itself, and which is nowhere else in them;
    and none begins another. -/
structure Readable (lead : α) (table : List (α × List α)) : Prop where
  head : ∀ entry ∈ table, entry.2.head? = some lead
  tail : ∀ entry ∈ table, lead ∉ entry.2.tail
  own : lead ∈ table.map Prod.fst
  apart : ∀ entry ∈ table, ∀ other ∈ table, entry.2 <+: other.2 → entry = other

variable {lead : α} {table : List (α × List α)}

/-- A character has a code of the table, or is not the lead and stands for itself. -/
theorem Readable.encode_cases (h : Readable lead table) (x : α) :
    (x, encode table x) ∈ table ∨ (x ≠ lead ∧ encode table x = [x]) := by
  by_cases hx : x ∈ table.map Prod.fst
  · exact .inl (encode_mem hx)
  · exact .inr ⟨fun he => hx (he ▸ h.own), encode_of_not_mem hx⟩

/-- Letters that are skipped are dropped. -/
theorem expandFrom_drop (skip : Nat) (text : List α) :
    expandFrom table skip text = expand table (text.drop skip) := by
  induction text generalizing skip with
  | nil => cases skip <;> rfl
  | cons c text ih =>
    cases skip with
    | zero => rfl
    | succ skip => exact ih skip

/-- The code that is found is the one at the front. -/
theorem Readable.find?_eq (h : Readable lead table) {x : α} {code : List α}
    (hmem : (x, code) ∈ table) (rest : List α) :
    (table.find? fun entry => entry.2.isPrefixOf (code ++ rest)) = some (x, code) := by
  cases hfind : table.find? fun entry => entry.2.isPrefixOf (code ++ rest) with
  | none =>
    have hno := List.find?_eq_none.mp hfind _ hmem
    simp at hno
  | some found =>
    have hfound : found.2 <+: code ++ rest := by simpa using List.find?_some hfind
    have hin := List.mem_of_find?_eq_some hfind
    -- both are beginnings of the text, so one begins the other
    rcases List.prefix_or_prefix_of_prefix hfound (List.prefix_append code rest) with hp | hp
    · rw [h.apart _ hin _ hmem hp]
    · rw [h.apart _ hmem _ hin hp]

/-- A code at the front is read as what it stands for. -/
theorem Readable.expand_code (h : Readable lead table) {x : α} {code : List α}
    (hmem : (x, code) ∈ table) (rest : List α) :
    expand table (code ++ rest) = x :: expand table rest := by
  have hfind := h.find?_eq hmem rest
  obtain ⟨tail, rfl⟩ := List.head?_eq_some_iff.mp (h.head _ hmem)
  rw [List.cons_append] at hfind ⊢
  rw [expand, expandFrom, hfind]
  dsimp only
  rw [expandFrom_drop, List.length_cons, Nat.add_sub_cancel, List.drop_left]

/-- A letter that begins no code stands for itself. -/
theorem Readable.expand_self (h : Readable lead table) {x : α} (hx : x ≠ lead) (rest : List α) :
    expand table (x :: rest) = x :: expand table rest := by
  have hfind : (table.find? fun entry => entry.2.isPrefixOf (x :: rest)) = none := by
    rw [List.find?_eq_none]
    intro entry hentry hprefix
    obtain ⟨tail, htail⟩ := List.head?_eq_some_iff.mp (h.head entry hentry)
    rw [htail, List.isPrefixOf_iff_prefix, List.cons_prefix_cons] at hprefix
    exact hx hprefix.1.symm
  rw [expand, expandFrom, hfind]
  rfl

/-- **Reading the codes back once gives the text.** -/
theorem expand_flatMap (h : Readable lead table) (text : List α) :
    expand table (text.flatMap (encode table)) = text := by
  induction text with
  | nil => rfl
  | cons x text ih =>
    rw [List.flatMap_cons]
    rcases h.encode_cases x with hmem | ⟨hx, hself⟩
    · rw [h.expand_code hmem, ih]
    · rw [hself, List.singleton_append, h.expand_self hx, ih]

omit [DecidableEq α] in
/-- A code does not begin in a text without its first letter. -/
theorem suffix_of_not_mem {l rest text : List α} (hl : lead ∉ l)
    (h : lead :: rest <:+ l ++ text) : lead :: rest <:+ text := by
  induction l with
  | nil => exact h
  | cons a l ih =>
    rw [List.mem_cons, not_or] at hl
    rcases List.suffix_cons_iff.mp h with he | h
    · exact absurd (List.cons.inj he).1 hl.1
    · exact ih hl.2 h

/-- A code begins at every lead of the output. -/
theorem lead_suffix (h : Readable lead table) {text rest : List α}
    (hrest : lead :: rest <:+ text.flatMap (encode table)) :
    ∃ entry ∈ table, entry.2 <+: lead :: rest := by
  induction text with
  | nil => exact absurd (List.suffix_nil.mp hrest) (List.cons_ne_nil _ _)
  | cons x text ih =>
    rw [List.flatMap_cons] at hrest
    rcases h.encode_cases x with hmem | ⟨hx, hself⟩
    · obtain ⟨tail, htail⟩ := List.head?_eq_some_iff.mp (h.head _ hmem)
      have hno := h.tail _ hmem
      dsimp only at htail hno
      rw [htail] at hrest hno
      rcases List.suffix_cons_iff.mp hrest with he | hrest
      · exact ⟨_, hmem, he ▸ htail ▸ List.prefix_append (lead :: tail) _⟩
      · exact ih (suffix_of_not_mem hno hrest)
    · rw [hself] at hrest
      exact ih (suffix_of_not_mem (by simpa using Ne.symm hx) hrest)

/-- A character that has a code and is in none is not in the output. -/
theorem not_mem_flatMap {c : α} (hc : c ∈ table.map Prod.fst) (h : ∀ entry ∈ table, c ∉ entry.2)
    (text : List α) : c ∉ text.flatMap (encode table) := by
  intro hmem
  obtain ⟨x, -, hx⟩ := List.mem_flatMap.mp hmem
  by_cases hkey : x ∈ table.map Prod.fst
  · exact h _ (encode_mem hkey) hx
  · rw [encode_of_not_mem hkey, List.mem_singleton] at hx
    exact hkey (hx ▸ hc)

end Escape
