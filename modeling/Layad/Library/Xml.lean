import Layad.Library.Escape

/-!
# Character data of XML 1.0

What stands between two tags of an XML document, and what a reader makes of it.

* `isChar` — the characters a document may hold, escaped or not;
* `normalize` — a reader sees a line feed for every line end;
* `Reader.Documented.read_encode` — text escaped by the predefined entities comes back with its
  line ends normalised, unless one of its characters is none that a document may hold.
-/

namespace Xml

open Escape

/-- The production `Char`: among the scalar values, not the other control characters and not
    U+FFFE and U+FFFF. -/
def isChar (c : Char) : Bool :=
  c = '\t' || c = '\n' || c = '\r' || (0x20 ≤ c.toNat && c.toNat ≠ 0xfffe && c.toNat ≠ 0xffff)

/-- A carriage return, with the line feed after it if there is one, is read as a line feed. -/
def normalize : List Char → List Char
  | '\r' :: '\n' :: text => '\n' :: normalize text
  | '\r' :: text => '\n' :: normalize text
  | c :: text => c :: normalize text
  | [] => []

/-- The predefined entities. -/
def predefined : List (Char × List Char) :=
  [('&', "&amp;".toList), ('<', "&lt;".toList), ('>', "&gt;".toList), ('"', "&quot;".toList),
    ('\'', "&apos;".toList)]

/-- Text between two tags: no markup begins in it, and at each ampersand an entity. -/
structure CharacterData (text : List Char) : Prop where
  chars : ∀ c ∈ text, isChar c = true
  bare : '<' ∉ text ∧ '>' ∉ text
  entity : ∀ rest, '&' :: rest <:+ text → ∃ entry ∈ predefined, entry.2 <+: '&' :: rest

/-- A reader of what stands between two tags; it has no value for what cannot stand there. -/
abbrev Reader := List Char → Option (List Char)

/-- What the standard asks of a reader. -/
structure Reader.Documented (read : Reader) : Prop where
  refuses : ∀ text, (∃ c ∈ text, isChar c = false) → read text = none
  takes : ∀ text, CharacterData text → read text = some (expand predefined (normalize text))

/-- A reader that does what is asked. -/
def strict : Reader := fun text =>
  if text.all isChar then some (expand predefined (normalize text)) else none

/-- It does what is documented. -/
theorem strict_documented : strict.Documented where
  refuses text h := by
    obtain ⟨c, hc, hno⟩ := h
    have hall : text.all isChar = false := List.all_eq_false.mpr ⟨c, hc, by rw [hno]; decide⟩
    rw [strict, hall]
    rfl
  takes text h := by
    rw [strict, if_pos (List.all_eq_true.mpr h.chars)]

/-! ### Line ends -/

/-- A carriage return by itself. -/
theorem normalize_cr {text : List Char} (h : text.head? ≠ some '\n') :
    normalize ('\r' :: text) = '\n' :: normalize text := by
  cases text with
  | nil => rfl
  | cons c text =>
    have hc : c ≠ '\n' := by simpa using h
    rw [normalize]
    exact fun rest he => hc (List.cons.inj he).1

/-- Where there is no carriage return nothing is replaced. -/
theorem normalize_append {l : List Char} (h : '\r' ∉ l) (text : List Char) :
    normalize (l ++ text) = l ++ normalize text := by
  induction l with
  | nil => rfl
  | cons c l ih =>
    rw [List.mem_cons, not_or] at h
    rw [List.cons_append, normalize, ih h.2]
    · rfl
    · exact fun rest he _ => h.1 he.symm
    · exact fun he => h.1 he.symm

/-- The first character stays, but for a carriage return. -/
theorem head?_normalize (text : List Char) :
    (normalize text).head? = text.head?.map fun c => if c = '\r' then '\n' else c := by
  fun_cases normalize text with
  | case1 | case2 => simp
  | case3 c text _ hcr => simpa using fun he => absurd he hcr
  | case4 => rfl

/-- No line end is escaped, and no code holds one. -/
def KeepsLines (table : List (Char × List Char)) : Prop :=
  ∀ c ∈ ['\r', '\n'], c ∉ table.map Prod.fst ∧ ∀ entry ∈ table, c ∉ entry.2

/-- A code does not begin with a line feed. -/
theorem head?_flatMap_encode {lead : Char} {table : List (Char × List Char)}
    (h : Readable lead table) (hlines : KeepsLines table) {text : List Char}
    (htext : text.head? ≠ some '\n') : (text.flatMap (encode table)).head? ≠ some '\n' := by
  cases text with
  | nil => exact htext
  | cons c text =>
    rw [List.flatMap_cons]
    rcases h.encode_cases c with hmem | ⟨-, hself⟩
    · obtain ⟨tail, htail⟩ := List.head?_eq_some_iff.mp (h.head _ hmem)
      have hno := (hlines '\n' (by decide)).2 _ hmem
      dsimp only at htail hno
      rw [htail, List.mem_cons, not_or] at hno
      rw [htail]
      simpa using Ne.symm hno.1
    · rw [hself]
      simpa using htext

/-- Escaping and reading line ends commute. -/
theorem normalize_flatMap_encode {lead : Char} {table : List (Char × List Char)}
    (h : Readable lead table) (hlines : KeepsLines table) (text : List Char) :
    normalize (text.flatMap (encode table)) = (normalize text).flatMap (encode table) := by
  have hcr := encode_of_not_mem (hlines '\r' (by decide)).1
  have hlf := encode_of_not_mem (hlines '\n' (by decide)).1
  fun_induction normalize text with
  | case1 text ih =>
    rw [List.flatMap_cons, List.flatMap_cons, List.flatMap_cons, hcr, hlf, ← ih]
    rfl
  | case2 text hlone ih =>
    have hhead : text.head? ≠ some '\n' := fun he => by
      obtain ⟨rest, hrest⟩ := List.head?_eq_some_iff.mp he
      exact hlone rest hrest
    rw [List.flatMap_cons, List.flatMap_cons, hcr, hlf, ← ih, List.singleton_append,
      normalize_cr (head?_flatMap_encode h hlines hhead)]
    rfl
  | case3 c text _ hcr' ih =>
    have hno : '\r' ∉ encode table c := by
      rcases h.encode_cases c with hmem | ⟨-, hself⟩
      · exact (hlines '\r' (by decide)).2 _ hmem
      · rw [hself, List.mem_singleton]
        exact fun he => hcr' he.symm
    rw [List.flatMap_cons, List.flatMap_cons, normalize_append hno, ih]
  | case4 => rfl

/-! ### Escaped text -/

/-- The predefined entities can be told apart. -/
theorem readable_predefined : Readable '&' predefined where
  head := by decide
  tail := by decide
  own := by decide
  apart := by decide

/-- No entity brings a line terminator. -/
theorem keepsLines_predefined : KeepsLines predefined := by
  intro c hc
  simp only [List.mem_cons, List.not_mem_nil, or_false] at hc
  rcases hc with rfl | rfl
  all_goals exact ⟨by decide, by decide⟩

/-- Escaping neither adds nor takes away a character no document may hold. -/
theorem all_isChar_encode (text : List Char) :
    (text.flatMap (encode predefined)).all isChar = text.all isChar := by
  have hcodes : ∀ entry ∈ predefined, isChar entry.1 = true ∧ entry.2.all isChar = true := by
    decide
  induction text with
  | nil => rfl
  | cons c text ih =>
    rw [List.flatMap_cons, List.all_append, List.all_cons, ih]
    rcases readable_predefined.encode_cases c with hmem | ⟨-, hself⟩
    · obtain ⟨hc, hcode⟩ := hcodes _ hmem
      rw [hcode, hc]
    · rw [hself, List.all_cons, List.all_nil, Bool.and_true]

/-- An encoded text is character data, if its letters are of XML. -/
theorem characterData_encode {text : List Char} (h : text.all isChar = true) :
    CharacterData (text.flatMap (encode predefined)) where
  chars := List.all_eq_true.mp ((all_isChar_encode text).trans h)
  bare := ⟨not_mem_flatMap (by decide) (by decide) _, not_mem_flatMap (by decide) (by decide) _⟩
  entity _ hrest := lead_suffix readable_predefined hrest

variable {read : Reader}

/-- **What comes back of escaped text**: the text with its line ends normalised, and nothing if
    a character of it may be in no document. -/
theorem Reader.Documented.read_encode (hread : read.Documented) (text : List Char) :
    read (text.flatMap (encode predefined)) =
      if text.all isChar then some (normalize text) else none := by
  cases hall : text.all isChar with
  | true =>
    rw [hread.takes _ (characterData_encode hall), if_pos rfl,
      normalize_flatMap_encode readable_predefined keepsLines_predefined,
      expand_flatMap readable_predefined]
  | false =>
    rw [← all_isChar_encode, List.all_eq_false] at hall
    rw [if_neg (by decide)]
    obtain ⟨c, hc, hno⟩ := hall
    exact hread.refuses _ ⟨c, hc, by simpa using hno⟩

end Xml
