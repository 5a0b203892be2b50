import Layad.Library.Brackets
import Layad.Python.Dumps

namespace Layad

open Brackets

/-!
# Truncated frames

Outside their strings the texts of JSON are balanced in their brackets, and so are those
`json.dumps` writes, whether or not they are JSON.  A dict that is cut off before its last
byte has its brace still open: it is the text of no document
(`PyVal.not_spells_of_truncated`).
-/

/-- The weight of a byte that stands outside the strings. -/
def bracket (b : UInt8) : Int :=
  if b = 0x7b ∨ b = 0x5b then 1 else if b = 0x7d ∨ b = 0x5d then -1 else 0

/-- Balanced outside the strings. -/
def Nested (bs : List UInt8) : Prop := ∃ marks, Leaves bs marks ∧ Balanced bracket marks

/-! ### How texts are nested -/

/-- Nested texts one after the other. -/
theorem Nested.append {bs bs' : List UInt8} (h : Nested bs) (h' : Nested bs') :
    Nested (bs ++ bs') := by
  obtain ⟨marks, hleaves, hmarks⟩ := h
  obtain ⟨marks', hleaves', hmarks'⟩ := h'
  exact ⟨_, hleaves.append hleaves', hmarks.append hmarks'⟩

/-- A byte that is no bracket and no quotation mark. -/
def isLight (b : UInt8) : Bool := b != 0x22 && bracket b == 0

/-- Bytes that are no brackets. -/
theorem Nested.bytes {bs : List UInt8} (h : bs.all isLight = true) : Nested bs := by
  simp only [List.all_eq_true, isLight, Bool.and_eq_true, bne_iff_ne, beq_iff_eq] at h
  exact ⟨bs, .bytes fun hq => (h _ hq).1 rfl, .light fun b hb => (h b hb).2⟩

/-- One more byte that is no bracket. -/
theorem Nested.cons {b : UInt8} {bs : List UInt8} (hb : isLight b = true) (h : Nested bs) :
    Nested (b :: bs) := by
  have hsingle : [b].all isLight = true := by rw [List.all_cons, hb, List.all_nil, Bool.and_true]
  exact Nested.append (.bytes hsingle) h

/-- The brackets inside a string do not count. -/
theorem Nested.string {s : String} {bs : List UInt8} (h : SpellsString s bs) : Nested bs :=
  ⟨[], .string h, .nil⟩

/-- White space. -/
theorem Nested.blank {bs : List UInt8} (h : Blank bs) : Nested bs := by
  refine .bytes (List.all_eq_true.mpr fun b hb => ?_)
  rcases h b hb with rfl | rfl | rfl | rfl
  all_goals decide

/-- A nested text with white space around it. -/
theorem Nested.padded {text : List UInt8 → Prop} (htext : ∀ bs, text bs → Nested bs)
    {bs : List UInt8} (h : Padded text bs) : Nested bs := by
  obtain ⟨pre, mid, post, rfl, hpre, hmid, hpost⟩ := h
  exact ((Nested.blank hpre).append (htext mid hmid)).append (.blank hpost)

/-- A number. -/
theorem Nested.number {literal : String}
    (h : ∀ c ∈ literal.toList, Json.isNumberChar c = true) : Nested (utf8 literal) := by
  have hnumber : numberBytes.all isLight = true := by decide
  refine .bytes (List.all_eq_true.mpr fun b hb => ?_)
  rw [utf8_eq] at hb
  obtain ⟨c, hc, hb⟩ := List.mem_flatMap.mp hb
  exact List.all_eq_true.mp hnumber b (mem_numberBytes (h c hc) b hb)

/-- A nested text between brackets. -/
theorem Nested.wrap {bs : List UInt8} (h : Nested bs) {a b : UInt8} (ha : bracket a = 1)
    (hb : bracket b = -1) : Nested (a :: bs ++ [b]) := by
  obtain ⟨marks, hleaves, hmarks⟩ := h
  have hmark : ∀ c : UInt8, bracket c ≠ 0 → Leaves [c] [c] := by
    intro c hc
    refine .bytes fun hq => hc ?_
    rw [← List.mem_singleton.mp hq]
    decide
  have ha' := hmark a (by rw [ha]; decide)
  have hb' := hmark b (by rw [hb]; decide)
  exact ⟨a :: marks ++ [b], (ha'.append hleaves).append hb', hmarks.wrap ha hb⟩

namespace Document

mutual

/-- **A JSON text is nested.** -/
theorem Spells.nested : ∀ (d : Document) {bs : List UInt8}, d.Spells bs → Nested bs
  | .null, _, rfl | .bool true, _, rfl | .bool false, _, rfl | .negZero, _, rfl =>
    .bytes (by decide)
  | .int _, _, rfl => .number fun _ => Json.isNumberChar_toString
  | .real _, _, ⟨hreal, rfl⟩ => .number hreal.isNumberChar
  | .str _, _, h => .string h
  | .arr items, _, ⟨_, rfl, hitems⟩ => (SpellsItems.nested items hitems).wrap rfl rfl
  | .obj members, _, ⟨_, rfl, hmembers⟩ => (SpellsMembers.nested members hmembers).wrap rfl rfl

/-- The same of the items of an array. -/
theorem SpellsItems.nested : ∀ (items : List Document) {bs : List UInt8},
    SpellsItems items bs → Nested bs
  | [], _, h => .blank h
  | [item], _, h => .padded (fun _ => Spells.nested item) h
  | item :: next :: rest, _, ⟨first, others, rfl, hfirst, hothers⟩ => by
    have hitem := Nested.padded (fun _ => Spells.nested item) hfirst
    exact hitem.append ((SpellsItems.nested (next :: rest) hothers).cons (by decide))

/-- The same of the members of an object. -/
theorem SpellsMembers.nested : ∀ (members : List (String × Document)) {bs : List UInt8},
    SpellsMembers members bs → Nested bs
  | [], _, h => .blank h
  | [(key, value)], _, ⟨name, text, rfl, hname, htext⟩ => by
    have hkey := Nested.padded (fun _ => Nested.string) hname
    have hvalue := Nested.padded (fun _ => Spells.nested value) htext
    exact hkey.append (hvalue.cons (by decide))
  | (key, value) :: next :: rest, _, ⟨name, text, others, rfl, hname, htext, hothers⟩ => by
    have hkey := Nested.padded (fun _ => Nested.string) hname
    have hvalue := Nested.padded (fun _ => Spells.nested value) htext
    exact (hkey.append (hvalue.cons (by decide))).append
      ((SpellsMembers.nested (next :: rest) hothers).cons (by decide))

end

end Document

namespace PyVal

open PyStr (bytes bytes_append bytes_ofString)

variable {f64Text : String → Option String}

/-- What Python prints for a finite value is nested. -/
theorem nested_of_finite {v : PyVal} (hfin : v.Finite) (hnum : v.Every (NumberLeaf f64Text)) :
    Nested (dumps v).bytes :=
  (spells_dumps v hfin hnum).nested

/-- A nested text between brackets, in characters. -/
theorem nested_between {a b : Char} {x y : UInt8} (ha : String.utf8EncodeChar a = [x])
    (hb : String.utf8EncodeChar b = [y]) (hx : bracket x = 1) (hy : bracket y = -1) {s : PyStr}
    (h : Nested s.bytes) : Nested (bytes (PyStr.ofChar a :: s ++ [PyStr.ofChar b])) := by
  rw [bytes_between, ha, hb]
  exact h.wrap hx hy

/-- The key of a member, with its colon. -/
theorem nested_key (key : PyStr) : Nested (bytes (quote key ++ .ofString ": ")) := by
  rw [bytes_append, bytes_quote, bytes_ofString]
  exact .append (.string (SpellsString.quote _)) (.bytes (by decide))

/-- The separator. -/
theorem nested_comma : Nested (PyStr.ofString ", ").bytes := by
  rw [bytes_ofString]
  exact .bytes (by decide)

mutual

/-- **What `json.dumps` writes is nested**, with whatever floats. -/
theorem nested_dumps : ∀ v : PyVal, v.Every (NumberLeaf f64Text) → Nested (dumps v).bytes
  | .float .inf, _ | .float .negInf, _ | .float .nan, _ => by
    rw [dumps, bytes_ofString]
    exact .bytes (by decide)
  | .null, hnum | .bool _, hnum | .int _, hnum | .str _, hnum =>
    nested_of_finite trivial hnum
  | .float (.finite _), hnum => nested_of_finite trivial hnum
  | .list items, hnum => by
    rw [dumps]
    exact nested_between rfl rfl rfl rfl (nested_dumpsItems items hnum)
  | .dict members, hnum => by
    rw [dumps]
    exact nested_between rfl rfl rfl rfl (nested_dumpsMembers members hnum)
  | .other replacement, hnum => by
    rw [dumps]
    exact nested_dumps replacement hnum

/-- What Python prints for items is nested. -/
theorem nested_dumpsItems : ∀ items : List PyVal, EveryItem (NumberLeaf f64Text) items →
    Nested (dumpsItems items).bytes
  | [], _ => .bytes rfl
  | [item], hnum => nested_dumps item hnum.1
  | item :: next :: rest, hnum => by
    rw [dumpsItems, bytes_append, bytes_append]
    · exact ((nested_dumps item hnum.1).append nested_comma).append
        (nested_dumpsItems (next :: rest) hnum.2)
    · simp

/-- What Python prints for members is nested. -/
theorem nested_dumpsMembers : ∀ members : List (PyStr × PyVal),
    EveryMember (NumberLeaf f64Text) members → Nested (dumpsMembers members).bytes
  | [], _ => .bytes rfl
  | [(key, value)], hnum => by
    rw [dumpsMembers, bytes_append]
    exact (nested_key key).append (nested_dumps value hnum.1)
  | (key, value) :: next :: rest, hnum => by
    rw [dumpsMembers, bytes_append, bytes_append, bytes_append]
    · exact (((nested_key key).append (nested_dumps value hnum.1)).append nested_comma).append
        (nested_dumpsMembers (next :: rest) hnum.2)
    · simp

end

end PyVal

/-! ### A text that is cut off -/

/-- What stands outside the strings of the beginning of a text. -/
theorem unquoted_prefix (place : Place) (bs t : List UInt8) :
    unquoted place bs <+: unquoted place (bs ++ t) := by
  fun_induction unquoted place bs with
  | case1 => exact List.nil_prefix
  | case2 rest ih => simpa [unquoted] using ih
  | case3 b rest hb ih => simpa [unquoted, hb] using ih
  | case4 rest ih => simpa [unquoted] using ih
  | case5 rest hq ih => simpa [unquoted, hq] using ih
  | case6 b rest hq hs ih => simpa [unquoted, hq, hs] using ih
  | case7 b rest ih => simpa [unquoted] using ih

/-- **A text in brackets that is cut off is not nested.** -/
theorem Nested.not_nested {bs : List UInt8} (h : Nested bs) {a b : UInt8} (ha : bracket a = 1)
    {u : List UInt8} (hu : u <+: a :: bs ++ [b]) (hne : u ≠ a :: bs ++ [b]) (hnil : u ≠ []) :
    ¬ Nested u := by
  rintro ⟨marks', hleaves', hmarks'⟩
  obtain ⟨marks, hleaves, hmarks⟩ := h
  have hu : u <+: a :: bs := (List.prefix_concat_iff.mp hu).resolve_left hne
  rcases List.prefix_cons_iff.mp hu with rfl | ⟨t, rfl, ht⟩
  · exact hnil rfl
  · have hquote : a ≠ 0x22 := by
      rintro rfl
      exact absurd ha (by decide)
    obtain ⟨rest, rfl⟩ := ht
    -- the bracket at the start is open
    have hbegins : unquoted .outside (a :: t) <+: a :: marks := by
      have := unquoted_prefix .outside (a :: t) rest
      have hall := hleaves []
      rw [List.append_nil] at hall
      rw [List.cons_append, unquoted.eq_def .outside (a :: (t ++ rest))] at this
      simpa [hquote, hall, unquoted] using this
    have hopened : unquoted .outside (a :: t) ≠ [] := by simp [unquoted, hquote]
    have hopen := hmarks.depth_pos ha hbegins hopened
    have hwhole := hleaves' []
    rw [List.append_nil] at hwhole
    rw [hwhole, unquoted, List.append_nil, hmarks'.closed] at hopen
    exact absurd hopen (by decide)

/-- A text in brackets that is cut off is no JSON. -/
theorem Nested.not_spells {bs : List UInt8} (h : Nested bs) {a b : UInt8} (ha : bracket a = 1)
    {u : List UInt8} (hu : u <+: a :: bs ++ [b]) (hne : u ≠ a :: bs ++ [b]) (d : Document) :
    ¬ Padded d.Spells u := by
  intro hd
  refine h.not_nested ha hu hne ?_ (Nested.padded (fun _ => Document.Spells.nested d) hd)
  -- the empty text
  rintro rfl
  obtain ⟨pre, mid, post, he, -, hmid, -⟩ := hd
  obtain ⟨b, rest, rfl, -⟩ := hmid.solid
  simp at he

namespace PyVal

variable {f64Text : String → Option String}

/-- A dict whose text is cut off is no JSON. -/
theorem not_spells_of_truncated {members : List (PyStr × PyVal)}
    (hnum : (PyVal.dict members).Every (NumberLeaf f64Text)) {u : List UInt8}
    (hu : u <+: (dumps (.dict members)).bytes) (hne : u ≠ (dumps (.dict members)).bytes)
    (d : Document) : ¬ Padded d.Spells u := by
  have he : (dumps (.dict members)).bytes = 0x7b :: (dumpsMembers members).bytes ++ [0x7d] := by
    rw [dumps, bytes_between]
    rfl
  rw [he] at hu hne
  exact (nested_dumpsMembers members hnum).not_spells rfl hu hne d

end PyVal

end Layad
