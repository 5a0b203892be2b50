import Layad.Json.Unambiguous

namespace Layad

/-!
# What a JSON text holds outside its strings

`unquoted` leaves out the strings of a text.  What is left of a JSON text are brackets,
separators, digits and the letters of the three literals, so a text that holds an `N` or an `I`
outside its strings is the text of no document (`Document.Spells.ordinary`).
-/

/-- Where a byte of a text stands. -/
inductive Place where
  | outside
  | inside
  | escaped

/-- The bytes outside the strings, of a text that begins at a place. -/
def unquoted : Place → List UInt8 → List UInt8
  | _, [] => []
  | .outside, b :: rest =>
    if b = 0x22 then unquoted .inside rest else b :: unquoted .outside rest
  | .inside, b :: rest =>
    if b = 0x22 then unquoted .outside rest
    else if b = 0x5c then unquoted .escaped rest
    else unquoted .inside rest
  | .escaped, _ :: rest => unquoted .inside rest

/-! ### Strings -/

/-- A byte that neither ends a string nor begins an escape. -/
def isPlain (b : UInt8) : Bool := b != 0x22 && b != 0x5c

/-- Inside a string nothing is left of a plain byte. -/
theorem unquoted_inside_cons {b : UInt8} (h : isPlain b = true) (t : List UInt8) :
    unquoted .inside (b :: t) = unquoted .inside t := by
  rw [isPlain, Bool.and_eq_true, bne_iff_ne, bne_iff_ne] at h
  rw [unquoted, if_neg h.1, if_neg h.2]

/-- Nor of a run of them. -/
theorem unquoted_inside_append {bs : List UInt8} (h : bs.all isPlain = true)
    (t : List UInt8) : unquoted .inside (bs ++ t) = unquoted .inside t := by
  induction bs with
  | nil => rfl
  | cons b rest ih =>
    rw [List.all_cons, Bool.and_eq_true] at h
    rw [List.cons_append, unquoted_inside_cons h.1, ih h.2]

/-- A hexadecimal digit is plain. -/
theorem isPlain_of_hexValue {b : UInt8} {n : Nat} (h : hexValue b = some n) :
    isPlain b = true := by
  rw [isPlain, Bool.and_eq_true, bne_iff_ne, bne_iff_ne]
  constructor
  all_goals
    rintro rfl
    rw [show hexValue _ = none by decide] at h
    cases h

/-- Nothing is left of an escaped code unit. -/
theorem SpellsUnit.unquoted {n : Nat} {bs : List UInt8} (h : SpellsUnit n bs) (t : List UInt8) :
    unquoted .inside (bs ++ t) = unquoted .inside t := by
  obtain ⟨a, b, c, d, rfl, va, vb, vc, vd, ha, hb, hc, hd, -⟩ := h
  have hdigits : [a, b, c, d].all isPlain = true := by
    simp only [List.all_cons, isPlain_of_hexValue ha, isPlain_of_hexValue hb,
      isPlain_of_hexValue hc, isPlain_of_hexValue hd, List.all_nil, Bool.and_self]
  exact unquoted_inside_append hdigits t

/-- The bytes of a character that stands for itself. -/
theorem isPlain_utf8EncodeChar {c : Char} (hq : c ≠ '"') (hs : c ≠ '\\') :
    (String.utf8EncodeChar c).all isPlain = true := by
  by_cases hc : c.toNat < 128
  · exact forall_ascii (P := fun c => c ≠ '"' → c ≠ '\\' →
      (String.utf8EncodeChar c).all isPlain = true) (by decide) hc hq hs
  · rw [List.all_eq_true]
    intro b hb
    have hle := le_of_mem_utf8EncodeChar (Nat.le_of_not_lt hc) hb
    rw [isPlain, Bool.and_eq_true, bne_iff_ne, bne_iff_ne]
    constructor
    all_goals
      rintro rfl
      exact absurd hle (by decide)

/-- Nothing is left of a character. -/
theorem SpellsChar.unquoted {c : Char} {bs : List UInt8} (h : SpellsChar c bs) (t : List UInt8) :
    unquoted .inside (bs ++ t) = unquoted .inside t := by
  cases h with
  | raw _ hq hs => exact unquoted_inside_append (isPlain_utf8EncodeChar hq hs) t
  | short _ => rfl
  | unit h => exact h.unquoted t
  | pair _ _ _ h h' => rw [List.append_assoc, h.unquoted, h'.unquoted]

/-- Nor of a run of them. -/
theorem SpellsChars.unquoted {cs : List Char} {bs : List UInt8} (h : SpellsChars cs bs)
    (t : List UInt8) : unquoted .inside (bs ++ t) = unquoted .inside t := by
  induction h with
  | nil => rfl
  | cons h _ ih => rw [List.append_assoc, h.unquoted, ih]

/-! ### Ordinary texts -/

/-- What is left of a text, whatever comes after it. -/
def Leaves (bs marks : List UInt8) : Prop :=
  ∀ t, unquoted .outside (bs ++ t) = marks ++ unquoted .outside t

/-- What is left of two texts, one after the other. -/
theorem Leaves.append {bs bs' marks marks' : List UInt8} (h : Leaves bs marks)
    (h' : Leaves bs' marks') : Leaves (bs ++ bs') (marks ++ marks') := by
  intro t
  rw [List.append_assoc, h, h', List.append_assoc]

/-- Bytes outside strings are left. -/
theorem Leaves.bytes {bs : List UInt8} (h : 0x22 ∉ bs) : Leaves bs bs := by
  intro t
  induction bs with
  | nil => rfl
  | cons b rest ih =>
    rw [List.mem_cons, not_or] at h
    rw [List.cons_append, unquoted, if_neg (Ne.symm h.1), ih h.2]
    rfl

/-- Nothing is left of a string. -/
theorem Leaves.string {s : String} {bs : List UInt8} (h : SpellsString s bs) : Leaves bs [] := by
  obtain ⟨content, rfl, hcontent⟩ := h
  intro t
  rw [List.cons_append, List.cons_append, unquoted, if_pos rfl, List.append_assoc,
    hcontent.unquoted]
  rfl

/-- What is left is determined. -/
theorem Leaves.inj {bs marks marks' : List UInt8} (h : Leaves bs marks) (h' : Leaves bs marks') :
    marks = marks' :=
  List.append_cancel_right ((h []).symm.trans (h' []))

/-- A letter that no JSON text holds outside a string, and that begins a non-finite number. -/
def isForeign (b : UInt8) : Bool := b == 0x4e || b == 0x49

/-- Nothing foreign outside the strings. -/
def Ordinary (bs : List UInt8) : Prop := ∃ marks, Leaves bs marks ∧ marks.any isForeign = false

/-- Ordinary texts one after the other. -/
theorem Ordinary.append {bs bs' : List UInt8} (h : Ordinary bs) (h' : Ordinary bs') :
    Ordinary (bs ++ bs') := by
  obtain ⟨marks, hleaves, hmarks⟩ := h
  obtain ⟨marks', hleaves', hmarks'⟩ := h'
  exact ⟨_, hleaves.append hleaves', by rw [List.any_append, hmarks, hmarks']; rfl⟩

/-- A byte that is neither foreign nor a quotation mark. -/
def isOrdinary (b : UInt8) : Bool := b != 0x22 && !isForeign b

/-- Bytes that are ordinary. -/
theorem Ordinary.bytes {bs : List UInt8} (h : bs.all isOrdinary = true) : Ordinary bs := by
  simp only [List.all_eq_true, isOrdinary, Bool.and_eq_true, Bool.not_eq_true', bne_iff_ne] at h
  exact ⟨bs, .bytes fun hq => (h _ hq).1 rfl, List.any_eq_false.mpr fun b hb => by simp [h b hb]⟩

/-- One more byte that is ordinary. -/
theorem Ordinary.cons {b : UInt8} {bs : List UInt8} (hb : isOrdinary b = true)
    (h : Ordinary bs) : Ordinary (b :: bs) := by
  have hsingle : [b].all isOrdinary = true := by rw [List.all_cons, hb, List.all_nil, Bool.and_true]
  exact Ordinary.append (.bytes hsingle) h

/-- A string is ordinary, whatever it holds. -/
theorem Ordinary.string {s : String} {bs : List UInt8} (h : SpellsString s bs) : Ordinary bs :=
  ⟨[], .string h, rfl⟩

/-- White space is ordinary. -/
theorem Ordinary.blank {bs : List UInt8} (h : Blank bs) : Ordinary bs := by
  refine .bytes (List.all_eq_true.mpr fun b hb => ?_)
  rcases h b hb with rfl | rfl | rfl | rfl
  all_goals decide

/-- An ordinary text with white space around it. -/
theorem Ordinary.padded {text : List UInt8 → Prop} (htext : ∀ bs, text bs → Ordinary bs)
    {bs : List UInt8} (h : Padded text bs) : Ordinary bs := by
  obtain ⟨pre, mid, post, rfl, hpre, hmid, hpost⟩ := h
  exact ((Ordinary.blank hpre).append (htext mid hmid)).append (.blank hpost)

/-- A number is ordinary. -/
theorem Ordinary.number {literal : String}
    (h : ∀ c ∈ literal.toList, Json.isNumberChar c = true) : Ordinary (utf8 literal) := by
  have hnumber : numberBytes.all isOrdinary = true := by decide
  refine .bytes (List.all_eq_true.mpr fun b hb => ?_)
  rw [utf8_eq] at hb
  obtain ⟨c, hc, hb⟩ := List.mem_flatMap.mp hb
  exact List.all_eq_true.mp hnumber b (mem_numberBytes (h c hc) b hb)

namespace Document

mutual

/-- **A JSON text is ordinary.** -/
theorem Spells.ordinary : ∀ (d : Document) {bs : List UInt8}, d.Spells bs → Ordinary bs
  | .null, _, rfl | .bool true, _, rfl | .bool false, _, rfl | .negZero, _, rfl =>
    .bytes (by decide)
  | .int _, _, rfl => .number fun _ => Json.isNumberChar_toString
  | .real _, _, ⟨hreal, rfl⟩ => .number hreal.isNumberChar
  | .str _, _, h => .string h
  | .arr items, _, ⟨content, rfl, hitems⟩ =>
    ((SpellsItems.ordinary items hitems).append (.bytes (by decide))).cons (by decide)
  | .obj members, _, ⟨content, rfl, hmembers⟩ =>
    ((SpellsMembers.ordinary members hmembers).append (.bytes (by decide))).cons (by decide)

/-- The same of the items of an array. -/
theorem SpellsItems.ordinary : ∀ (items : List Document) {bs : List UInt8},
    SpellsItems items bs → Ordinary bs
  | [], _, h => .blank h
  | [item], _, h => .padded (fun _ => Spells.ordinary item) h
  | item :: next :: rest, _, ⟨first, others, rfl, hfirst, hothers⟩ => by
    have hitem := Ordinary.padded (fun _ => Spells.ordinary item) hfirst
    exact hitem.append ((SpellsItems.ordinary (next :: rest) hothers).cons (by decide))

/-- The same of the members of an object. -/
theorem SpellsMembers.ordinary : ∀ (members : List (String × Document)) {bs : List UInt8},
    SpellsMembers members bs → Ordinary bs
  | [], _, h => .blank h
  | [(key, value)], _, ⟨name, text, rfl, hname, htext⟩ => by
    have hkey := Ordinary.padded (fun _ => Ordinary.string) hname
    have hvalue := Ordinary.padded (fun _ => Spells.ordinary value) htext
    exact hkey.append (hvalue.cons (by decide))
  | (key, value) :: next :: rest, _, ⟨name, text, others, rfl, hname, htext, hothers⟩ => by
    have hkey := Ordinary.padded (fun _ => Ordinary.string) hname
    have hvalue := Ordinary.padded (fun _ => Spells.ordinary value) htext
    exact (hkey.append (hvalue.cons (by decide))).append
      ((SpellsMembers.ordinary (next :: rest) hothers).cons (by decide))

end

end Document

end Layad
