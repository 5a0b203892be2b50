import Layad.Json.Unquoted
import Layad.Python.Encoding
import Layad.Python.Line

namespace Layad

/-!
# What `json.dumps` writes

A Python value is written as the text of a document (`PyVal.document`), as long as its floats
are finite: Python writes the others as `NaN` and `Infinity`, which stand in no JSON text
(`PyVal.finite_of_spells`).  Whatever the value, its text is one line (`PyVal.printable_dumps`).
-/

namespace PyStr

/-- The characters of a string, without its lone surrogates. -/
def chars (s : PyStr) : List Char := s.filterMap toChar?

/-- The text of a string. -/
def text (s : PyStr) : String := String.ofList s.chars

/-- The characters of a concatenation. -/
theorem chars_append (s t : PyStr) : chars (s ++ t) = s.chars ++ t.chars :=
  List.filterMap_append

/-- A list of characters has these characters. -/
theorem chars_map (cs : List Char) : chars (cs.map ofChar) = cs := by
  have hid : toChar? ∘ ofChar = some := funext toChar?_ofChar
  rw [chars, List.filterMap_map, hid, List.filterMap_some]

/-- A code point that is a character counts. -/
theorem chars_cons_some {n : CodePoint} {c : Char} (h : toChar? n = some c) (s : PyStr) :
    chars (n :: s) = c :: s.chars := List.filterMap_cons_some h

/-- A lone surrogate does not. -/
theorem chars_cons_none {n : CodePoint} (h : toChar? n = none) (s : PyStr) :
    chars (n :: s) = s.chars := List.filterMap_cons_none h

/-- A text has its own characters. -/
theorem chars_ofString (s : String) : chars (ofString s) = s.toList := chars_map s.toList

/-- A text comes back from Python. -/
theorem text_ofString (s : String) : (ofString s).text = s := by
  rw [text, chars_ofString, String.ofList_toList]

/-- The bytes of a text. -/
def bytes (s : PyStr) : List UInt8 := s.chars.flatMap String.utf8EncodeChar

/-- The bytes of a concatenation. -/
theorem bytes_append (s t : PyStr) : bytes (s ++ t) = s.bytes ++ t.bytes := by
  rw [bytes, chars_append, List.flatMap_append, bytes, bytes]

/-- A text has its own bytes. -/
theorem bytes_ofString (s : String) : (ofString s).bytes = utf8 s := by
  rw [bytes, chars_ofString, utf8_eq]

/-- The bytes of a Python string are those of its text. -/
theorem utf8_text (s : PyStr) : utf8 s.text = s.bytes := utf8_ofList s.chars

/-- A string without lone surrogates is encoded as its text. -/
theorem encode_eq {s : PyStr} (h : s.Encodable) : s.encode = some s.bytes := by
  have hchars : s.mapM toChar? = some s.chars := by
    induction s with
    | nil => rfl
    | cons n rest ih =>
      obtain ⟨hn, hrest⟩ := encodable_cons.mp h
      obtain ⟨c, hc⟩ := Option.isSome_iff_exists.mp hn
      rw [List.mapM_cons, hc, ih hrest, chars_cons_some hc]
      rfl
  rw [encode, hchars, bytes]
  rfl

end PyStr

namespace PyVal

open PyStr (chars bytes bytes_append bytes_ofString)

/-! ### Values -/

mutual

/-- What a value is written as; a non-finite float as the name Python gives it, which is no
    literal. -/
def document : PyVal → Document
  | .null => .null
  | .bool b => .bool b
  | .int i => .int i
  | .float f => .real (dumpFloat f)
  | .str s => .str s.text
  | .list items => .arr (documentItems items)
  | .dict members => .obj (documentMembers members)
  | .other replacement => replacement.document

/-- The items of a list. -/
def documentItems : List PyVal → List Document
  | [] => []
  | item :: rest => item.document :: documentItems rest

/-- The members of a dict. -/
def documentMembers : List (PyStr × PyVal) → List (String × Document)
  | [] => []
  | (key, value) :: rest => (key.text, value.document) :: documentMembers rest

end

mutual

/-- Every value of a tree that is no container. -/
def Every (p : PyVal → Prop) : PyVal → Prop
  | .list items => EveryItem p items
  | .dict members => EveryMember p members
  | .other replacement => replacement.Every p
  | .null => p .null
  | .bool b => p (.bool b)
  | .int i => p (.int i)
  | .float f => p (.float f)
  | .str s => p (.str s)

/-- Every one in the items of a list. -/
def EveryItem (p : PyVal → Prop) : List PyVal → Prop
  | [] => True
  | item :: rest => item.Every p ∧ EveryItem p rest

/-- Every one in the members of a dict. -/
def EveryMember (p : PyVal → Prop) : List (PyStr × PyVal) → Prop
  | [] => True
  | (_, value) :: rest => value.Every p ∧ EveryMember p rest

end

/-- A float that is no number is not there. -/
def FiniteLeaf : PyVal → Prop
  | .float .inf | .float .negInf | .float .nan => False
  | _ => True

/-- No float is infinite or `NaN`. -/
def Finite (v : PyVal) : Prop := v.Every FiniteLeaf

/-- A number as Python and the daemon have it: a float prints as a literal of a 64-bit float,
    an integer has 64 bits. -/
def NumberLeaf (f64Text : String → Option String) : PyVal → Prop
  | .int i => -2 ^ 63 ≤ i ∧ i < 2 ^ 64
  | .float (.finite repr) => IsReal repr ∧ (f64Text repr).isSome = true
  | _ => True

/-- The trees an agent may return. -/
structure Returnable (f64Text : String → Option String) (v : PyVal) : Prop where
  strings : v.Encodable
  numbers : v.Every (NumberLeaf f64Text)

/-! ### Its text -/

/-- A code point is escaped as `serde_json` does it. -/
theorem chars_escape (n : CodePoint) :
    chars (escape n) = ((PyStr.toChar? n).map Json.escapeChar).getD [] := by
  rw [escape]
  cases h : PyStr.toChar? n with
  | none => exact List.filterMap_cons_none h
  | some c => exact PyStr.chars_map _

/-- So is a string, in characters. -/
theorem chars_quote (s : PyStr) : chars (quote s) = Json.quoteText s.text := by
  have hbody : chars (s.flatMap escape) = s.chars.flatMap Json.escapeChar := by
    induction s with
    | nil => rfl
    | cons n rest ih =>
      rw [List.flatMap_cons, PyStr.chars_append, ih, chars_escape]
      cases h : PyStr.toChar? n with
      | none =>
        rw [PyStr.chars_cons_none h]
        rfl
      | some c =>
        rw [PyStr.chars_cons_some h, List.flatMap_cons]
        rfl
  rw [quote, PyStr.chars_append, PyStr.chars_cons_some (PyStr.toChar?_ofChar _), hbody,
    Json.quoteText, PyStr.text, String.toList_ofList]
  rfl

/-- So is a string, in bytes. -/
theorem bytes_quote (s : PyStr) : bytes (quote s) = Json.quote s.text := by
  rw [bytes, chars_quote, Json.quote_eq]

/-- The bytes of a text between brackets. -/
theorem bytes_between (a b : Char) (s : PyStr) :
    bytes (PyStr.ofChar a :: s ++ [PyStr.ofChar b]) =
      String.utf8EncodeChar a ++ s.bytes ++ String.utf8EncodeChar b := by
  have hmark : ∀ c : Char, bytes [PyStr.ofChar c] = String.utf8EncodeChar c := by
    intro c
    rw [bytes, PyStr.chars_cons_some (PyStr.toChar?_ofChar c)]
    exact List.flatMap_singleton _ _
  rw [bytes_append, ← List.singleton_append, bytes_append, hmark, hmark]

/-! ### A value of finite floats -/

/-- White space may come before a text. -/
theorem padded_blank {text : List UInt8 → Prop} {bs : List UInt8} (h : Padded text bs) :
    Padded text (0x20 :: bs) := by
  obtain ⟨pre, mid, post, rfl, hpre, hmid, hpost⟩ := h
  exact ⟨0x20 :: pre, mid, post, rfl, List.forall_mem_cons.mpr ⟨.inl rfl, hpre⟩, hmid, hpost⟩

/-- A blank may stand before items. -/
theorem spellsItems_blank {item : Document} {rest : List Document} {bs : List UInt8}
    (h : Document.SpellsItems (item :: rest) bs) :
    Document.SpellsItems (item :: rest) (0x20 :: bs) := by
  cases rest with
  | nil => exact padded_blank h
  | cons next rest =>
    obtain ⟨first, others, rfl, hfirst, hothers⟩ := h
    exact ⟨0x20 :: first, others, rfl, padded_blank hfirst, hothers⟩

/-- A blank may stand before members. -/
theorem spellsMembers_blank {key : String} {value : Document} {rest : List (String × Document)}
    {bs : List UInt8} (h : Document.SpellsMembers ((key, value) :: rest) bs) :
    Document.SpellsMembers ((key, value) :: rest) (0x20 :: bs) := by
  cases rest with
  | nil =>
    obtain ⟨name, text, rfl, hname, htext⟩ := h
    exact ⟨0x20 :: name, text, rfl, padded_blank hname, htext⟩
  | cons next rest =>
    obtain ⟨name, text, others, rfl, hname, htext, hothers⟩ := h
    exact ⟨0x20 :: name, text, others, rfl, padded_blank hname, htext, hothers⟩

variable {f64Text : String → Option String}

mutual

/-- **A value of finite floats is written as JSON.** -/
theorem spells_dumps : ∀ v : PyVal, v.Finite → v.Every (NumberLeaf f64Text) →
    v.document.Spells (dumps v).bytes
  | .null, _, _ | .bool true, _, _ | .bool false, _, _ | .int _, _, _ => bytes_ofString _
  | .float (.finite repr), _, hnum => ⟨hnum.1, bytes_ofString repr⟩
  | .str s, _, _ => by
    rw [dumps, bytes_quote]
    exact SpellsString.quote s.text
  | .list items, hfin, hnum =>
    ⟨_, bytes_between '[' ']' _, spells_dumpsItems items hfin hnum⟩
  | .dict members, hfin, hnum =>
    ⟨_, bytes_between '{' '}' _, spells_dumpsMembers members hfin hnum⟩
  | .other replacement, hfin, hnum => by
    rw [dumps, document]
    exact spells_dumps replacement hfin hnum

/-- The same of items. -/
theorem spells_dumpsItems : ∀ items : List PyVal, EveryItem FiniteLeaf items →
    EveryItem (NumberLeaf f64Text) items →
    Document.SpellsItems (documentItems items) (dumpsItems items).bytes
  | [], _, _ => fun _ hb => absurd hb List.not_mem_nil
  | [item], hfin, hnum => .bare (spells_dumps item hfin.1 hnum.1)
  | item :: next :: rest, hfin, hnum => by
    have hitem := spells_dumps item hfin.1 hnum.1
    have hrest := spells_dumpsItems (next :: rest) hfin.2 hnum.2
    refine ⟨_, 0x20 :: (dumpsItems (next :: rest)).bytes, ?_, .bare hitem,
      spellsItems_blank hrest⟩
    rw [dumpsItems, bytes_append, bytes_append, List.append_assoc]
    · rfl
    · simp

/-- The same of members. -/
theorem spells_dumpsMembers : ∀ members : List (PyStr × PyVal), EveryMember FiniteLeaf members →
    EveryMember (NumberLeaf f64Text) members →
    Document.SpellsMembers (documentMembers members) (dumpsMembers members).bytes
  | [], _, _ => fun _ hb => absurd hb List.not_mem_nil
  | [(key, value)], hfin, hnum => by
    have hvalue := spells_dumps value hfin.1 hnum.1
    refine ⟨_, 0x20 :: (dumps value).bytes, ?_, .bare (SpellsString.quote key.text),
      padded_blank (.bare hvalue)⟩
    rw [dumpsMembers, bytes_append, bytes_append, bytes_quote, List.append_assoc]
    rfl
  | (key, value) :: next :: rest, hfin, hnum => by
    have hvalue := spells_dumps value hfin.1 hnum.1
    have hrest := spells_dumpsMembers (next :: rest) hfin.2 hnum.2
    refine ⟨_, 0x20 :: (dumps value).bytes, 0x20 :: (dumpsMembers (next :: rest)).bytes, ?_,
      .bare (SpellsString.quote key.text), padded_blank (.bare hvalue), spellsMembers_blank hrest⟩
    rw [dumpsMembers, bytes_append, bytes_append, bytes_append, bytes_append, bytes_quote]
    · simp only [List.append_assoc]
      rfl
    · simp

end

/-! ### A value with another float -/

/-- A text leaves something foreign outside its strings unless `finite` holds. -/
def Tells (finite : Prop) (bs : List UInt8) : Prop :=
  ∃ marks, Leaves bs marks ∧ (finite ∨ marks.any isForeign = true)

/-- An ordinary text tells that the value is finite. -/
theorem Tells.ordinary {finite : Prop} {bs : List UInt8} (h : Ordinary bs) (hfin : finite) :
    Tells finite bs := by
  obtain ⟨marks, hleaves, -⟩ := h
  exact ⟨marks, hleaves, .inl hfin⟩

/-- A foreign letter outside strings tells that it is not. -/
theorem Tells.foreign {finite : Prop} {bs : List UInt8} (hq : bs.contains 0x22 = false)
    (h : bs.any isForeign = true) : Tells finite bs := by
  have hmem : 0x22 ∉ bs := fun hmem => by
    rw [List.contains_iff_mem.mpr hmem] at hq
    cases hq
  exact ⟨bs, .bytes hmem, .inr h⟩

/-- Two texts tell of two values. -/
theorem Tells.append {p q : Prop} {bs bs' : List UInt8} (h : Tells p bs) (h' : Tells q bs') :
    Tells (p ∧ q) (bs ++ bs') := by
  obtain ⟨marks, hleaves, htold⟩ := h
  obtain ⟨marks', hleaves', htold'⟩ := h'
  refine ⟨_, hleaves.append hleaves', ?_⟩
  rw [List.any_append, Bool.or_eq_true]
  rcases htold with hp | hforeign
  · exact htold'.imp (fun hq => ⟨hp, hq⟩) .inr
  · exact .inr (.inl hforeign)

/-- A text that is ordinary tells of less, too. -/
theorem Tells.imp {p q : Prop} {bs : List UInt8} (himp : p → q) (h : Tells p bs) :
    Tells q bs := by
  obtain ⟨marks, hleaves, htold⟩ := h
  exact ⟨marks, hleaves, htold.imp_left himp⟩

/-- Brackets around a text tell nothing. -/
theorem Tells.between {p : Prop} {a b : Char} (s : PyStr)
    (ha : Ordinary (String.utf8EncodeChar a)) (hb : Ordinary (String.utf8EncodeChar b))
    (h : Tells p s.bytes) : Tells p (bytes (PyStr.ofChar a :: s ++ [PyStr.ofChar b])) := by
  rw [bytes_between]
  have hall := ((Tells.ordinary ha trivial).append h).append (.ordinary hb trivial)
  exact hall.imp fun hp => hp.1.2

/-- A finite value is told by its text. -/
theorem tells_of_finite {v : PyVal} (hfin : v.Finite) (hnum : v.Every (NumberLeaf f64Text)) :
    Tells v.Finite (dumps v).bytes :=
  .ordinary (spells_dumps v hfin hnum).ordinary hfin

/-- A separator tells nothing. -/
theorem tells_comma : Tells True (PyStr.ofString ", ").bytes := by
  rw [bytes_ofString]
  exact .ordinary (.bytes (by decide)) trivial

/-- A key tells nothing. -/
theorem tells_key (key : PyStr) : Tells True (bytes (quote key ++ .ofString ": ")) := by
  rw [bytes_append, bytes_quote, bytes_ofString]
  exact .ordinary (.append (.string (SpellsString.quote _)) (.bytes (by decide))) trivial

mutual

/-- A float that is not finite is told by the text. -/
theorem tells_dumps : ∀ v : PyVal, v.Every (NumberLeaf f64Text) → Tells v.Finite (dumps v).bytes
  | .float .inf, _ | .float .negInf, _ | .float .nan, _ => by
    rw [dumps, bytes_ofString]
    exact .foreign (by decide) (by decide)
  | .null, hnum | .bool _, hnum | .int _, hnum | .str _, hnum => tells_of_finite trivial hnum
  | .float (.finite _), hnum => tells_of_finite trivial hnum
  | .list items, hnum => by
    rw [dumps]
    exact .between _ (.bytes (by decide)) (.bytes (by decide)) (tells_dumpsItems items hnum)
  | .dict members, hnum => by
    rw [dumps]
    exact .between _ (.bytes (by decide)) (.bytes (by decide)) (tells_dumpsMembers members hnum)
  | .other replacement, hnum => by
    rw [dumps]
    exact tells_dumps replacement hnum

/-- The same of items. -/
theorem tells_dumpsItems : ∀ items : List PyVal, EveryItem (NumberLeaf f64Text) items →
    Tells (EveryItem FiniteLeaf items) (dumpsItems items).bytes
  | [], _ => .ordinary (.bytes rfl) trivial
  | [item], hnum => (tells_dumps item hnum.1).imp fun hfin => ⟨hfin, trivial⟩
  | item :: next :: rest, hnum => by
    have hitem := tells_dumps item hnum.1
    have hrest := tells_dumpsItems (next :: rest) hnum.2
    rw [dumpsItems, bytes_append, bytes_append]
    · exact ((hitem.append tells_comma).append hrest).imp fun hfin => ⟨hfin.1.1, hfin.2⟩
    · simp

/-- The same of members. -/
theorem tells_dumpsMembers : ∀ members : List (PyStr × PyVal),
    EveryMember (NumberLeaf f64Text) members →
    Tells (EveryMember FiniteLeaf members) (dumpsMembers members).bytes
  | [], _ => .ordinary (.bytes rfl) trivial
  | [(key, value)], hnum => by
    have hvalue := tells_dumps value hnum.1
    rw [dumpsMembers, bytes_append]
    exact ((tells_key key).append hvalue).imp fun hfin => ⟨hfin.2, trivial⟩
  | (key, value) :: next :: rest, hnum => by
    have hvalue := tells_dumps value hnum.1
    have hrest := tells_dumpsMembers (next :: rest) hnum.2
    rw [dumpsMembers, bytes_append, bytes_append, bytes_append]
    · exact ((((tells_key key).append hvalue).append tells_comma).append hrest).imp
        fun hfin => ⟨hfin.1.1.2, hfin.2⟩
    · simp

end

/-- **Only finite floats are written as JSON.** -/
theorem finite_of_spells {v : PyVal} (hnum : v.Every (NumberLeaf f64Text)) {d : Document}
    (h : Padded d.Spells (dumps v).bytes) : v.Finite := by
  obtain ⟨marks, hleaves, htold⟩ := tells_dumps v hnum
  obtain ⟨marks', hleaves', hmarks⟩ := Ordinary.padded (fun _ => Document.Spells.ordinary d) h
  obtain rfl := hleaves.inj hleaves'
  exact htold.resolve_right (by rw [hmarks]; rintro ⟨⟩)

/-! ### One line -/

/-- No control character is left in a string. -/
theorem printable_quote (s : PyStr) : Json.Printable (chars (quote s)) := by
  rw [chars_quote]
  exact Json.printable_quoteText s.text

/-- A constant has none. -/
theorem printable_ofString {s : String} (h : s.toList.all (0x20 ≤ ·.toNat) = true) :
    Json.Printable (PyStr.ofString s).chars := by
  rw [PyStr.chars_ofString]
  exact .of_all h

/-- A number has none. -/
theorem printable_number {s : String} (h : ∀ c ∈ s.toList, Json.isNumberChar c = true) :
    Json.Printable (PyStr.ofString s).chars := by
  rw [PyStr.chars_ofString]
  exact fun c hc => Json.printable_of_isNumberChar (h c hc)

/-- Brackets add none. -/
theorem printable_between {a b : Char} (ha : 0x20 ≤ a.toNat) (hb : 0x20 ≤ b.toNat) {s : PyStr}
    (h : Json.Printable s.chars) :
    Json.Printable (chars (PyStr.ofChar a :: s ++ [PyStr.ofChar b])) := by
  rw [PyStr.chars_append, PyStr.chars_cons_some (PyStr.toChar?_ofChar a),
    PyStr.chars_cons_some (PyStr.toChar?_ofChar b)]
  exact (h.cons ha).append (.cons hb fun _ hc => absurd hc List.not_mem_nil)

mutual

/-- **The text of a value has no control characters.** -/
theorem printable_dumps : ∀ v : PyVal, v.Every (NumberLeaf f64Text) →
    Json.Printable (dumps v).chars
  | .null, _ | .bool true, _ | .bool false, _ => printable_ofString (by decide)
  | .float .inf, _ | .float .negInf, _ | .float .nan, _ => printable_ofString (by decide)
  | .int _, _ => printable_number fun _ => Json.isNumberChar_toString
  | .float (.finite _), hnum => printable_number hnum.1.isNumberChar
  | .str s, _ => printable_quote s
  | .list items, hnum =>
    printable_between (by decide) (by decide) (printable_dumpsItems items hnum)
  | .dict members, hnum =>
    printable_between (by decide) (by decide) (printable_dumpsMembers members hnum)
  | .other replacement, hnum => by
    rw [dumps]
    exact printable_dumps replacement hnum

/-- The same of items. -/
theorem printable_dumpsItems : ∀ items : List PyVal, EveryItem (NumberLeaf f64Text) items →
    Json.Printable (dumpsItems items).chars
  | [], _ => fun _ hc => absurd hc List.not_mem_nil
  | [item], hnum => printable_dumps item hnum.1
  | item :: next :: rest, hnum => by
    rw [dumpsItems, PyStr.chars_append, PyStr.chars_append]
    · exact ((printable_dumps item hnum.1).append (printable_ofString (by decide))).append
        (printable_dumpsItems (next :: rest) hnum.2)
    · simp

/-- The same of members. -/
theorem printable_dumpsMembers : ∀ members : List (PyStr × PyVal),
    EveryMember (NumberLeaf f64Text) members → Json.Printable (dumpsMembers members).chars
  | [], _ => fun _ hc => absurd hc List.not_mem_nil
  | [(key, value)], hnum => by
    rw [dumpsMembers, PyStr.chars_append, PyStr.chars_append]
    exact ((printable_quote key).append (printable_ofString (by decide))).append
      (printable_dumps value hnum.1)
  | (key, value) :: next :: rest, hnum => by
    rw [dumpsMembers, PyStr.chars_append, PyStr.chars_append, PyStr.chars_append,
      PyStr.chars_append]
    · exact ((((printable_quote key).append (printable_ofString (by decide))).append
        (printable_dumps value hnum.1)).append (printable_ofString (by decide))).append
          (printable_dumpsMembers (next :: rest) hnum.2)
    · simp

end

/-! ### What is read -/

mutual

/-- A tree of finite floats is a value of the daemon's. -/
theorem isSome_toJson : ∀ v : PyVal, v.Finite → v.Every (NumberLeaf f64Text) →
    (v.document.toJson f64Text).isSome = true
  | .null, _, _ | .bool _, _, _ | .str _, _, _ => rfl
  | .int i, _, hnum => by
    have hrange : -2 ^ 63 ≤ i ∧ i < 2 ^ 64 := hnum
    rw [document, Document.toJson, if_pos hrange]
    rfl
  | .float (.finite repr), _, hnum => by
    rw [document, Document.toJson, Option.isSome_map]
    exact hnum.2
  | .list items, hfin, hnum => by
    rw [document, Document.toJson, Option.isSome_map]
    exact isSome_itemsToJson items hfin hnum
  | .dict members, hfin, hnum => by
    rw [document, Document.toJson, Option.isSome_map]
    exact isSome_membersToJson members hfin hnum
  | .other replacement, hfin, hnum => by
    rw [document]
    exact isSome_toJson replacement hfin hnum

/-- The same of items. -/
theorem isSome_itemsToJson : ∀ items : List PyVal, EveryItem FiniteLeaf items →
    EveryItem (NumberLeaf f64Text) items →
    (Document.itemsToJson f64Text (documentItems items)).isSome = true
  | [], _, _ => rfl
  | item :: rest, hfin, hnum => by
    obtain ⟨value, hvalue⟩ := Option.isSome_iff_exists.mp (isSome_toJson item hfin.1 hnum.1)
    obtain ⟨values, hvalues⟩ :=
      Option.isSome_iff_exists.mp (isSome_itemsToJson rest hfin.2 hnum.2)
    exact Option.isSome_iff_exists.mpr
      ⟨_, Document.itemsToJson_cons.mpr ⟨value, values, hvalue, hvalues, rfl⟩⟩

/-- The same of members. -/
theorem isSome_membersToJson : ∀ members : List (PyStr × PyVal),
    EveryMember FiniteLeaf members → EveryMember (NumberLeaf f64Text) members →
    (Document.membersToJson f64Text (documentMembers members)).isSome = true
  | [], _, _ => rfl
  | (key, value) :: rest, hfin, hnum => by
    obtain ⟨json, hjson⟩ := Option.isSome_iff_exists.mp (isSome_toJson value hfin.1 hnum.1)
    obtain ⟨others, hothers⟩ :=
      Option.isSome_iff_exists.mp (isSome_membersToJson rest hfin.2 hnum.2)
    exact Option.isSome_iff_exists.mpr
      ⟨_, Document.membersToJson_cons.mpr ⟨json, others, hjson, hothers, rfl⟩⟩

end

end PyVal

end Layad
