import Layad.Json.Text

namespace Layad

/-!
# JSON texts

A `Document` is what a JSON text says before a reader has chosen its data types: members
stand in their order, with duplicates, and a number that is no plain integer keeps its
literal.  `Document.Spells` is the grammar, `Document.toJson` the value `serde_json` reads:
integers outside the 64-bit ranges become floats, the last member of a key counts, and an
object is sorted by key.
-/

/-- What a JSON text says. -/
inductive Document where
  | null
  | bool (b : Bool)
  /-- An integer literal, other than `-0`. -/
  | int (i : Int)
  | negZero
  /-- A literal with a fraction or an exponent. -/
  | real (literal : String)
  | str (s : String)
  | arr (items : List Document)
  | obj (members : List (String × Document))

/-! ### The grammar -/

/-- White space between tokens. -/
def Blank (bs : List UInt8) : Prop := ∀ b ∈ bs, b = 0x20 ∨ b = 0x09 ∨ b = 0x0a ∨ b = 0x0d

/-- White space around a text. -/
def Padded (text : List UInt8 → Prop) (bs : List UInt8) : Prop :=
  ∃ pre mid post, bs = pre ++ mid ++ post ∧ Blank pre ∧ text mid ∧ Blank post

/-- The value of a hexadecimal digit. -/
def hexValue (b : UInt8) : Option Nat :=
  if 0x30 ≤ b ∧ b ≤ 0x39 then some (b.toNat - 0x30)
  else if 0x41 ≤ b ∧ b ≤ 0x46 then some (b.toNat - 0x41 + 10)
  else if 0x61 ≤ b ∧ b ≤ 0x66 then some (b.toNat - 0x61 + 10)
  else none

/-- A backslash, `u` and the four hexadecimal digits of `n`. -/
def SpellsUnit (n : Nat) (bs : List UInt8) : Prop :=
  ∃ a b c d, bs = [0x5c, 0x75, a, b, c, d] ∧ ∃ va vb vc vd, hexValue a = some va ∧
    hexValue b = some vb ∧ hexValue c = some vc ∧ hexValue d = some vd ∧
    n = ((va * 16 + vb) * 16 + vc) * 16 + vd

/-- The escapes of two characters. -/
def shortEscapes : List (Char × UInt8) :=
  [('"', 0x22), ('\\', 0x5c), ('/', 0x2f), ('\x08', 0x62), ('\x0c', 0x66), ('\n', 0x6e),
    ('\r', 0x72), ('\t', 0x74)]

/-- How one character of a string may be spelled. -/
inductive SpellsChar (c : Char) : List UInt8 → Prop where
  | raw (h : 0x20 ≤ c.toNat) (hq : c ≠ '"') (hb : c ≠ '\\') : SpellsChar c (String.utf8EncodeChar c)
  | short {b : UInt8} (h : (c, b) ∈ shortEscapes) : SpellsChar c [0x5c, b]
  | unit {bs : List UInt8} (h : SpellsUnit c.toNat bs) : SpellsChar c bs
  | pair {high low : Nat} {bs bs' : List UInt8} (hh : 0xd800 ≤ high ∧ high < 0xdc00)
      (hl : 0xdc00 ≤ low ∧ low < 0xe000)
      (hc : c.toNat = 0x10000 + (high - 0xd800) * 0x400 + (low - 0xdc00))
      (h : SpellsUnit high bs) (h' : SpellsUnit low bs') : SpellsChar c (bs ++ bs')

/-- The characters of a string in order. -/
inductive SpellsChars : List Char → List UInt8 → Prop where
  | nil : SpellsChars [] []
  | cons {c : Char} {cs : List Char} {bs bs' : List UInt8} (h : SpellsChar c bs)
      (hs : SpellsChars cs bs') : SpellsChars (c :: cs) (bs ++ bs')

/-- A string between quotation marks. -/
def SpellsString (s : String) (bs : List UInt8) : Prop :=
  ∃ content, bs = 0x22 :: content ++ [0x22] ∧ SpellsChars s.toList content

/-- A run of decimal digits. -/
def Digits (cs : List Char) : Prop := cs ≠ [] ∧ ∀ c ∈ cs, c.isDigit

/-- A number literal with a fraction, an exponent or both. -/
def IsReal (literal : String) : Prop :=
  ∃ (sign : List Char) (whole fraction exponent : List Char),
    literal.toList = sign ++ whole ++ fraction ++ exponent ∧
    (sign = [] ∨ sign = ['-']) ∧ Digits whole ∧ (whole = ['0'] ∨ whole.head? ≠ some '0') ∧
    (fraction = [] ∨ ∃ ds, fraction = '.' :: ds ∧ Digits ds) ∧
    (exponent = [] ∨ ∃ e sgn ds, exponent = e :: sgn ++ ds ∧ (e = 'e' ∨ e = 'E') ∧
      (sgn = [] ∨ sgn = ['+'] ∨ sgn = ['-']) ∧ Digits ds) ∧
    (fraction ≠ [] ∨ exponent ≠ [])

/-- A text may stand without white space around it. -/
theorem Padded.bare {text : List UInt8 → Prop} {bs : List UInt8} (h : text bs) : Padded text bs :=
  ⟨[], bs, [], by simp, by simp [Blank], h, by simp [Blank]⟩

/-- How a quotation mark, a backslash or a control character is written. -/
theorem escapeChar_of_special {c : Char} (hc : c.toNat < 128)
    (hs : ¬(0x20 ≤ c.toNat ∧ c ≠ '"' ∧ c ≠ '\\')) :
    (Json.escapeChar c).flatMap String.utf8EncodeChar =
      match shortEscapes.lookup c with
      | some b => [0x5c, b]
      | none => [0x5c, 0x75, 0x30, 0x30, Json.hexDigit (UInt8.ofNat (c.toNat / 16)),
          Json.hexDigit (UInt8.ofNat (c.toNat % 16))] :=
  forall_ascii (P := fun c => ¬(0x20 ≤ c.toNat ∧ c ≠ '"' ∧ c ≠ '\\') →
    (Json.escapeChar c).flatMap String.utf8EncodeChar =
      match shortEscapes.lookup c with
      | some b => [0x5c, b]
      | none => [0x5c, 0x75, 0x30, 0x30, Json.hexDigit (UInt8.ofNat (c.toNat / 16)),
          Json.hexDigit (UInt8.ofNat (c.toNat % 16))]) (by decide) hc hs

/-- The four digits that are written for a small number spell it. -/
theorem spellsUnit_hexDigit {n : Nat} (hn : n < 128) :
    SpellsUnit n [0x5c, 0x75, 0x30, 0x30, Json.hexDigit (UInt8.ofNat (n / 16)),
      Json.hexDigit (UInt8.ofNat (n % 16))] := by
  have hdigit : ∀ d < 16, hexValue (Json.hexDigit (UInt8.ofNat d)) = some d := by decide
  have hhigh := hdigit (n / 16) (by omega)
  have hlow := hdigit (n % 16) (by omega)
  exact ⟨_, _, _, _, rfl, 0, 0, n / 16, n % 16, rfl, rfl, hhigh, hlow, by omega⟩

/-- A character may be spelled as it is written. -/
theorem SpellsChar.escape (c : Char) :
    SpellsChar c ((Json.escapeChar c).flatMap String.utf8EncodeChar) := by
  by_cases hp : 0x20 ≤ c.toNat ∧ c ≠ '"' ∧ c ≠ '\\'
  · obtain ⟨hc, hq, hs⟩ := hp
    rw [Json.escapeChar_of_plain hc hq hs, List.flatMap_singleton]
    exact .raw hc hq hs
  · have hc : c.toNat < 128 := by
      by_contra hc
      refine hp ⟨by omega, ?_, ?_⟩
      all_goals
        rintro rfl
        exact hc (by decide)
    rw [escapeChar_of_special hc hp]
    cases hs : shortEscapes.lookup c with
    | some b =>
      obtain ⟨before, after, he, -⟩ := List.lookup_eq_some_iff.mp hs
      exact .short (he ▸ List.mem_append_right _ List.mem_cons_self)
    | none => exact .unit (spellsUnit_hexDigit hc)

/-- So may the characters of a string. -/
theorem SpellsChars.escape : ∀ cs : List Char,
    SpellsChars cs ((cs.flatMap Json.escapeChar).flatMap String.utf8EncodeChar)
  | [] => .nil
  | c :: cs => by
    rw [List.flatMap_cons, List.flatMap_append]
    exact .cons (.escape c) (SpellsChars.escape cs)

/-- **A string may be spelled as it is written.** -/
theorem SpellsString.quote (s : String) : SpellsString s (Json.quote s) := by
  refine ⟨_, ?_, SpellsChars.escape s.toList⟩
  simp only [Json.quote, utf8_eq, List.flatMap_assoc, Json.flatMap_escapeByte]

namespace Document

mutual

/-- The texts of a document, without white space around them. -/
def Spells : Document → List UInt8 → Prop
  | .null, bs => bs = utf8 "null"
  | .bool true, bs => bs = utf8 "true"
  | .bool false, bs => bs = utf8 "false"
  | .int i, bs => bs = utf8 (toString i)
  | .negZero, bs => bs = utf8 "-0"
  | .real literal, bs => IsReal literal ∧ bs = utf8 literal
  | .str s, bs => SpellsString s bs
  | .arr items, bs => ∃ content, bs = 0x5b :: content ++ [0x5d] ∧ SpellsItems items content
  | .obj members, bs => ∃ content, bs = 0x7b :: content ++ [0x7d] ∧ SpellsMembers members content

/-- The items of an array, separated by commas. -/
def SpellsItems : List Document → List UInt8 → Prop
  | [], bs => Blank bs
  | item :: [], bs => Padded (Spells item) bs
  | item :: next :: rest, bs => ∃ first others, bs = first ++ 0x2c :: others ∧
      Padded (Spells item) first ∧ SpellsItems (next :: rest) others

/-- The members of an object, separated by commas. -/
def SpellsMembers : List (String × Document) → List UInt8 → Prop
  | [], bs => Blank bs
  | (key, value) :: [], bs => ∃ name text, bs = name ++ 0x3a :: text ∧
      Padded (SpellsString key) name ∧ Padded (Spells value) text
  | (key, value) :: next :: rest, bs => ∃ name text others,
      bs = name ++ 0x3a :: text ++ 0x2c :: others ∧ Padded (SpellsString key) name ∧
      Padded (Spells value) text ∧ SpellsMembers (next :: rest) others

end

/-! ### The value that is read -/

mutual

/-- `serde_json`'s value of a document, where `f64Text` prints the float of a literal;
    nothing if a number is out of range. -/
def toJson (f64Text : String → Option String) : Document → Option Json
  | .null => some .null
  | .bool b => some (.bool b)
  | .int i =>
    if -2 ^ 63 ≤ i ∧ i < 2 ^ 64 then some (.int i) else (f64Text (toString i)).map .float
  | .negZero => (f64Text "-0").map .float
  | .real literal => (f64Text literal).map .float
  | .str s => some (.str s)
  | .arr items => (itemsToJson f64Text items).map .arr
  | .obj members => (membersToJson f64Text members).map fun members => .obj (Json.toMap members)

/-- The items of an array. -/
def itemsToJson (f64Text : String → Option String) : List Document → Option (List Json)
  | [] => some []
  | item :: rest => do
    let value ← item.toJson f64Text
    let values ← itemsToJson f64Text rest
    some (value :: values)

/-- The members of an object, as they come. -/
def membersToJson (f64Text : String → Option String) :
    List (String × Document) → Option (List (String × Json))
  | [] => some []
  | (key, document) :: rest => do
    let value ← document.toJson f64Text
    let members ← membersToJson f64Text rest
    some ((key, value) :: members)

end

variable {f64Text : String → Option String}

/-- Items are read one by one. -/
theorem itemsToJson_cons {item : Document} {rest : List Document} {values : List Json} :
    itemsToJson f64Text (item :: rest) = some values ↔
      ∃ value others, item.toJson f64Text = some value ∧
        itemsToJson f64Text rest = some others ∧ value :: others = values := by
  simp [itemsToJson, Option.bind_eq_some_iff]

/-- Members are read one by one. -/
theorem membersToJson_cons {key : String} {document : Document}
    {rest : List (String × Document)} {values : List (String × Json)} :
    membersToJson f64Text ((key, document) :: rest) = some values ↔
      ∃ value others, document.toJson f64Text = some value ∧
        membersToJson f64Text rest = some others ∧ (key, value) :: others = values := by
  simp [membersToJson, Option.bind_eq_some_iff]

/-! ### Numbers -/

/-- The floats are printed as number tokens. -/
def Tokens (f64Text : String → Option String) : Prop :=
  ∀ literal text, f64Text literal = some text → ∀ c ∈ text.toList, Json.isNumberChar c = true

/-- A member put into an object keeps its number tokens. -/
theorem numericMembers_insert {key : String} {value : Json} (hv : value.Numeric) :
    ∀ {members : List (String × Json)}, Json.NumericMembers members →
      Json.NumericMembers (Json.insert key value members)
  | [], _ => ⟨hv, trivial⟩
  | (k, v) :: rest, h => by
    rw [Json.insert]
    split
    · exact ⟨hv, h⟩
    · split
      · exact ⟨hv, h.2⟩
      · exact ⟨h.1, numericMembers_insert hv h.2⟩

/-- Sorting the members keeps their number tokens. -/
theorem numericMembers_toMap {members : List (String × Json)} (h : Json.NumericMembers members) :
    Json.NumericMembers (Json.toMap members) := by
  have hfold : ∀ map, Json.NumericMembers map → Json.NumericMembers
      (members.foldl (fun map m => Json.insert m.1 m.2 map) map) := by
    induction members with
    | nil => exact fun map hm => hm
    | cons m rest ih => exact fun map hm => ih h.2 _ (numericMembers_insert h.1 hm)
  exact hfold [] trivial

mutual

/-- What is read is printed with number tokens. -/
theorem numeric_toJson (hf : Tokens f64Text) : ∀ (d : Document) {v : Json},
    d.toJson f64Text = some v → v.Numeric
  | .null, v, hv | .bool _, v, hv | .str _, v, hv => by
    cases hv
    trivial
  | .int i, v, hv => by
    rw [toJson] at hv
    split at hv
    · cases hv
      trivial
    · obtain ⟨text, ht, rfl⟩ := Option.map_eq_some_iff.mp hv
      exact hf _ _ ht
  | .negZero, v, hv | .real _, v, hv => by
    obtain ⟨text, ht, rfl⟩ := Option.map_eq_some_iff.mp hv
    exact hf _ _ ht
  | .arr items, v, hv => by
    obtain ⟨values, hvs, rfl⟩ := Option.map_eq_some_iff.mp hv
    exact numericItems_toJson hf items hvs
  | .obj members, v, hv => by
    obtain ⟨values, hvs, rfl⟩ := Option.map_eq_some_iff.mp hv
    exact numericMembers_toMap (numericMembers_toJson hf members hvs)

/-- The same of the items of an array. -/
theorem numericItems_toJson (hf : Tokens f64Text) : ∀ (items : List Document)
    {values : List Json}, itemsToJson f64Text items = some values → Json.NumericItems values
  | [], values, hv => by
    cases hv
    trivial
  | item :: rest, values, hv => by
    obtain ⟨value, others, hitem, hrest, rfl⟩ := itemsToJson_cons.mp hv
    exact ⟨numeric_toJson hf item hitem, numericItems_toJson hf rest hrest⟩

/-- The same of the members of an object. -/
theorem numericMembers_toJson (hf : Tokens f64Text) : ∀ (members : List (String × Document))
    {values : List (String × Json)}, membersToJson f64Text members = some values →
      Json.NumericMembers values
  | [], values, hv => by
    cases hv
    trivial
  | (key, document) :: rest, values, hv => by
    obtain ⟨value, others, hdoc, hrest, rfl⟩ := membersToJson_cons.mp hv
    exact ⟨numeric_toJson hf document hdoc, numericMembers_toJson hf rest hrest⟩

end

end Document

end Layad
