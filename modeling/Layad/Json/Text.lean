import Layad.Json.Compact
import Mathlib.Data.List.Basic

namespace Layad

/-!
# The text of a value

`Json.compact` works on bytes, as `serde_json` does.  Its bytes are the UTF-8 encoding of a
text without control characters (`Json.compact_eq`, `Json.printable_text`), which is what a
reader of the line decodes.
-/

/-! ### UTF-8 -/

/-- The bytes of a text are those of its characters. -/
theorem utf8_eq (s : String) : utf8 s = s.toList.flatMap String.utf8EncodeChar := by
  rw [utf8, String.toUTF8, ← String.utf8Encode_toList, List.utf8Encode, List.data_toByteArray]

/-- The bytes of a list of characters. -/
theorem utf8_ofList (cs : List Char) :
    utf8 (String.ofList cs) = cs.flatMap String.utf8EncodeChar := by
  rw [utf8_eq, String.toList_ofList]

/-- A property of every ASCII character, from its 128 instances. -/
theorem forall_ascii {P : Char → Prop} (h : ∀ n < 128, P (Char.ofNat n)) {c : Char}
    (hc : c.toNat < 128) : P c := by
  have := h c.toNat hc
  rwa [Char.ofNat_toNat] at this

/-- The bytes of a character outside ASCII are outside ASCII. -/
theorem le_of_mem_utf8EncodeChar {c : Char} (hc : 128 ≤ c.toNat) {b : UInt8}
    (hb : b ∈ String.utf8EncodeChar c) : 128 ≤ b := by
  rw [UInt8.le_iff_toNat_le]
  simp only [String.utf8EncodeChar, show c.val.toNat = c.toNat from rfl] at hb
  rw [if_neg (by omega)] at hb
  repeat' split at hb
  all_goals simp only [List.mem_cons, List.not_mem_nil, or_false] at hb
  · rcases hb with rfl | rfl
    all_goals simp; omega
  · rcases hb with rfl | rfl | rfl
    all_goals simp; omega
  · rcases hb with rfl | rfl | rfl | rfl
    all_goals simp; omega

namespace Json

/-! ### Escapes -/

/-- A byte that needs no escape. -/
theorem escapeByte_of_le {b : UInt8} (hb : 0x20 ≤ b) (hq : b ≠ 0x22) (hs : b ≠ 0x5c) :
    escapeByte b = [b] := by
  unfold escapeByte
  split
  all_goals first
    | contradiction
    | exact absurd hb (by decide)
    | rw [if_neg (UInt8.not_lt.mpr hb)]

/-- How one character of a string is written. -/
def escapeChar (c : Char) : List Char :=
  if c.toNat < 128 then (escapeByte (UInt8.ofNat c.toNat)).map fun b => Char.ofNat b.toNat
  else [c]

/-- Escaping a character's bytes and encoding its escape are the same. -/
theorem flatMap_escapeByte (c : Char) :
    (String.utf8EncodeChar c).flatMap escapeByte =
      (escapeChar c).flatMap String.utf8EncodeChar := by
  by_cases hc : c.toNat < 128
  · exact forall_ascii (P := fun c => (String.utf8EncodeChar c).flatMap escapeByte =
      (escapeChar c).flatMap String.utf8EncodeChar) (by decide) hc
  · have hid : (String.utf8EncodeChar c).flatMap escapeByte =
        (String.utf8EncodeChar c).flatMap fun b => [b] :=
      List.flatMap_congr fun b hb => by
        have hle := le_of_mem_utf8EncodeChar (by omega) hb
        exact escapeByte_of_le (UInt8.le_trans (by decide) hle)
          (fun h => absurd (h ▸ hle) (by decide)) (fun h => absurd (h ▸ hle) (by decide))
    rw [hid, List.flatMap_singleton', escapeChar, if_neg hc, List.flatMap_singleton]

/-- No character of an escape is a control character. -/
theorem printable_escapeChar {c d : Char} (hd : d ∈ escapeChar c) : 0x20 ≤ d.toNat := by
  by_cases hc : c.toNat < 128
  · have hall := forall_ascii (P := fun c => (escapeChar c).all (0x20 ≤ ·.toNat) = true)
      (by decide) hc
    simpa using List.all_eq_true.mp hall d hd
  · rw [escapeChar, if_neg hc, List.mem_singleton] at hd
    subst hd
    omega

/-- A character that needs no escape. -/
theorem escapeChar_of_plain {c : Char} (hc : 0x20 ≤ c.toNat) (hq : c ≠ '"') (hs : c ≠ '\\') :
    escapeChar c = [c] := by
  by_cases ha : c.toNat < 128
  · exact forall_ascii (P := fun c => 0x20 ≤ c.toNat → c ≠ '"' → c ≠ '\\' → escapeChar c = [c])
      (by decide) ha hc hq hs
  · rw [escapeChar, if_neg ha]

/-! ### The text -/

/-- The text of a string between quotation marks. -/
def quoteText (s : String) : List Char := '"' :: s.toList.flatMap escapeChar ++ ['"']

mutual

/-- The text of a value. -/
def text : Json → List Char
  | .null => "null".toList
  | .bool true => "true".toList
  | .bool false => "false".toList
  | .int i => (toString i).toList
  | .float text => text.toList
  | .str s => quoteText s
  | .arr items => '[' :: textItems items ++ [']']
  | .obj members => '{' :: textMembers members ++ ['}']

/-- The text of the items of an array. -/
def textItems : List Json → List Char
  | [] => []
  | [item] => text item
  | item :: rest => text item ++ ',' :: textItems rest

/-- The text of the members of an object. -/
def textMembers : List (String × Json) → List Char
  | [] => []
  | [(key, value)] => quoteText key ++ ':' :: text value
  | (key, value) :: rest => quoteText key ++ ':' :: text value ++ ',' :: textMembers rest

end

/-- A string is written as the encoding of its text. -/
theorem quote_eq (s : String) : quote s = (quoteText s).flatMap String.utf8EncodeChar := by
  simp only [quote, quoteText, utf8_eq, List.flatMap_assoc, flatMap_escapeByte,
    List.cons_append, List.flatMap_cons, List.flatMap_append]
  rfl

mutual

/-- The bytes of a value encode its text. -/
theorem compact_eq : ∀ v : Json, compact v = (text v).flatMap String.utf8EncodeChar
  | .null | .bool true | .bool false => by decide
  | .int i => by rw [compact, text, utf8_eq]
  | .float text => by rw [compact, Json.text, utf8_eq]
  | .str s => by rw [compact, text, quote_eq]
  | .arr items => by
    simp only [compact, text, compactItems_eq items, List.cons_append, List.flatMap_cons,
      List.flatMap_append]
    rfl
  | .obj members => by
    simp only [compact, text, compactMembers_eq members, List.cons_append, List.flatMap_cons,
      List.flatMap_append]
    rfl

/-- The same of the items of an array. -/
theorem compactItems_eq : ∀ items : List Json,
    compactItems items = (textItems items).flatMap String.utf8EncodeChar
  | [] => rfl
  | [item] => by rw [compactItems, textItems, compact_eq item]
  | item :: next :: rest => by
    rw [compactItems, textItems, compact_eq item, compactItems_eq (next :: rest),
      List.flatMap_append, List.flatMap_cons]
    · rfl
    all_goals simp

/-- The same of the members of an object. -/
theorem compactMembers_eq : ∀ members : List (String × Json),
    compactMembers members = (textMembers members).flatMap String.utf8EncodeChar
  | [] => rfl
  | [(key, value)] => by
    rw [compactMembers, textMembers, compact_eq value, quote_eq, List.flatMap_append,
      List.flatMap_cons]
    rfl
  | (key, value) :: next :: rest => by
    rw [compactMembers, textMembers, compact_eq value, compactMembers_eq (next :: rest), quote_eq,
      List.flatMap_append, List.flatMap_append, List.flatMap_cons, List.flatMap_cons]
    · rfl
    all_goals simp

end

/-! ### No control characters -/

/-- The characters of a number token. -/
def isNumberChar (c : Char) : Bool := c.isDigit || ['-', '+', '.', 'e', 'E'].contains c

/-- A natural number is written in digits. -/
theorem isNumberChar_repr {n : Nat} {c : Char} (hc : c ∈ (toString n).toList) :
    isNumberChar c = true := by
  have hc : c ∈ Nat.toDigits 10 n := Nat.toList_repr ▸ hc
  simp [isNumberChar, Nat.isDigit_of_mem_toDigits (by decide) (by decide) hc]

/-- An integer is written as a number token. -/
theorem isNumberChar_toString {i : Int} {c : Char} (hc : c ∈ (toString i).toList) :
    isNumberChar c = true := by
  cases i with
  | ofNat n => exact isNumberChar_repr hc
  | negSucc n =>
    have hc : c = '-' ∨ c ∈ (n + 1).repr.toList := by simpa [toString, Int.repr] using hc
    rcases hc with rfl | hc
    · decide
    · exact isNumberChar_repr hc

/-- The characters of a number are of one byte. -/
theorem ascii_of_isNumberChar {c : Char} (hc : isNumberChar c = true) : c.toNat < 128 := by
  rw [isNumberChar, Bool.or_eq_true] at hc
  rcases hc with hc | hc
  · simp only [Char.isDigit, Bool.and_eq_true, decide_eq_true_eq] at hc
    exact Nat.lt_of_le_of_lt (UInt32.le_iff_toNat_le.mp hc.2) (by decide)
  · simp only [List.contains_eq_mem, decide_eq_true_eq, List.mem_cons, List.not_mem_nil,
      or_false] at hc
    rcases hc with rfl | rfl | rfl | rfl | rfl
    all_goals decide

/-- The characters of a number are no control characters. -/
theorem printable_of_isNumberChar {c : Char} (hc : isNumberChar c = true) : 0x20 ≤ c.toNat :=
  forall_ascii (P := fun c => isNumberChar c = true → 0x20 ≤ c.toNat) (by decide)
    (ascii_of_isNumberChar hc) hc

mutual

/-- Every float is printed as a number token. -/
def Numeric : Json → Prop
  | .float text => ∀ c ∈ text.toList, isNumberChar c = true
  | .arr items => NumericItems items
  | .obj members => NumericMembers members
  | _ => True

/-- The same of all items. -/
def NumericItems : List Json → Prop
  | [] => True
  | item :: rest => item.Numeric ∧ NumericItems rest

/-- The same of all members. -/
def NumericMembers : List (String × Json) → Prop
  | [] => True
  | (_, value) :: rest => value.Numeric ∧ NumericMembers rest

end

/-- A text without control characters. -/
def Printable (cs : List Char) : Prop := ∀ c ∈ cs, 0x20 ≤ c.toNat

/-- Whether a text has control characters can be decided. -/
theorem Printable.of_all {cs : List Char} (h : cs.all (0x20 ≤ ·.toNat) = true) :
    Printable cs := fun c hc => by simpa using List.all_eq_true.mp h c hc

/-- Neither have the bytes that encode it. -/
theorem Printable.le_of_mem {cs : List Char} (h : Printable cs) {b : UInt8}
    (hb : b ∈ cs.flatMap String.utf8EncodeChar) : 0x20 ≤ b := by
  obtain ⟨c, hc, hb⟩ := List.mem_flatMap.mp hb
  by_cases ha : c.toNat < 128
  · have hall := forall_ascii
      (P := fun c => 0x20 ≤ c.toNat → (String.utf8EncodeChar c).all (0x20 ≤ ·) = true)
      (by decide) ha (h c hc)
    simpa using List.all_eq_true.mp hall b hb
  · exact UInt8.le_trans (by decide) (le_of_mem_utf8EncodeChar (by omega) hb)

/-- No control character is left in a string. -/
theorem printable_quoteText (s : String) : Printable (quoteText s) := by
  intro c hc
  simp only [quoteText, List.cons_append, List.mem_cons, List.mem_append, List.mem_flatMap,
    List.not_mem_nil, or_false] at hc
  rcases hc with rfl | ⟨d, -, hd⟩ | rfl
  · decide
  · exact printable_escapeChar hd
  · decide

/-- Two texts without control characters, one after the other. -/
theorem Printable.append {cs ds : List Char} (hc : Printable cs) (hd : Printable ds) :
    Printable (cs ++ ds) := fun c h => (List.mem_append.mp h).elim (hc c) (hd c)

/-- One more character that is no control character. -/
theorem Printable.cons {c : Char} {cs : List Char} (hc : 0x20 ≤ c.toNat) (hs : Printable cs) :
    Printable (c :: cs) := fun d h => (List.mem_cons.mp h).elim (fun h => h ▸ hc) (hs d)

mutual

/-- **The text of a value has no control characters**: it is one line. -/
theorem printable_text : ∀ v : Json, v.Numeric → Printable (text v)
  | .null, _ | .bool true, _ | .bool false, _ => Printable.of_all (by decide)
  | .int _, _ => fun _ hc => printable_of_isNumberChar (isNumberChar_toString hc)
  | .float _, h => fun c hc => printable_of_isNumberChar (h c hc)
  | .str s, _ => printable_quoteText s
  | .arr items, h => (Printable.cons (by decide) (printable_textItems items h)).append
      (.cons (by decide) (by simp [Printable]))
  | .obj members, h => (Printable.cons (by decide) (printable_textMembers members h)).append
      (.cons (by decide) (by simp [Printable]))

/-- The same of the items of an array. -/
theorem printable_textItems : ∀ items : List Json, NumericItems items →
    Printable (textItems items)
  | [], _ => by simp [Printable, textItems]
  | [item], h => by simpa only [textItems] using printable_text item h.1
  | item :: next :: rest, h => by
    rw [textItems]
    · exact (printable_text item h.1).append
        (.cons (by decide) (printable_textItems (next :: rest) h.2))
    · simp

/-- The same of the members of an object. -/
theorem printable_textMembers : ∀ members : List (String × Json), NumericMembers members →
    Printable (textMembers members)
  | [], _ => by simp [Printable, textMembers]
  | [(key, value)], h => by
    rw [textMembers]
    exact (printable_quoteText key).append (.cons (by decide) (printable_text value h.1))
  | (key, value) :: next :: rest, h => by
    rw [textMembers]
    · exact ((printable_quoteText key).append (.cons (by decide) (printable_text value h.1))).append
        (.cons (by decide) (printable_textMembers (next :: rest) h.2))
    · simp

end

end Json

end Layad
