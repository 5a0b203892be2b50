import Layad.Json.Document
import Mathlib.Algebra.Order.BigOperators.Group.List
import Mathlib.Algebra.Order.Group.Nat

namespace Layad

/-!
# How far a value outgrows its text

`serde_json` drops white space and escapes of the reader's choice, so only numbers are
written longer than they were spelled: `1e15` comes back as `1000000000000000.0`.  If no float
grows by more, counted with a separator, a whole value outgrows its text by as much for each
byte of a number or of the separator after one, and not at all for the others
(`Document.length_compact_le`).
-/

/-! ### Strings -/

/-- An escape of a code unit has six bytes. -/
theorem SpellsUnit.length {n : Nat} {bs : List UInt8} (h : SpellsUnit n bs) : bs.length = 6 := by
  obtain ⟨a, b, c, d, rfl, -⟩ := h
  rfl

/-- What is written for a character takes six bytes at most. -/
theorem length_escapeChar_le (c : Char) :
    ((Json.escapeChar c).flatMap String.utf8EncodeChar).length ≤ 6 := by
  by_cases hc : c.toNat < 128
  · exact forall_ascii
      (P := fun c => ((Json.escapeChar c).flatMap String.utf8EncodeChar).length ≤ 6) (by decide) hc
  · rw [Json.escapeChar, if_neg hc, List.flatMap_singleton, String.length_utf8EncodeChar]
    exact Nat.le_trans c.utf8Size_le_four (by decide)

/-- No character is spelled shorter than it is written. -/
theorem SpellsChar.length_le {c : Char} {bs : List UInt8} (h : SpellsChar c bs) :
    ((Json.escapeChar c).flatMap String.utf8EncodeChar).length ≤ bs.length := by
  cases h with
  | raw h hq hb =>
    exact Nat.le_of_eq (by rw [Json.escapeChar_of_plain h hq hb, List.flatMap_singleton])
  | short h =>
    simp only [shortEscapes, List.mem_cons, Prod.mk.injEq, List.not_mem_nil, or_false] at h
    rcases h with ⟨rfl, rfl⟩ | ⟨rfl, rfl⟩ | ⟨rfl, rfl⟩ | ⟨rfl, rfl⟩ | ⟨rfl, rfl⟩ | ⟨rfl, rfl⟩ |
      ⟨rfl, rfl⟩ | ⟨rfl, rfl⟩
    all_goals decide
  | unit h => exact h.length ▸ length_escapeChar_le c
  | pair _ _ _ h h' =>
    rw [List.length_append, h.length, h'.length]
    exact Nat.le_trans (length_escapeChar_le c) (by decide)

/-- A run of characters is written no longer than it was spelled. -/
theorem SpellsChars.length_le {cs : List Char} {bs : List UInt8} (h : SpellsChars cs bs) :
    ((cs.flatMap Json.escapeChar).flatMap String.utf8EncodeChar).length ≤ bs.length := by
  induction h with
  | nil => exact Nat.le_refl _
  | cons h _ ih =>
    rw [List.flatMap_cons, List.flatMap_append, List.length_append, List.length_append]
    exact Nat.add_le_add h.length_le ih

/-- A string is written no longer than it was spelled. -/
theorem SpellsString.length_le {s : String} {bs : List UInt8} (h : SpellsString s bs) :
    (Json.quote s).length ≤ bs.length := by
  obtain ⟨content, rfl, hc⟩ := h
  have hlen := hc.length_le
  rw [List.flatMap_assoc] at hlen
  simp only [Json.quote, utf8_eq, List.flatMap_assoc, Json.flatMap_escapeByte, List.cons_append,
    List.length_append, List.length_cons]
  omega

/-! ### Objects -/

namespace Json

mutual

/-- Bytes of a value, with the separator after it, that belong to no number and separate
    none. -/
def fixed : Json → Nat
  | .null | .bool _ => 5
  | .int _ | .float _ => 0
  | .str s => (quote s).length + 1
  | .arr items => fixedItems items + 2
  | .obj members => fixedMembers members + 2

/-- Those of the items of an array. -/
def fixedItems : List Json → Nat
  | [] => 0
  | item :: rest => fixed item + fixedItems rest

/-- Those of the members of an object. -/
def fixedMembers : List (String × Json) → Nat
  | [] => 0
  | (key, value) :: rest => (quote key).length + 1 + fixed value + fixedMembers rest

end

/-- What the bound below counts for a member: five for each byte that is written, with the
    colon and a separator, and fourteen more for each that is fixed. -/
def weight (m : String × Json) : Nat :=
  5 * ((quote m.1).length + (compact m.2).length + 2) + 14 * ((quote m.1).length + 1 + fixed m.2)

/-- Setting a member adds no more than it counts. -/
theorem sum_insert_le (f : String × Json → Nat) (key : String) (value : Json)
    (members : List (String × Json)) :
    ((insert key value members).map f).sum ≤ f (key, value) + (members.map f).sum := by
  induction members with
  | nil => exact Nat.le_refl _
  | cons m rest ih =>
    obtain ⟨k, v⟩ := m
    simp only [insert, List.map_cons, List.sum_cons]
    split
    · simp
    · split
      · simp only [List.map_cons, List.sum_cons]
        omega
      · simp only [List.map_cons, List.sum_cons]
        omega

/-- Sorting the members and dropping all but the last of a key adds nothing. -/
theorem sum_toMap_le (f : String × Json → Nat) (members : List (String × Json)) :
    ((toMap members).map f).sum ≤ (members.map f).sum := by
  have hfold : ∀ map : List (String × Json),
      ((members.foldl (fun map m => insert m.1 m.2 map) map).map f).sum ≤
        (map.map f).sum + (members.map f).sum := by
    induction members with
    | nil => exact fun map => Nat.le_refl _
    | cons m rest ih =>
      obtain ⟨key, value⟩ := m
      intro map
      have hi := sum_insert_le f key value map
      have hr := ih (insert key value map)
      simp only [List.foldl_cons, List.map_cons, List.sum_cons] at hi hr ⊢
      omega
  simpa [toMap] using hfold []

/-- The weights of members are what is written and what is fixed of them. -/
theorem sum_weight {members : List (String × Json)} (hne : members ≠ []) :
    (members.map weight).sum =
      5 * ((compactMembers members).length + 1) + 14 * fixedMembers members := by
  induction members with
  | nil => exact absurd rfl hne
  | cons m rest ih =>
    obtain ⟨key, value⟩ := m
    cases rest with
    | nil =>
      simp only [compactMembers, fixedMembers, weight, List.map_cons, List.map_nil, List.sum_cons,
        List.sum_nil, List.length_append, List.length_cons]
      omega
    | cons next rest =>
      have hkeep : compactMembers ((key, value) :: next :: rest) =
          quote key ++ 0x3a :: compact value ++ 0x2c :: compactMembers (next :: rest) := rfl
      have hfixed : fixedMembers ((key, value) :: next :: rest) =
          (quote key).length + 1 + fixed value + fixedMembers (next :: rest) := rfl
      rw [List.map_cons, List.sum_cons, ih (List.cons_ne_nil _ _), hkeep, hfixed]
      simp only [weight, List.length_append, List.length_cons]
      omega

/-- An object, by the weights of its members. -/
theorem length_compact_obj_le (members : List (String × Json)) {n : Nat}
    (h : (members.map weight).sum ≤ 19 * (n + 1)) :
    5 * ((compact (.obj members)).length + 1) + 14 * fixed (.obj members) ≤ 19 * (n + 2 + 1) := by
  simp only [compact, fixed, List.length_append, List.length_cons, List.length_nil]
  by_cases hne : members = []
  · subst hne
    simp only [compactMembers, fixedMembers, List.length_nil]
    omega
  · rw [sum_weight hne] at h
    omega

end Json

/-! ### Documents -/

/-- A float is written at most `19 / 5` times as long as it was spelled, both counted with a
    separator, which is what becomes of `1e15`. -/
def Grows (f64Text : String → Option String) : Prop :=
  ∀ literal text, f64Text literal = some text →
    5 * ((utf8 text).length + 1) ≤ 19 * ((utf8 literal).length + 1)

/-- White space adds to a text. -/
theorem Padded.length_le {text : List UInt8 → Prop} {bs : List UInt8} (h : Padded text bs) :
    ∃ mid, text mid ∧ mid.length ≤ bs.length := by
  obtain ⟨pre, mid, post, rfl, -, hmid, -⟩ := h
  exact ⟨mid, hmid, by simp only [List.length_append]; omega⟩

namespace Document

variable {f64Text : String → Option String}

/-- A number is written as it was spelled, or as a float. -/
theorem length_number_le (hf : Grows f64Text) {literal : String} {v : Json}
    (h : (f64Text literal).map Json.float = some v) :
    5 * ((Json.compact v).length + 1) + 14 * Json.fixed v ≤ 19 * ((utf8 literal).length + 1) := by
  obtain ⟨text, ht, rfl⟩ := Option.map_eq_some_iff.mp h
  exact hf _ _ ht

mutual

/-- **How long a value is written**, counted with a separator: at most `19 / 5` times as long as
    its text, and of a fixed byte no more than one. -/
theorem length_compact_le (hf : Grows f64Text) : ∀ (d : Document) {bs : List UInt8} {v : Json},
    d.Spells bs → d.toJson f64Text = some v →
    5 * ((Json.compact v).length + 1) + 14 * Json.fixed v ≤ 19 * (bs.length + 1)
  | .null, bs, v, hs, hv | .bool true, bs, v, hs, hv | .bool false, bs, v, hs, hv => by
    cases hs
    cases hv
    decide
  -- an integer of 64 bits is printed as it stands, and any other as a float
  | .int i, bs, v, hs, hv => by
    cases hs
    rw [toJson] at hv
    split at hv
    · cases hv
      rw [Json.compact, Json.fixed]
      omega
    · exact length_number_le hf hv
  | .negZero, bs, v, hs, hv => by
    cases hs
    exact length_number_le hf hv
  | .real literal, bs, v, hs, hv => by
    obtain ⟨-, rfl⟩ := hs
    exact length_number_le hf hv
  -- a string is printed no longer than it was written
  | .str s, bs, v, hs, hv => by
    cases hv
    have := SpellsString.length_le hs
    rw [Json.compact, Json.fixed]
    omega
  -- the brackets are fixed, and the items have their own bound
  | .arr items, bs, v, hs, hv => by
    obtain ⟨content, rfl, hc⟩ := hs
    obtain ⟨values, hvs, rfl⟩ := Option.map_eq_some_iff.mp hv
    have := length_compactItems_le hf items hc hvs
    simp only [Json.compact, Json.fixed, List.length_append, List.length_cons, List.length_nil]
    omega
  | .obj members, bs, v, hs, hv => by
    obtain ⟨content, rfl, hc⟩ := hs
    obtain ⟨values, hvs, rfl⟩ := Option.map_eq_some_iff.mp hv
    have hweight := Nat.le_trans (Json.sum_toMap_le Json.weight values)
      (sum_weight_le hf members hc hvs)
    have hlen : (0x7b :: content ++ [0x7d]).length = content.length + 2 := by simp
    rw [hlen]
    exact Json.length_compact_obj_le _ hweight

/-- The same of the items of an array, with a separator after the last. -/
theorem length_compactItems_le (hf : Grows f64Text) : ∀ (items : List Document)
    {bs : List UInt8} {values : List Json},
    SpellsItems items bs → itemsToJson f64Text items = some values →
    5 * ((Json.compactItems values).length + 1) + 14 * Json.fixedItems values ≤
      19 * (bs.length + 1)
  | [], bs, values, _, hv => by
    cases hv
    simp only [Json.compactItems, Json.fixedItems, List.length_nil]
    omega
  | [item], bs, values, hs, hv => by
    obtain ⟨mid, hmid, hlen⟩ := Padded.length_le hs
    obtain ⟨value, others, hitem, ⟨⟩, rfl⟩ := itemsToJson_cons.mp hv
    have := length_compact_le hf item hmid hitem
    rw [Json.compactItems, Json.fixedItems, Json.fixedItems]
    omega
  | item :: next :: rest, bs, values, hs, hv => by
    obtain ⟨first, others, rfl, hfirst, hothers⟩ := hs
    obtain ⟨mid, hmid, hlen⟩ := hfirst.length_le
    obtain ⟨value, values, hitem, hrest, rfl⟩ := itemsToJson_cons.mp hv
    have h1 := length_compact_le hf item hmid hitem
    have h2 := length_compactItems_le hf (next :: rest) hothers hrest
    obtain ⟨value', values, -, -, rfl⟩ := itemsToJson_cons.mp hrest
    simp only [Json.compactItems, Json.fixedItems, List.length_append, List.length_cons] at h2 ⊢
    omega

/-- Members of a text weigh no more than it. -/
theorem sum_weight_le (hf : Grows f64Text) : ∀ (members : List (String × Document))
    {bs : List UInt8} {values : List (String × Json)},
    SpellsMembers members bs → membersToJson f64Text members = some values →
    (values.map Json.weight).sum ≤ 19 * (bs.length + 1)
  | [], bs, values, _, hv => by
    cases hv
    exact Nat.zero_le _
  -- the last member has no comma after it
  | [(key, document)], bs, values, hs, hv => by
    obtain ⟨name, text, rfl, hname, htext⟩ := hs
    obtain ⟨name', hname', hn⟩ := hname.length_le
    obtain ⟨mid, hmid, hlen⟩ := htext.length_le
    obtain ⟨value, others, hdoc, ⟨⟩, rfl⟩ := membersToJson_cons.mp hv
    have h1 := hname'.length_le
    have h2 := length_compact_le hf document hmid hdoc
    simp only [Json.weight, List.map_cons, List.map_nil, List.sum_cons, List.sum_nil,
      List.length_append, List.length_cons]
    omega
  -- any other member pays for its comma
  | (key, document) :: next :: rest, bs, values, hs, hv => by
    obtain ⟨name, text, others, rfl, hname, htext, hothers⟩ := hs
    obtain ⟨name', hname', hn⟩ := hname.length_le
    obtain ⟨mid, hmid, hlen⟩ := htext.length_le
    obtain ⟨value, values, hdoc, hrest, rfl⟩ := membersToJson_cons.mp hv
    have h1 := hname'.length_le
    have h2 := length_compact_le hf document hmid hdoc
    have h3 := sum_weight_le hf (next :: rest) hothers hrest
    simp only [Json.weight, List.map_cons, List.sum_cons, List.length_append,
      List.length_cons] at h3 ⊢
    omega

end

end Document

end Layad
