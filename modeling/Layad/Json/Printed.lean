import Layad.Json.Unambiguous
import Layad.Python.Loads

namespace Layad

/-!
# What the daemon prints

A value that was read from a text is well formed: its floats print as literals and its
objects have one member a key, in key order.  `serde_json` prints it as the text of a
document (`Document.spells_compact`), the one it was read from with the members of every
object in key order and the numbers as they were read (`Document.ofJson_toJson`).
-/

namespace Json

mutual

/-- Floats are literals, objects are sorted. -/
def WellFormed : Json → Prop
  | .float text => IsReal text
  | .arr items => WellFormedItems items
  | .obj members => Sorted members ∧ WellFormedMembers members
  | .null | .bool _ | .int _ | .str _ => True

/-- The items of an array. -/
def WellFormedItems : List Json → Prop
  | [] => True
  | item :: rest => item.WellFormed ∧ WellFormedItems rest

/-- The members of an object. -/
def WellFormedMembers : List (String × Json) → Prop
  | [] => True
  | (_, value) :: rest => value.WellFormed ∧ WellFormedMembers rest

end

/-- Members are well formed if their values are. -/
theorem wellFormedMembers_iff {members : List (String × Json)} :
    WellFormedMembers members ↔ ∀ m ∈ members, m.2.WellFormed := by
  induction members with
  | nil => simp [WellFormedMembers]
  | cons m rest ih => simp [WellFormedMembers, ih]

/-- Sorted members have different keys. -/
theorem Sorted.nodup {members : List (String × Json)} (h : Sorted members) :
    (keys members).Nodup := by
  refine List.Pairwise.imp (fun {a b} hlt => ?_) h
  rintro rfl
  exact String.lt_irrefl a hlt

mutual

/-- Real literals are number tokens. -/
theorem WellFormed.numeric : ∀ {v : Json}, v.WellFormed → v.Numeric
  | .float _, h => h.isNumberChar
  | .arr items, h => WellFormedItems.numeric (show WellFormedItems items from h)
  | .obj members, h => WellFormedMembers.numeric (show WellFormedMembers members from h.2)
  | .null, _ | .bool _, _ | .int _, _ | .str _, _ => trivial

/-- The same of items. -/
theorem WellFormedItems.numeric : ∀ {items : List Json}, WellFormedItems items →
    NumericItems items
  | [], _ => trivial
  | _ :: _, h => ⟨WellFormed.numeric h.1, WellFormedItems.numeric h.2⟩

/-- The same of members. -/
theorem WellFormedMembers.numeric : ∀ {members : List (String × Json)},
    WellFormedMembers members → NumericMembers members
  | [], _ => trivial
  | _ :: _, h => ⟨WellFormed.numeric h.1, WellFormedMembers.numeric h.2⟩

end

end Json

namespace Document

mutual

/-- The document a value is printed as. -/
def ofJson : Json → Document
  | .null => .null
  | .bool b => .bool b
  | .int i => .int i
  | .float text => .real text
  | .str s => .str s
  | .arr items => .arr (ofJsonItems items)
  | .obj members => .obj (ofJsonMembers members)

/-- The items of an array. -/
def ofJsonItems : List Json → List Document
  | [] => []
  | item :: rest => ofJson item :: ofJsonItems rest

/-- The members of an object. -/
def ofJsonMembers : List (String × Json) → List (String × Document)
  | [] => []
  | (key, value) :: rest => (key, ofJson value) :: ofJsonMembers rest

end

/-! ### The text -/

mutual

/-- **The printed text is one of the document.** -/
theorem spells_compact : ∀ {v : Json}, v.WellFormed → (ofJson v).Spells (Json.compact v)
  | .null, _ | .bool true, _ | .bool false, _ | .int _, _ => rfl
  | .float _, h => ⟨h, rfl⟩
  | .str s, _ => .quote s
  | .arr items, h => ⟨_, rfl, spells_compactItems (show Json.WellFormedItems items from h)⟩
  | .obj members, h => 
    ⟨_, rfl, spells_compactMembers (show Json.WellFormedMembers members from h.2)⟩

/-- The same of the items of an array. -/
theorem spells_compactItems : ∀ {items : List Json}, Json.WellFormedItems items →
    SpellsItems (ofJsonItems items) (Json.compactItems items)
  | [], _ => fun _ hb => absurd hb List.not_mem_nil
  | [_], h => .bare (spells_compact h.1)
  | _ :: _ :: _, h => ⟨_, _, rfl, .bare (spells_compact h.1), spells_compactItems h.2⟩

/-- The same of the members of an object. -/
theorem spells_compactMembers : ∀ {members : List (String × Json)},
    Json.WellFormedMembers members →
    SpellsMembers (ofJsonMembers members) (Json.compactMembers members)
  | [], _ => fun _ hb => absurd hb List.not_mem_nil
  | [(key, _)], h => ⟨_, _, rfl, .bare (.quote key), .bare (spells_compact h.1)⟩
  | (key, _) :: _ :: _, h =>
    ⟨_, _, _, rfl, .bare (.quote key), .bare (spells_compact h.1), spells_compactMembers h.2⟩

end

/-! ### What is read back -/

/-- The document of members is made of their documents. -/
theorem ofJsonMembers_eq (members : List (String × Json)) :
    ofJsonMembers members = members.map fun m => (m.1, ofJson m.2) := by
  induction members with
  | nil => rfl
  | cons m rest ih => rw [ofJsonMembers, ih, List.map_cons]

/-- A document has the keys of its value. -/
theorem keys_ofJsonMembers (members : List (String × Json)) :
    Json.keys (ofJsonMembers members) = Json.keys members := by
  rw [ofJsonMembers_eq, Json.keys, List.map_map]
  rfl

end Document

namespace PyVal

/-- A new key is put at the end of a dict. -/
theorem setItem_of_not_mem {key : PyStr} {value : PyVal} {dict : List (PyStr × PyVal)}
    (h : key ∉ dict.map Prod.fst) : setItem key value dict = dict ++ [(key, value)] := by
  induction dict with
  | nil => rfl
  | cons m rest ih =>
    rw [List.map_cons, List.mem_cons, not_or] at h
    rw [setItem, if_neg (fun he => h.1 he.symm), ih h.2]
    rfl

/-- Distinct pairs are the dict they make. -/
theorem ofPairs_of_nodup {pairs : List (PyStr × PyVal)} (h : (pairs.map Prod.fst).Nodup) :
    ofPairs pairs = pairs := by
  have hfold : ∀ dict : List (PyStr × PyVal), (∀ k ∈ pairs.map Prod.fst, k ∉ dict.map Prod.fst) →
      pairs.foldl (fun dict m => setItem m.1 m.2 dict) dict = dict ++ pairs := by
    induction pairs with
    | nil => exact fun dict _ => (List.append_nil dict).symm
    | cons m rest ih =>
      intro dict hnew
      obtain ⟨hm, hrest⟩ := List.nodup_cons.mp h
      have hset : setItem m.1 m.2 dict = dict ++ [m] :=
        setItem_of_not_mem (hnew m.1 List.mem_cons_self)
      rw [List.foldl_cons, hset, ih hrest]
      · rw [List.append_assoc, List.singleton_append]
      · intro k hk hin
        rw [List.map_append, List.mem_append] at hin
        rcases hin with hin | hin
        · exact hnew k (List.mem_cons_of_mem _ hk) hin
        · exact hm (List.mem_singleton.mp hin ▸ hk)
  exact hfold [] fun _ _ => List.not_mem_nil

end PyVal

namespace Document

variable {parseFloat : String → PyFloat}

/-- Python's members have the keys of the document. -/
theorem keys_toPyMembers (members : List (String × Document)) :
    (toPyMembers parseFloat members).map Prod.fst = (Json.keys members).map PyStr.ofString := by
  induction members with
  | nil => rfl
  | cons m rest ih => rw [toPyMembers, List.map_cons, ih, Json.keys, Json.keys, List.map_cons,
      List.map_cons]

/-- Without duplicates a dict is made of all members, in their order. -/
theorem ofPairs_toPyMembers {members : List (String × Document)}
    (h : (Json.keys members).Nodup) :
    PyVal.ofPairs (toPyMembers parseFloat members) = toPyMembers parseFloat members := by
  refine PyVal.ofPairs_of_nodup ?_
  rw [keys_toPyMembers]
  exact h.map PyStr.ofString_injective

mutual

/-- Python reads the printed value. -/
theorem toPy_ofJson : ∀ {v : Json}, v.WellFormed →
    (ofJson v).toPy parseFloat = v.toPy parseFloat
  | .null, _ | .bool _, _ | .int _, _ | .float _, _ | .str _, _ => rfl
  | .arr items, h => by
    rw [ofJson, toPy, Json.toPy, toPyItems_ofJson (show Json.WellFormedItems items from h)]
  | .obj members, h => by
    rw [ofJson, toPy, Json.toPy, ofPairs_toPyMembers (by rw [keys_ofJsonMembers]; exact h.1.nodup),
      toPyMembers_ofJson h.2]

/-- The same of items. -/
theorem toPyItems_ofJson : ∀ {items : List Json}, Json.WellFormedItems items →
    toPyItems parseFloat (ofJsonItems items) = Json.toPyItems parseFloat items
  | [], _ => rfl
  | _ :: _, h => by
    rw [ofJsonItems, toPyItems, Json.toPyItems, toPy_ofJson h.1, toPyItems_ofJson h.2]

/-- The same of members. -/
theorem toPyMembers_ofJson : ∀ {members : List (String × Json)},
    Json.WellFormedMembers members →
    toPyMembers parseFloat (ofJsonMembers members) = Json.toPyMembers parseFloat members
  | [], _ => rfl
  | _ :: _, h => by
    rw [ofJsonMembers, toPyMembers, Json.toPyMembers, toPy_ofJson h.1, toPyMembers_ofJson h.2]

end

/-! ### What a text is passed on as -/

/-- The order of members. -/
def ByKey (a b : String × Document) : Prop := a.1 ≤ b.1

instance : DecidableRel ByKey := fun a b => inferInstanceAs (Decidable (a.1 ≤ b.1))

instance : Std.Total ByKey := ⟨fun a b => String.le_total a.1 b.1⟩

instance : IsTrans (String × Document) ByKey := ⟨fun _ _ _ => String.le_trans⟩

/-- The literal `serde_json` prints for the float it reads a literal as. -/
def printed (f64Text : String → Option String) (literal : String) : String :=
  (f64Text literal).getD literal

mutual

/-- A document once it was read and printed: the members of every object in key order, and a
    number that does not fit 64 bits, `-0` or a real as the float it was read as. -/
def asForwarded (f64Text : String → Option String) : Document → Document
  | .null => .null
  | .bool b => .bool b
  | .int i =>
    if -2 ^ 63 ≤ i ∧ i < 2 ^ 64 then .int i else .real (printed f64Text (toString i))
  | .negZero => .real (printed f64Text "-0")
  | .real literal => .real (printed f64Text literal)
  | .str s => .str s
  | .arr items => .arr (itemsAsForwarded f64Text items)
  | .obj members => .obj ((membersAsForwarded f64Text members).insertionSort ByKey)

/-- The items of an array. -/
def itemsAsForwarded (f64Text : String → Option String) : List Document → List Document
  | [] => []
  | item :: rest => item.asForwarded f64Text :: itemsAsForwarded f64Text rest

/-- The members of an object, as they come. -/
def membersAsForwarded (f64Text : String → Option String) :
    List (String × Document) → List (String × Document)
  | [] => []
  | (key, value) :: rest => (key, value.asForwarded f64Text) :: membersAsForwarded f64Text rest

/-- No object has two members of one key. -/
def Distinct : Document → Prop
  | .arr items => DistinctItems items
  | .obj members => (Json.keys members).Nodup ∧ DistinctMembers members
  | .null | .bool _ | .int _ | .negZero | .real _ | .str _ => True

/-- The items of an array. -/
def DistinctItems : List Document → Prop
  | [] => True
  | item :: rest => item.Distinct ∧ DistinctItems rest

/-- The members of an object. -/
def DistinctMembers : List (String × Document) → Prop
  | [] => True
  | (_, value) :: rest => value.Distinct ∧ DistinctMembers rest

end

variable {f64Text : String → Option String}

/-- What a float is printed as is a real literal. -/
theorem ofJson_float {literal : String} {v : Json}
    (h : (f64Text literal).map Json.float = some v) :
    ofJson v = .real (printed f64Text literal) := by
  obtain ⟨text, ht, rfl⟩ := Option.map_eq_some_iff.mp h
  rw [ofJson, printed, ht, Option.getD_some]

/-- Sorted members and the map of the members are the same list. -/
theorem ofJsonMembers_toMap {members : List (String × Json)} (h : (Json.keys members).Nodup) :
    ofJsonMembers (Json.toMap members) = (ofJsonMembers members).insertionSort ByKey := by
  have hperm : (ofJsonMembers (Json.toMap members)).Perm
      ((ofJsonMembers members).insertionSort ByKey) := by
    refine List.Perm.trans ?_ (List.perm_insertionSort ByKey _).symm
    rw [ofJsonMembers_eq, ofJsonMembers_eq]
    exact (Json.perm_toMap h).map _
  have hkeys : (Json.keys (ofJsonMembers (Json.toMap members))).Nodup := by
    rw [keys_ofJsonMembers]
    exact (Json.sorted_toMap members).nodup
  have hsorted : (ofJsonMembers (Json.toMap members)).Pairwise ByKey := by
    have hlt := Json.sorted_toMap members
    rw [Json.Sorted, ← keys_ofJsonMembers, Json.keys, List.pairwise_map] at hlt
    exact hlt.imp fun {a b} hab => (String.le_total a.1 b.1).resolve_right (String.not_le.mpr hab)
  refine hperm.eq_of_pairwise ?_ hsorted (List.pairwise_insertionSort ByKey _)
  intro a b ha hb hab hba
  -- a key has one member
  have hkey : a.1 = b.1 := String.le_antisymm hab hba
  exact List.inj_on_of_nodup_map hkeys ha (hperm.mem_iff.mpr hb) hkey

mutual

/-- **What is read and printed again**, where no object has two members of one key. -/
theorem ofJson_toJson : ∀ {d : Document} {v : Json}, d.Distinct → d.toJson f64Text = some v →
    ofJson v = d.asForwarded f64Text
  | .null, v, _, hv | .bool _, v, _, hv | .str _, v, _, hv => by
    cases hv
    rfl
  | .int i, v, _, hv => by
    rw [toJson] at hv
    rw [asForwarded]
    split at hv
    · rename_i hrange
      cases hv
      rw [if_pos hrange]
      rfl
    · rename_i hrange
      rw [if_neg hrange, ofJson_float hv]
  | .negZero, v, _, hv | .real _, v, _, hv => ofJson_float hv
  | .arr items, v, hd, hv => by
    obtain ⟨values, hvs, rfl⟩ := Option.map_eq_some_iff.mp hv
    rw [ofJson, asForwarded, ofJsonItems_toJson (show DistinctItems items from hd) hvs]
  | .obj members, v, hd, hv => by
    obtain ⟨values, hvs, rfl⟩ := Option.map_eq_some_iff.mp hv
    obtain ⟨hmembers, hkeys⟩ := ofJsonMembers_toJson hd.2 hvs
    rw [ofJson, asForwarded, ofJsonMembers_toMap (hkeys ▸ hd.1), hmembers]

/-- The same of items. -/
theorem ofJsonItems_toJson : ∀ {items : List Document} {values : List Json},
    DistinctItems items → itemsToJson f64Text items = some values →
    ofJsonItems values = itemsAsForwarded f64Text items
  | [], values, _, hv => by
    cases hv
    rfl
  | item :: rest, values, hd, hv => by
    obtain ⟨value, others, hitem, hrest, rfl⟩ := itemsToJson_cons.mp hv
    rw [ofJsonItems, itemsAsForwarded, ofJson_toJson hd.1 hitem, ofJsonItems_toJson hd.2 hrest]

/-- The same of members, which keep their keys. -/
theorem ofJsonMembers_toJson : ∀ {members : List (String × Document)}
    {values : List (String × Json)}, DistinctMembers members →
    membersToJson f64Text members = some values →
    ofJsonMembers values = membersAsForwarded f64Text members ∧
      Json.keys values = Json.keys members
  | [], values, _, hv => by
    cases hv
    exact ⟨rfl, rfl⟩
  | (key, document) :: rest, values, hd, hv => by
    obtain ⟨value, others, hdoc, hrest, rfl⟩ := membersToJson_cons.mp hv
    obtain ⟨hmembers, hkeys⟩ := ofJsonMembers_toJson hd.2 hrest
    constructor
    · rw [ofJsonMembers, membersAsForwarded, ofJson_toJson hd.1 hdoc, hmembers]
    · rw [Json.keys, List.map_cons, Json.keys, List.map_cons]
      exact congrArg (key :: ·) hkeys

end

mutual

/-- What is read is well formed. -/
theorem wellFormed_toJson (hreal : ∀ literal text, f64Text literal = some text → IsReal text) :
    ∀ {d : Document} {v : Json}, d.toJson f64Text = some v → v.WellFormed
  | .null, v, hv | .bool _, v, hv | .str _, v, hv => by
    cases hv
    trivial
  | .int i, v, hv => by
    rw [toJson] at hv
    split at hv
    · cases hv
      trivial
    · obtain ⟨text, ht, rfl⟩ := Option.map_eq_some_iff.mp hv
      exact hreal _ _ ht
  | .negZero, v, hv | .real _, v, hv => by
    obtain ⟨text, ht, rfl⟩ := Option.map_eq_some_iff.mp hv
    exact hreal _ _ ht
  | .arr items, v, hv => by
    obtain ⟨values, hvs, rfl⟩ := Option.map_eq_some_iff.mp hv
    exact wellFormedItems_toJson hreal hvs
  | .obj members, v, hv => by
    obtain ⟨values, hvs, rfl⟩ := Option.map_eq_some_iff.mp hv
    have hall := Json.wellFormedMembers_iff.mp (wellFormedMembers_toJson hreal hvs)
    exact ⟨Json.sorted_toMap values,
      Json.wellFormedMembers_iff.mpr fun m hm => hall m (Json.mem_toMap hm)⟩

/-- The same of items. -/
theorem wellFormedItems_toJson
    (hreal : ∀ literal text, f64Text literal = some text → IsReal text) :
    ∀ {items : List Document} {values : List Json}, itemsToJson f64Text items = some values →
      Json.WellFormedItems values
  | [], values, hv => by
    cases hv
    trivial
  | item :: rest, values, hv => by
    obtain ⟨value, others, hitem, hrest, rfl⟩ := itemsToJson_cons.mp hv
    exact ⟨wellFormed_toJson hreal hitem, wellFormedItems_toJson hreal hrest⟩

/-- The same of members. -/
theorem wellFormedMembers_toJson
    (hreal : ∀ literal text, f64Text literal = some text → IsReal text) :
    ∀ {members : List (String × Document)} {values : List (String × Json)},
      membersToJson f64Text members = some values → Json.WellFormedMembers values
  | [], values, hv => by
    cases hv
    trivial
  | (key, document) :: rest, values, hv => by
    obtain ⟨value, others, hdoc, hrest, rfl⟩ := membersToJson_cons.mp hv
    exact ⟨wellFormed_toJson hreal hdoc, wellFormedMembers_toJson hreal hrest⟩

end

end Document

end Layad
