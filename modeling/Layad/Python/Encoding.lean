import Layad.Python.Worker

namespace Layad

/-!
# What the protocol stream can carry

The stream is opened as strict UTF-8, and `json.dumps` writes strings with
`ensure_ascii=False`, so a frame with a lone surrogate in it cannot be written: `emit` raises
`UnicodeEncodeError`.  `emit` writes a frame just if `json.dumps` returns on it and every string
in it can be encoded (`Worker.isSome_emit`).
-/

namespace PyStr

/-- No lone surrogate. -/
def Encodable (s : PyStr) : Prop := ∀ n ∈ s, (toChar? n).isSome = true

/-- A concatenation can be encoded if its parts can. -/
theorem encodable_append {s t : PyStr} : Encodable (s ++ t) ↔ s.Encodable ∧ t.Encodable := by
  simp only [Encodable, List.mem_append, or_imp, forall_and]

/-- A code point is no obstacle if it is a character. -/
theorem encodable_cons {n : CodePoint} {s : PyStr} :
    Encodable (n :: s) ↔ (toChar? n).isSome = true ∧ s.Encodable := by
  simp only [Encodable, List.mem_cons, forall_eq_or_imp]

/-- Characters can be encoded. -/
theorem encodable_map (cs : List Char) : Encodable (cs.map ofChar) := by
  intro n hn
  obtain ⟨c, -, rfl⟩ := List.mem_map.mp hn
  rw [toChar?, dif_pos (show (ofChar c).val.isValidChar from c.valid)]
  rfl

/-- A text can be encoded. -/
theorem encodable_ofString (s : String) : Encodable (ofString s) := encodable_map s.toList

/-- Encoding fails on lone surrogates only. -/
theorem isSome_encode (s : PyStr) : s.encode.isSome = true ↔ s.Encodable := by
  rw [encode, Option.isSome_map]
  induction s with
  | nil => exact ⟨fun _ n hn => absurd hn List.not_mem_nil, fun _ => rfl⟩
  | cons n rest ih =>
    rw [encodable_cons, ← ih, List.mapM_cons]
    cases toChar? n with
    | none => simp
    | some c => cases rest.mapM toChar? <;> simp

end PyStr

namespace PyVal

open PyStr (encodable_append encodable_cons encodable_ofString)

mutual

/-- No lone surrogate in any string or key. -/
def Encodable : PyVal → Prop
  | .null | .bool _ | .int _ | .float _ => True
  | .str s => s.Encodable
  | .list items => EncodableItems items
  | .dict members => EncodableMembers members
  | .other replacement => replacement.Encodable

/-- None in the items of a list. -/
def EncodableItems : List PyVal → Prop
  | [] => True
  | item :: rest => item.Encodable ∧ EncodableItems rest

/-- None in the members of a dict. -/
def EncodableMembers : List (PyStr × PyVal) → Prop
  | [] => True
  | (key, value) :: rest => key.Encodable ∧ value.Encodable ∧ EncodableMembers rest

end

/-- Only a lone surrogate is written as it is. -/
theorem encodable_escape (n : CodePoint) :
    (escape n).Encodable ↔ (PyStr.toChar? n).isSome = true := by
  rw [escape]
  cases h : PyStr.toChar? n with
  | some c => exact ⟨fun _ => rfl, fun _ => PyStr.encodable_map _⟩
  | none => simp [PyStr.Encodable, h]

/-- A string can be encoded as a JSON string if it can be at all. -/
theorem encodable_quote (s : PyStr) : (quote s).Encodable ↔ s.Encodable := by
  have hmark : (PyStr.toChar? (PyStr.ofChar '"')).isSome = true := by decide
  have hbody : PyStr.Encodable (s.flatMap escape) ↔ s.Encodable := by
    induction s with
    | nil => exact Iff.rfl
    | cons n rest ih =>
      rw [List.flatMap_cons, encodable_append, encodable_escape, ih, encodable_cons]
  rw [quote, encodable_append, encodable_cons, encodable_cons, hbody]
  simp [hmark, PyStr.Encodable]

/-- A text between two marks. -/
theorem encodable_between {a b : Char} {s : PyStr} :
    PyStr.Encodable (PyStr.ofChar a :: s ++ [PyStr.ofChar b]) ↔ s.Encodable := by
  have ha := PyStr.encodable_map [a]
  have hb := PyStr.encodable_map [b]
  rw [List.map_singleton] at ha hb
  rw [encodable_append, ← List.singleton_append, encodable_append]
  exact ⟨fun h => h.1.2, fun h => ⟨⟨ha, h⟩, hb⟩⟩

mutual

/-- What is written holds a surrogate just if a string of the value does. -/
theorem encodable_dumps : ∀ v : PyVal, (dumps v).Encodable ↔ v.Encodable
  | .null => iff_of_true (encodable_ofString _) trivial
  | .bool true => iff_of_true (encodable_ofString _) trivial
  | .bool false => iff_of_true (encodable_ofString _) trivial
  | .int _ => iff_of_true (encodable_ofString _) trivial
  | .float _ => iff_of_true (encodable_ofString _) trivial
  | .str s => encodable_quote s
  | .list items => by
    rw [dumps, encodable_between, encodable_dumpsItems, Encodable]
  | .dict members => by
    rw [dumps, encodable_between, encodable_dumpsMembers, Encodable]
  | .other replacement => by
    rw [dumps, encodable_dumps, Encodable]

/-- The same of items. -/
theorem encodable_dumpsItems : ∀ items : List PyVal,
    (dumpsItems items).Encodable ↔ EncodableItems items
  | [] => iff_of_true (fun _ hn => absurd hn List.not_mem_nil) trivial
  | [item] => by
    rw [dumpsItems, encodable_dumps, EncodableItems, EncodableItems, and_true]
  | item :: next :: rest => by
    rw [dumpsItems, encodable_append, encodable_append, encodable_dumps,
      encodable_dumpsItems (next :: rest), and_iff_left (encodable_ofString ", ")]
    · exact Iff.rfl
    · exact fun h => nomatch h

/-- The same of members. -/
theorem encodable_dumpsMembers : ∀ members : List (PyStr × PyVal),
    (dumpsMembers members).Encodable ↔ EncodableMembers members
  | [] => iff_of_true (fun _ hn => absurd hn List.not_mem_nil) trivial
  | [(key, value)] => by
    rw [dumpsMembers, encodable_append, encodable_append, encodable_quote, encodable_dumps,
      EncodableMembers, EncodableMembers, and_true, and_iff_left (encodable_ofString ": ")]
  | (key, value) :: next :: rest => by
    rw [dumpsMembers, encodable_append, encodable_append, encodable_append, encodable_append,
      encodable_quote, encodable_dumps, encodable_dumpsMembers (next :: rest),
      and_iff_left (encodable_ofString ": "), and_iff_left (encodable_ofString ", "), and_assoc]
    · exact Iff.rfl
    · exact fun h => nomatch h

end

end PyVal

namespace Worker

/-- `emit` writes the frames on which `json.dumps` returns and that hold no lone surrogate. -/
theorem isSome_emit (py : PyHost) (frame : PyVal) :
    (emit py frame).isSome = true ↔ py.dumpsRaises frame = false ∧ frame.Encodable := by
  rw [emit]
  cases py.dumpsRaises frame with
  | true => simp
  | false =>
    rw [if_neg Bool.false_ne_true, PyStr.isSome_encode, PyStr.encodable_append,
      PyVal.encodable_dumps, and_iff_left (PyStr.encodable_ofString "\n")]
    simp

/-! ### Frames -/

/-- A rejection can be encoded if its id and its message can. -/
theorem encodable_reject {id : PyVal} {code : String} {message : PyStr} :
    (reject id code message).Encodable ↔ id.Encodable ∧ message.Encodable := by
  simp only [reject, dict, List.map_cons, List.map_nil, PyVal.Encodable, PyVal.EncodableMembers,
    PyVal.text, PyStr.encodable_ofString, true_and, and_true]

/-- A fatal frame can be encoded if its id and its message can. -/
theorem encodable_fatal {id : PyVal} {code : String} {message : PyStr} :
    (fatal code message id).Encodable ↔ id.Encodable ∧ message.Encodable := by
  simp only [fatal, dict, List.map_cons, List.map_nil, PyVal.Encodable, PyVal.EncodableMembers,
    PyVal.text, PyStr.encodable_ofString, true_and, and_true]

/-- A reply can be encoded if its id and its result can. -/
theorem encodable_ok {id result : PyVal} :
    (ok id result).Encodable ↔ id.Encodable ∧ result.Encodable := by
  simp only [ok, dict, List.map_cons, List.map_nil, PyVal.Encodable, PyVal.EncodableMembers,
    PyStr.encodable_ofString, true_and, and_true]

end Worker

end Layad
