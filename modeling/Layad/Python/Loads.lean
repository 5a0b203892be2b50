import Layad.Json.Document
import Layad.Json.Map
import Layad.Python.Value
import Mathlib.Data.List.DropRight

namespace Layad

/-!
# What Python reads a JSON text as

`json.loads` keeps integers of any size and the members of an object in their order; a
member that is repeated keeps its first place and takes its last value.  `Document.toPy` is
its value of a text, `Json.toPy` that of a value the daemon has printed.  A float literal is
read by a parameter.
-/

namespace PyStr

/-- Different characters have different code points. -/
theorem ofChar_injective : Function.Injective ofChar := fun _ _ h =>
  Char.toNat_inj.mp (Fin.mk.inj h)

/-- Different texts are different in Python. -/
theorem ofString_injective : Function.Injective ofString := fun _ _ h =>
  String.toList_injective (ofChar_injective.list_map h)

/-- Texts are equal in Python if they are equal. -/
theorem ofString_inj {a b : String} : ofString a = ofString b ↔ a = b :=
  ofString_injective.eq_iff

/-- Nothing is left just of a blank string. -/
theorem strip_isEmpty (s : PyStr) : s.strip.isEmpty = true ↔ ∀ n ∈ s, isSpace n = true := by
  rw [strip, List.isEmpty_reverse, List.isEmpty_iff, List.dropWhile_eq_nil_iff]
  constructor
  · intro h
    have hrest : (s.dropWhile isSpace).dropWhile isSpace = [] :=
      List.dropWhile_eq_nil_iff.mpr fun n hn => h n (List.mem_reverse.mpr hn)
    rw [List.dropWhile_idempotent] at hrest
    exact List.dropWhile_eq_nil_iff.mp hrest
  · intro h n hn
    exact h n (List.dropWhile_subset _ (List.mem_reverse.mp hn))

end PyStr

namespace PyVal

/-- `dict[key] = value` on the members in their order. -/
def setItem (key : PyStr) (value : PyVal) : List (PyStr × PyVal) → List (PyStr × PyVal)
  | [] => [(key, value)]
  | (k, v) :: rest => if k = key then (k, value) :: rest else (k, v) :: setItem key value rest

/-- The dict of some pairs. -/
def ofPairs (pairs : List (PyStr × PyVal)) : List (PyStr × PyVal) :=
  pairs.foldl (fun dict (key, value) => setItem key value dict) []

end PyVal

/-! ### Texts -/

namespace Document

mutual

/-- `json.loads` of a document. -/
def toPy (parseFloat : String → PyFloat) : Document → PyVal
  | .null => .null
  | .bool b => .bool b
  | .int i => .int i
  | .negZero => .int 0
  | .real literal => .float (parseFloat literal)
  | .str s => .str (.ofString s)
  | .arr items => .list (toPyItems parseFloat items)
  | .obj members => .dict (PyVal.ofPairs (toPyMembers parseFloat members))

/-- The items of an array. -/
def toPyItems (parseFloat : String → PyFloat) : List Document → List PyVal
  | [] => []
  | item :: rest => item.toPy parseFloat :: toPyItems parseFloat rest

/-- The members of an object, as they come. -/
def toPyMembers (parseFloat : String → PyFloat) : List (String × Document) → List (PyStr × PyVal)
  | [] => []
  | (key, value) :: rest => (.ofString key, value.toPy parseFloat) :: toPyMembers parseFloat rest

end

end Document

/-! ### Values the daemon has printed -/

namespace Json

mutual

/-- The value the worker reads where the daemon has printed this one. -/
def toPy (parseFloat : String → PyFloat) : Json → PyVal
  | .null => .null
  | .bool b => .bool b
  | .int i => .int i
  | .float text => .float (parseFloat text)
  | .str s => .str (.ofString s)
  | .arr items => .list (toPyItems parseFloat items)
  | .obj members => .dict (toPyMembers parseFloat members)

/-- The items of an array. -/
def toPyItems (parseFloat : String → PyFloat) : List Json → List PyVal
  | [] => []
  | item :: rest => item.toPy parseFloat :: toPyItems parseFloat rest

/-- The members of an object. -/
def toPyMembers (parseFloat : String → PyFloat) : List (String × Json) → List (PyStr × PyVal)
  | [] => []
  | (key, value) :: rest => (.ofString key, value.toPy parseFloat) :: toPyMembers parseFloat rest

end

variable (parseFloat : String → PyFloat)

/-- A dict is empty if the object is. -/
theorem isEmpty_toPyMembers (members : List (String × Json)) :
    (toPyMembers parseFloat members).isEmpty = members.isEmpty := by
  cases members <;> rfl

/-- A list is empty if the array is. -/
theorem isEmpty_toPyItems (items : List Json) :
    (toPyItems parseFloat items).isEmpty = items.isEmpty := by
  cases items <;> rfl

/-- A member is found under its key. -/
theorem lookup_toPyMembers (members : List (String × Json)) (key : String) :
    (toPyMembers parseFloat members).lookup (.ofString key) =
      (members.lookup key).map (toPy parseFloat) := by
  induction members with
  | nil => rfl
  | cons m rest ih =>
    obtain ⟨k, v⟩ := m
    rw [toPyMembers, List.lookup_cons, lookup_cons]
    by_cases h : key = k
    · rw [if_pos h, h, beq_self_eq_true]
      rfl
    · rw [if_neg h, beq_false_of_ne (PyStr.ofString_injective.ne h)]
      exact ih

/-- A key has the same value in the dict and in the object. -/
theorem get_toPyMembers (members : List (String × Json)) (key : String) :
    PyVal.get (toPyMembers parseFloat members) key =
      ((members.lookup key).map (toPy parseFloat)).getD .null := by
  rw [PyVal.get, lookup_toPyMembers]

/-- A key is in the dict if it is in the object. -/
theorem contains_toPyMembers (members : List (String × Json)) (key : String) :
    PyVal.contains (toPyMembers parseFloat members) key = (members.lookup key).isSome := by
  rw [PyVal.contains, lookup_toPyMembers, Option.isSome_map]

/-- A string stays the text it is. -/
theorem isText_toPy (s t : String) :
    (toPy parseFloat (.str s)).isText t = decide (s = t) := by
  rw [toPy, PyVal.isText]
  exact decide_eq_decide.mpr PyStr.ofString_inj

end Json

end Layad
