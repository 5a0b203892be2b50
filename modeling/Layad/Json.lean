import Mathlib.Algebra.Ring.Int.Defs
import Mathlib.Algebra.Ring.Nat
import Mathlib.Tactic.Common

namespace Layad

/-!
# JSON values

`serde_json::Value` as the daemon uses it, with the accessors the code calls.  An object
keeps its members as a list; `serde_json`'s map has one member a key, in key order.

A number is an integer of the `u64`/`i64` range or a float; a finite float is named by
the text `serde_json` prints for it, which determines it.
-/

/-- A JSON document. -/
inductive Json where
  | null
  | bool (b : Bool)
  | int (i : Int)
  | float (text : String)
  | str (s : String)
  | arr (items : List Json)
  | obj (members : List (String × Json))
  deriving Repr

namespace Json

/-- `Value::get(key)`: the member of an object, nothing for any other value. -/
def get (v : Json) (key : String) : Option Json :=
  match v with
  | .obj members => members.lookup key
  | _ => none

/-- `Value::as_str`. -/
def asStr : Json → Option String
  | .str s => some s
  | _ => none

/-- `Value::as_bool`. -/
def asBool : Json → Option Bool
  | .bool b => some b
  | _ => none

/-- `Value::as_u64`: a non-negative integer number. -/
def asU64 : Json → Option Nat
  | .int i => if 0 ≤ i ∧ i < 2 ^ 64 then some i.toNat else none
  | _ => none

/-- `Value::as_array`. -/
def asArray : Json → Option (List Json)
  | .arr items => some items
  | _ => none

/-- `Value::as_object`. -/
def asObject : Json → Option (List (String × Json))
  | .obj members => some members
  | _ => none

/-- `Value::is_null`. -/
def isNull : Json → Bool
  | .null => true
  | _ => false

/-- `Map::insert`: the member of a key is replaced, or placed in key order. -/
def insert (key : String) (value : Json) :
    List (String × Json) → List (String × Json)
  | [] => [(key, value)]
  | (k, v) :: rest =>
    if key < k then (key, value) :: (k, v) :: rest
    else if key = k then (key, value) :: rest
    else (k, v) :: insert key value rest

/-- The map a sequence of members makes: the last one of a key counts. -/
def toMap (members : List (String × Json)) : List (String × Json) :=
  members.foldl (fun map (key, value) => insert key value map) []

end Json

end Layad
