import Layad.Json.Text

namespace Layad

/-!
# Python values

What `worker.py` handles: strings with their code points, lone surrogates included, the
values `json.loads` makes, and the text `json.dumps` writes for them with
`ensure_ascii=False`.
-/

/-- A code point of a Python string. -/
abbrev CodePoint := Fin 0x110000

/-- A Python string. -/
abbrev PyStr := List CodePoint

namespace PyStr

/-- The code point of a character. -/
def ofChar (c : Char) : CodePoint := ⟨c.toNat, c.valid.elim (Nat.lt_trans · (by decide)) And.right⟩

/-- A text as a Python string. -/
def ofString (s : String) : PyStr := s.toList.map ofChar

/-- The character of a code point, unless it is a surrogate. -/
def toChar? (n : CodePoint) : Option Char :=
  if h : n.val.isValidChar then some (Char.ofNatAux n.val h) else none

/-- `str.isspace` of one code point. -/
def isSpace (n : CodePoint) : Bool :=
  (0x09 ≤ n.val && n.val ≤ 0x0d) || (0x1c ≤ n.val && n.val ≤ 0x20) || n.val = 0x85 ||
    n.val = 0xa0 || n.val = 0x1680 || (0x2000 ≤ n.val && n.val ≤ 0x200a) || n.val = 0x2028 ||
    n.val = 0x2029 || n.val = 0x202f || n.val = 0x205f || n.val = 0x3000

/-- `str.strip()`. -/
def strip (s : PyStr) : PyStr :=
  ((s.dropWhile isSpace).reverse.dropWhile isSpace).reverse

/-- Decode bytes as UTF-8, which fails on anything else. -/
def decode (bytes : List UInt8) : Option PyStr :=
  (String.fromUTF8? ⟨bytes.toArray⟩).map ofString

/-- `str.encode("utf-8")`, which fails on a surrogate. -/
def encode (s : PyStr) : Option (List UInt8) :=
  (s.mapM toChar?).map fun cs => cs.flatMap String.utf8EncodeChar

/-- `str.encode("utf-8", errors="replace")`: a surrogate becomes a question mark. -/
def encodeReplace (s : PyStr) : List UInt8 :=
  s.flatMap fun n => ((toChar? n).map String.utf8EncodeChar).getD [0x3f]

end PyStr

/-- A Python float, a finite one by its `repr`. -/
inductive PyFloat where
  | finite (repr : String)
  | inf
  | negInf
  | nan
  deriving DecidableEq, Repr

/-- A Python value that can be written as JSON; `other` is any object that `json_default`
    replaces by a value. -/
inductive PyVal where
  | null
  | bool (b : Bool)
  | int (i : Int)
  | float (f : PyFloat)
  | str (s : PyStr)
  | list (items : List PyVal)
  | dict (members : List (PyStr × PyVal))
  | other (replacement : PyVal)

namespace PyVal

/-- A string constant. -/
def text (s : String) : PyVal := .str (.ofString s)

/-- `dict.get(key)` with a constant key. -/
def get (members : List (PyStr × PyVal)) (key : String) : PyVal :=
  (members.lookup (.ofString key)).getD .null

/-- `key in members` with a constant key. -/
def contains (members : List (PyStr × PyVal)) (key : String) : Bool :=
  (members.lookup (.ofString key)).isSome

/-- `value == "..."` with a constant. -/
def isText (v : PyVal) (s : String) : Bool :=
  match v with
  | .str t => t = .ofString s
  | _ => false

/-! ### `json.dumps` -/

/-- How one code point of a string is written. -/
def escape (n : CodePoint) : PyStr :=
  match PyStr.toChar? n with
  | some c => (Json.escapeChar c).map PyStr.ofChar
  | none => [n]

/-- A string between quotation marks. -/
def quote (s : PyStr) : PyStr := PyStr.ofChar '"' :: s.flatMap escape ++ [PyStr.ofChar '"']

/-- A float; the non-finite ones are written as JavaScript names them. -/
def dumpFloat : PyFloat → String
  | .finite repr => repr
  | .inf => "Infinity"
  | .negInf => "-Infinity"
  | .nan => "NaN"

mutual

/-- `json.dumps(value, ensure_ascii=False, default=json_default)`. -/
def dumps : PyVal → PyStr
  | .null => .ofString "null"
  | .bool true => .ofString "true"
  | .bool false => .ofString "false"
  | .int i => .ofString (toString i)
  | .float f => .ofString (dumpFloat f)
  | .str s => quote s
  | .list items => PyStr.ofChar '[' :: dumpsItems items ++ [PyStr.ofChar ']']
  | .dict members => PyStr.ofChar '{' :: dumpsMembers members ++ [PyStr.ofChar '}']
  | .other replacement => dumps replacement

/-- The items of a list. -/
def dumpsItems : List PyVal → PyStr
  | [] => []
  | [item] => dumps item
  | item :: rest => dumps item ++ .ofString ", " ++ dumpsItems rest

/-- The members of a dict. -/
def dumpsMembers : List (PyStr × PyVal) → PyStr
  | [] => []
  | [(key, value)] => quote key ++ .ofString ": " ++ dumps value
  | (key, value) :: rest =>
    quote key ++ .ofString ": " ++ dumps value ++ .ofString ", " ++ dumpsMembers rest

end

end PyVal

end Layad
