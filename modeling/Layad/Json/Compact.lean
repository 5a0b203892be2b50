import Layad.Json

namespace Layad

/-!
# Compact serialisation

The text `serde_json` writes for a value, byte by byte: no white space, members and items
separated by commas, and in a string only quotation marks, backslashes and control
characters escaped.
-/

/-- The UTF-8 bytes of a text. -/
def utf8 (s : String) : List UInt8 := s.toUTF8.data.toList

namespace Json

/-- A lower-case hexadecimal digit. -/
def hexDigit (n : UInt8) : UInt8 := if n < 10 then 48 + n else 87 + n

/-- How one byte of a string is written. -/
def escapeByte (b : UInt8) : List UInt8 :=
  match b with
  | 0x22 => [0x5c, 0x22]
  | 0x5c => [0x5c, 0x5c]
  | 0x08 => [0x5c, 0x62]
  | 0x09 => [0x5c, 0x74]
  | 0x0a => [0x5c, 0x6e]
  | 0x0c => [0x5c, 0x66]
  | 0x0d => [0x5c, 0x72]
  | b => if b < 0x20 then [0x5c, 0x75, 0x30, 0x30, hexDigit (b / 16), hexDigit (b % 16)] else [b]

/-- A string between quotation marks. -/
def quote (s : String) : List UInt8 := 0x22 :: (utf8 s).flatMap escapeByte ++ [0x22]

mutual

/-- The bytes of a value. -/
def compact : Json → List UInt8
  | .null => utf8 "null"
  | .bool true => utf8 "true"
  | .bool false => utf8 "false"
  | .int i => utf8 (toString i)
  | .float text => utf8 text
  | .str s => quote s
  | .arr items => 0x5b :: compactItems items ++ [0x5d]
  | .obj members => 0x7b :: compactMembers members ++ [0x7d]

/-- The items of an array, separated by commas. -/
def compactItems : List Json → List UInt8
  | [] => []
  | [item] => compact item
  | item :: rest => compact item ++ 0x2c :: compactItems rest

/-- The members of an object, separated by commas. -/
def compactMembers : List (String × Json) → List UInt8
  | [] => []
  | [(key, value)] => quote key ++ 0x3a :: compact value
  | (key, value) :: rest => quote key ++ 0x3a :: compact value ++ 0x2c :: compactMembers rest

end

end Json

end Layad
