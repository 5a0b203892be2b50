import Layad.Json.Document

namespace Layad

/-!
# What the code takes from outside the repository

The crates and library routines whose text or encoding the daemon passes on.  The
protocol results below hold for every `Host`; where a result needs more of one, its
hypotheses say what.
-/

/-- The library functions the daemon calls. -/
structure Host where
  /-- `serde_json::from_str::<Value>`, an error by its text. -/
  fromStr : String → Except String Json
  /-- The syntax of `serde_json::from_slice`: what a body says, an error by its text. -/
  document : List UInt8 → Except String Document
  /-- The float a number literal is read as, by the text it is printed with; nothing if it is
      out of range. -/
  f64Text : String → Option String
  /-- Text of the error the decoder derived for `PredictRequest` ends with. -/
  requestError : List UInt8 → String
  /-- `serde_json::to_vec` of a value. -/
  toVec : Json → List UInt8
  /-- Text of the error `serde_json::from_value::<ErrorBody>` ends with. -/
  errorBodyError : Json → String
  /-- Text of the error `String::from_utf8` ends with. -/
  utf8Error : List UInt8 → String
  /-- `{:?}` of a string. -/
  debugStr : String → String

/-! ### A host to replay runs on -/

namespace Replay

/-- The lines the runs read, with the values they hold. -/
def lines : List (String × Json) :=
  [("\x7b\"ready\":true,\"pid\":7,\"device\":\"cpu\"\x7d",
      .obj [("ready", .bool true), ("pid", .int 7), ("device", .str "cpu")]),
    ("\x7b\"id\":\"1\",\"ok\":true,\"result\":null\x7d",
      .obj [("id", .str "1"), ("ok", .bool true), ("result", .null)]),
    ("\x7b\"id\":\"1\",\"ok\":false,\"error\":" ++
        "\x7b\"code\":\"inference_error\",\"message\":\"boom\"\x7d\x7d",
      .obj [("id", .str "1"), ("ok", .bool false),
        ("error", .obj [("code", .str "inference_error"), ("message", .str "boom")])])]

/-- The library functions; a line of no known form is refused as one that is not JSON. -/
def host : Host where
  fromStr text := ((lines.lookup text).map .ok).getD (.error "expected value at line 1 column 1")
  document _ := .error "expected value at line 1 column 1"
  f64Text _ := none
  requestError _ := "missing field `state`"
  toVec := Json.compact
  errorBodyError _ := "invalid type"
  utf8Error _ := "invalid utf-8 sequence"
  debugStr s := "\"" ++ s ++ "\""

end Replay

end Layad
